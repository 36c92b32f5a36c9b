/-
Module: OsSimulator.Proofs.InstructionSemantics
Purpose: The instructions over the registers against a reference machine.  They agree up to the first
  JNZ that finds a register that is not zero: the CPU does not jump, and inserts the target among the
  registers.
Main exports: Register, RegisterInstruction, ReferenceState, ReferenceState.step, executeLine,
  executesAsReference_iff
-/
import OsSimulator.Cpu.HandleConnection
import OsSimulator.Lib.Transition
import OsSimulator.Proofs.Preemption
import Mathlib.Logic.Function.Basic

namespace OsSimulator

open Transition

/-! ### The reference machine -/

/-- The four registers. -/
inductive Register where
  | ax
  | bx
  | cx
  | dx
deriving DecidableEq, Repr

namespace Register

/-- How a register is written. -/
def name : Register → String
  | .ax => "AX"
  | .bx => "BX"
  | .cx => "CX"
  | .dx => "DX"

/-- Its index in `cpu_register`. -/
def index : Register → Nat
  | .ax => 0
  | .bx => 1
  | .cx => 2
  | .dx => 3

end Register

/-- A well-formed instruction over the registers; `other` is `NO_OP` or an unknown mnemonic. -/
inductive RegisterInstruction where
  | set (register : Register) (operand : String)
  | sum (destiny origin : Register)
  | sub (destiny origin : Register)
  | jnz (register : Register) (operand : String)
  | other (mnemonic : String) (operands : List String)
      (unknown : translateInstruction mnemonic = .noOp)

/-- The parts of the line that the instruction is written in. -/
def RegisterInstruction.tokens : RegisterInstruction → List String
  | .set register operand => ["SET", register.name, operand]
  | .sum destiny origin => ["SUM", destiny.name, origin.name]
  | .sub destiny origin => ["SUB", destiny.name, origin.name]
  | .jnz register operand => ["JNZ", register.name, operand]
  | .other mnemonic operands _ => mnemonic :: operands

/-- The registers and the program counter of the reference machine. -/
structure ReferenceState where
  registers : Register → UInt32
  programCounter : Int32

/-- One instruction of the reference machine. -/
def ReferenceState.step (state : ReferenceState) : RegisterInstruction → ReferenceState
  | .set register operand =>
      { registers := Function.update state.registers register (atoi operand).toUInt32
        programCounter := state.programCounter + 1 }
  | .sum destiny origin =>
      { registers := Function.update state.registers destiny
          (state.registers destiny + state.registers origin)
        programCounter := state.programCounter + 1 }
  | .sub destiny origin =>
      { registers := Function.update state.registers destiny
          (state.registers destiny - state.registers origin)
        programCounter := state.programCounter + 1 }
  | .jnz register operand =>
      { state with
        programCounter :=
          if state.registers register ≠ 0 then atoi operand else state.programCounter + 1 }
  | .other .. => { state with programCounter := state.programCounter + 1 }

/-! ### The instructions of the CPU -/

/-- What a turn of `execute_process` does with the instruction it has received: it is executed, and
    the program counter goes on by one. -/
def executeLine (stringSplit : String → List String) (process : Pcb) (instruction : String) :
    Option Pcb :=
  (executeInstructionCycle stringSplit process.cpuRegister instruction).map fun result =>
    { process with cpuRegister := result.1, programCounter := process.programCounter + 1 }

/-- A turn of `execute_process` leaves what the line makes of the process. -/
theorem executeTurn_executes {machine : Machine} {stale : List UInt8} {hasInterrupt : Bool}
    {process : Pcb} {turn : Turn}
    (executed : executeTurn machine stale hasInterrupt process = some turn) :
    executeLine machine.stringSplit process turn.instruction = some turn.process := by
  simp only [executeTurn, Option.bind_eq_bind] at executed
  obtain ⟨instruction, _, executed⟩ := Option.bind_eq_some_iff.mp executed
  obtain ⟨result, ran, executed⟩ := Option.bind_eq_some_iff.mp executed
  obtain rfl := Option.some.inj executed
  rw [executeLine, ran]
  rfl

/-- The four cells hold the values of the registers; what their high halves hold besides is not to be
    seen by a comparison with 0. -/
structure Represents (cpuRegister : List (BitVec 64)) (registers : Register → UInt32) : Prop where
  narrow : ∀ cell ∈ cpuRegister, Narrow cell
  values : cpuRegister.map (BitVec.truncate 32) =
    [.ax, .bx, .cx, .dx].map fun register => (registers register).toBitVec

/-- The process is where the reference machine is. -/
structure Agrees (process : Pcb) (reference : ReferenceState) : Prop where
  registers : Represents process.cpuRegister reference.registers
  programCounter : process.programCounter = reference.programCounter

section Registers

variable {cpuRegister : List (BitVec 64)} {registers : Register → UInt32} {register : Register}
  {value : Int32} {word : UInt32}

theorem Represents.length (represents : Represents cpuRegister registers) :
    cpuRegister.length = 4 := by
  have lengths := congrArg List.length represents.values
  rwa [List.length_map] at lengths

theorem index_lt (register : Register) : register.index < 4 := by
  cases register <;> decide

/-- The cell of a register holds its value. -/
theorem Represents.getRegister (represents : Represents cpuRegister registers)
    (register : Register) :
    (OsSimulator.getRegister cpuRegister register.index).truncate 32 =
      (registers register).toBitVec := by
  obtain ⟨ax, bx, cx, dx, rfl⟩ := List.length_eq_four.mp represents.length
  have values := represents.values
  simp only [List.map_cons, List.map_nil, List.cons.injEq, and_true] at values
  cases register with
  | ax => exact values.1
  | bx => exact values.2.1
  | cx => exact values.2.2.1
  | dx => exact values.2.2.2

/-- `list_remove` and `list_add_in_index` replace one of the four cells. -/
theorem Represents.replaceRegister (represents : Represents cpuRegister registers)
    (register : Register) (same : value.toBitVec = word.toBitVec) :
    Represents (OsSimulator.replaceRegister cpuRegister register.index value)
      (Function.update registers register word) := by
  have inside : register.index ≠ cpuRegister.length := by
    have := index_lt register
    rw [represents.length]
    omega
  rw [OsSimulator.replaceRegister, List.insertIdx_eraseIdx_self inside]
  constructor
  · intro cell member
    rcases List.mem_or_eq_of_mem_set member with older | rfl
    · exact represents.narrow cell older
    · exact narrow_cellOfInt value
  · rw [List.map_set, represents.values, truncate_cellOfInt, same]
    cases register <;> simp [Register.index, Function.update_apply]

/-- A cell is zero if and only if its register is. -/
theorem Represents.getRegister_eq_zero_iff (represents : Represents cpuRegister registers)
    (register : Register) :
    OsSimulator.getRegister cpuRegister register.index = 0 ↔ registers register = 0 := by
  have value := represents.getRegister register
  constructor
  · intro zero
    rw [zero] at value
    apply UInt32.toBitVec_inj.mp
    exact value.symm
  · intro zero
    rw [zero] at value
    apply Narrow.getRegister register.index represents.narrow
    rw [lowHalf, value]
    rfl

theorem sumRegisters_toBitVec (destiny origin : BitVec 64) :
    (sumRegisters destiny origin).toBitVec = destiny.truncate 32 + origin.truncate 32 := rfl

theorem subRegisters_toBitVec (destiny origin : BitVec 64) :
    (subRegisters destiny origin).toBitVec = destiny.truncate 32 - origin.truncate 32 := by
  have low : (subRegisters destiny origin).toBitVec = (destiny - origin).truncate 32 := rfl
  rw [low]
  apply BitVec.eq_of_toNat_eq
  simp only [BitVec.truncate, BitVec.toNat_setWidth, BitVec.toNat_sub]
  omega

end Registers

/-! ### One instruction -/

section Instruction

variable {stringSplit : String → List String} {cpuRegister : List (BitVec 64)} {line : String}
  {instruction : RegisterInstruction} {process : Pcb} {reference : ReferenceState}

theorem parseParam_name (register : Register) :
    parseParam register.name = .register register.index := by
  cases register <;> simp [parseParam, Register.name, Register.index]

@[simp] theorem parseRegisterParam_one (mnemonic first : String) (rest : List String) :
    parseRegisterParam (mnemonic :: first :: rest) 1 = some [parseParam first] := rfl

@[simp] theorem parseRegisterParam_two (mnemonic first second : String) (rest : List String) :
    parseRegisterParam (mnemonic :: first :: second :: rest) 2 =
      some [parseParam first, parseParam second] := rfl

/-- What the CPU makes of the four cells. -/
def RegisterInstruction.effect (cpuRegister : List (BitVec 64)) :
    RegisterInstruction → List (BitVec 64)
  | .set register operand => replaceRegister cpuRegister register.index (atoi operand)
  | .sum destiny origin =>
      replaceRegister cpuRegister destiny.index
        (sumRegisters (getRegister cpuRegister destiny.index)
          (getRegister cpuRegister origin.index))
  | .sub destiny origin =>
      replaceRegister cpuRegister destiny.index
        (subRegisters (getRegister cpuRegister destiny.index)
          (getRegister cpuRegister origin.index))
  | .jnz register operand =>
      if getRegister cpuRegister register.index ≠ 0 then
        cpuRegister.insertIdx register.index (cellOfInt (atoi operand))
      else
        cpuRegister
  | .other .. => cpuRegister

theorem executeInstructionCycle_tokens (split : stringSplit line = instruction.tokens) :
    executeInstructionCycle stringSplit cpuRegister line =
      some (instruction.effect cpuRegister, none) := by
  have onTokens : executeInstructionCycle stringSplit cpuRegister line =
      executeInstructionCycle (fun _ => stringSplit line) cpuRegister line := rfl
  rw [onTokens, split, executeInstructionCycle]
  cases instruction with
  | set register operand =>
      have mnemonic : translateInstruction "SET" = .set := by simp [translateInstruction]
      simp [RegisterInstruction.tokens, RegisterInstruction.effect, mnemonic, parseParam_name,
        Param.asIndex]
  | sum destiny origin =>
      have mnemonic : translateInstruction "SUM" = .sum := by simp [translateInstruction]
      simp only [RegisterInstruction.tokens, List.getElem?_cons_zero, List.getElem?_cons_succ,
        Option.bind_eq_bind, Option.bind_some, mnemonic, parseRegisterParam_two, parseParam_name,
        Param.asIndex, RegisterInstruction.effect]
      rfl
  | sub destiny origin =>
      have mnemonic : translateInstruction "SUB" = .sub := by simp [translateInstruction]
      simp only [RegisterInstruction.tokens, List.getElem?_cons_zero, List.getElem?_cons_succ,
        Option.bind_eq_bind, Option.bind_some, mnemonic, parseRegisterParam_two, parseParam_name,
        Param.asIndex, RegisterInstruction.effect]
      rfl
  | jnz register operand =>
      have mnemonic : translateInstruction "JNZ" = .jnz := by simp [translateInstruction]
      simp only [RegisterInstruction.tokens, List.getElem?_cons_zero, List.getElem?_cons_succ,
        Option.bind_eq_bind, Option.bind_some, mnemonic, parseRegisterParam_one, parseParam_name,
        Param.asIndex, RegisterInstruction.effect]
      split <;> rfl
  | other mnemonic operands unknown =>
      simp [RegisterInstruction.tokens, RegisterInstruction.effect, unknown]

/-- An instruction that does not jump does to the process what it does to the reference machine. -/
theorem Agrees.step (agrees : Agrees process reference)
    (split : stringSplit line = instruction.tokens)
    (stays : ∀ register operand, instruction = .jnz register operand →
      reference.registers register = 0) :
    ∃ after, executeLine stringSplit process line = some after ∧
      Agrees after (reference.step instruction) := by
  have counted := congrArg (· + 1) agrees.programCounter
  rw [executeLine, executeInstructionCycle_tokens split]
  cases instruction with
  | set register operand =>
      exact ⟨_, rfl, agrees.registers.replaceRegister register rfl, counted⟩
  | sum destiny origin =>
      refine ⟨_, rfl, agrees.registers.replaceRegister destiny ?_, counted⟩
      rw [sumRegisters_toBitVec, agrees.registers.getRegister, agrees.registers.getRegister]
      rfl
  | sub destiny origin =>
      refine ⟨_, rfl, agrees.registers.replaceRegister destiny ?_, counted⟩
      rw [subRegisters_toBitVec, agrees.registers.getRegister, agrees.registers.getRegister]
      rfl
  | jnz register operand =>
      have zero := stays register operand rfl
      have zeroCell := (agrees.registers.getRegister_eq_zero_iff register).mpr zero
      refine ⟨_, rfl, ?_, ?_⟩
      · simpa [zeroCell, ReferenceState.step, RegisterInstruction.effect] using agrees.registers
      · simpa [ReferenceState.step, zero] using counted
  | other mnemonic operands unknown => exact ⟨_, rfl, agrees.registers, counted⟩

/-- A JNZ that finds a register that is not zero leaves five cells. -/
theorem Agrees.jnz_inserts {register : Register} {operand : String}
    (agrees : Agrees process reference)
    (split : stringSplit line = (RegisterInstruction.jnz register operand).tokens)
    (nonzero : reference.registers register ≠ 0) {after : Pcb}
    (executed : executeLine stringSplit process line = some after) :
    after.cpuRegister.length = 5 := by
  have nonzeroCell := (agrees.registers.getRegister_eq_zero_iff register).not.mpr nonzero
  rw [executeLine, executeInstructionCycle_tokens split] at executed
  obtain rfl := Option.some.inj executed
  have inside := index_lt register
  have four := agrees.registers.length
  simp only [RegisterInstruction.effect, ne_eq, nonzeroCell, not_false_eq_true, if_true]
  rw [List.length_insertIdx_of_le_length (by omega), four]

end Instruction

/-! ### Sequences of instructions -/

/-- After every part of the sequence, the process that executes the lines is where the reference
    machine is that executes the instructions. -/
def ExecutesAsReference (stringSplit : String → List String) (lines : List String)
    (instructions : List RegisterInstruction) (process : Pcb) (reference : ReferenceState) : Prop :=
  ∀ count, ∃ after, run (executeLine stringSplit) process (lines.take count) = some after ∧
    Agrees after ((instructions.take count).foldl ReferenceState.step reference)

/-- No JNZ finds a register that is not zero. -/
def NeverJumps (instructions : List RegisterInstruction) (reference : ReferenceState) : Prop :=
  ∀ before register operand, before ++ [.jnz register operand] <+: instructions →
    (before.foldl ReferenceState.step reference).registers register = 0

section Sequences

variable {stringSplit : String → List String} {lines : List String}
  {instructions : List RegisterInstruction} {process : Pcb} {reference : ReferenceState}

theorem NeverJumps.cons {instruction : RegisterInstruction}
    (never : NeverJumps (instruction :: instructions) reference) :
    NeverJumps instructions (reference.step instruction) := by
  intro before register operand isPrefix
  exact never (instruction :: before) register operand (List.cons_prefix_cons.mpr ⟨rfl, isPrefix⟩)

theorem executesAsReference_of_neverJumps
    (split : lines.map stringSplit = instructions.map RegisterInstruction.tokens)
    (agrees : Agrees process reference) (never : NeverJumps instructions reference) :
    ExecutesAsReference stringSplit lines instructions process reference := by
  induction instructions generalizing lines process reference with
  | nil =>
      obtain rfl : lines = [] := List.map_eq_nil_iff.mp split
      intro count
      rw [List.take_nil, List.take_nil]
      exact ⟨process, rfl, agrees⟩
  | cons instruction instructions ih =>
      obtain ⟨line, rest, rfl, splitLine, splitRest⟩ := List.map_eq_cons_iff.mp split
      intro count
      cases count with
      | zero => exact ⟨process, rfl, agrees⟩
      | succ count =>
          have stays : ∀ register operand, instruction = .jnz register operand →
              reference.registers register = 0 := by
            rintro register operand rfl
            exact never [] register operand (List.cons_prefix_cons.mpr ⟨rfl, List.nil_prefix⟩)
          obtain ⟨middle, executed, agreesMiddle⟩ := agrees.step splitLine stays
          obtain ⟨after, ran, agreesAfter⟩ := ih splitRest agreesMiddle never.cons count
          refine ⟨after, ?_, agreesAfter⟩
          rw [List.take_succ_cons, run_cons, executed, Option.bind_some]
          exact ran

end Sequences

/-- Lines of well-formed instructions are executed as by the reference machine if and only if no JNZ of
    the sequence finds, on the reference machine, a register that is not zero. -/
theorem executesAsReference_iff (stringSplit : String → List String) (lines : List String)
    (instructions : List RegisterInstruction)
    (split : lines.map stringSplit = instructions.map RegisterInstruction.tokens) (process : Pcb)
    (reference : ReferenceState) (agrees : Agrees process reference) :
    ExecutesAsReference stringSplit lines instructions process reference ↔
      NeverJumps instructions reference := by
  refine ⟨fun executes before register operand isPrefix => ?_,
    executesAsReference_of_neverJumps split agrees⟩
  by_contra nonzero
  obtain ⟨rest, rfl⟩ := isPrefix
  rw [List.append_assoc, List.singleton_append, List.map_append, List.map_cons] at split
  obtain ⟨earlier, later, rfl, splitEarlier, splitLater⟩ := List.map_eq_append_iff.mp split
  obtain ⟨line, following, rfl, splitLine, _⟩ := List.map_eq_cons_iff.mp splitLater
  have lengths : earlier.length = before.length := by
    simpa using congrArg List.length splitEarlier
  obtain ⟨process', ran, agreesThere⟩ := executes before.length
  obtain ⟨after, ranLine, agreesAfter⟩ := executes (before.length + 1)
  rw [List.append_assoc, List.take_left] at agreesThere
  have upTo : (earlier ++ line :: following).take (before.length + 1) = earlier ++ [line] := by
    rw [← lengths, List.take_length_add_append]
    rfl
  rw [← lengths, List.take_left] at ran
  rw [upTo, run_append, ran, Option.bind_some, run_cons] at ranLine
  obtain ⟨last, executed, same⟩ := Option.bind_eq_some_iff.mp ranLine
  obtain rfl : last = after := by simpa using same
  have five := agreesThere.jnz_inserts splitLine nonzero executed
  have four := agreesAfter.registers.length
  omega

/-- `string_split` on a line whose parts are separated by single spaces. -/
def splitAtSpaces (text : String) : List String := (text.toList.splitOn ' ').map String.ofList

/-- A process that starts, with 7 in `AX`. -/
def sevenInAx : Pcb := { createPcb 1 "PLANI_1" 0 0 with cpuRegister := [7, 0, 0, 0] }

/-- The reference machine with 7 in `AX`. -/
def referenceSevenInAx : ReferenceState where
  registers := Function.update (fun _ => 0) .ax 7
  programCounter := 0

theorem sevenInAx_agrees : Agrees sevenInAx referenceSevenInAx where
  registers :=
    { narrow := by
        intro cell member
        have small : cell = 7 ∨ cell = 0 := by simpa [sevenInAx] using member
        rcases small with rfl | rfl
        · exact narrow_of_lowHalf 7 rfl
        · exact narrow_of_lowHalf 0 rfl
      values := rfl }
  programCounter := rfl

theorem executesAsReference_iff_sub :
    ExecutesAsReference splitAtSpaces ["SUB AX AX", "JNZ AX 5"]
        [.sub .ax .ax, .jnz .ax "5"] sevenInAx referenceSevenInAx ↔
      NeverJumps [.sub .ax .ax, .jnz .ax "5"] referenceSevenInAx :=
  executesAsReference_iff splitAtSpaces ["SUB AX AX", "JNZ AX 5"] [.sub .ax .ax, .jnz .ax "5"]
    (by decide) sevenInAx referenceSevenInAx sevenInAx_agrees

/-- A JNZ on 7: there are five registers after it, and the program counter is 1. -/
theorem jnz_does_not_jump :
    ¬ ExecutesAsReference splitAtSpaces ["JNZ AX 5"] [.jnz .ax "5"] sevenInAx
      referenceSevenInAx := by
  intro executes
  obtain ⟨after, ran, agrees⟩ := executes 1
  have counter : (run (executeLine splitAtSpaces) sevenInAx ["JNZ AX 5"]).map
      Pcb.programCounter = some 1 := by decide
  have sequence : ["JNZ AX 5"].take 1 = ["JNZ AX 5"] := rfl
  rw [sequence] at ran
  rw [ran, Option.map_some, agrees.programCounter] at counter
  exact absurd counter (by decide)

end OsSimulator
