/-
Module: OsSimulator.Proofs.Preemption
Purpose: An interrupted process executes what it would have executed.  An instruction depends on the low
  halves of the registers only, these and the program counter survive the way through the kernel, and
  a PCB that has grown too long for the way is too long for the next request to memory as well.
Main exports: executeInstructionCycle_low, executeInstructionCycle_cases, OnCpu, executeTurn_related,
  preemption_transparent
-/
import OsSimulator.Proofs.Received
import OsSimulator.Kernel.HandleConnection
import Mathlib.Data.List.InsertIdx

namespace OsSimulator

open Bytes

/-! ### The low halves of the registers -/

section LowHalves

variable (cell other : BitVec 64) (cpuRegister : List (BitVec 64)) (index : Nat) (value : Int32)

@[simp] theorem lowHalf_lowHalf : lowHalf (lowHalf cell) = lowHalf cell := by
  simp [lowHalf]

@[simp] theorem map_lowHalf_map_lowHalf :
    (cpuRegister.map lowHalf).map lowHalf = cpuRegister.map lowHalf := by
  simp

@[simp] theorem sumRegisters_lowHalf :
    sumRegisters (lowHalf cell) (lowHalf other) = sumRegisters cell other := by
  simp [sumRegisters, lowHalf]

@[simp] theorem subRegisters_lowHalf :
    subRegisters (lowHalf cell) (lowHalf other) = subRegisters cell other := by
  have low : ((lowHalf cell - lowHalf other).truncate 32 : BitVec 32) =
      (cell - other).truncate 32 := by
    apply BitVec.eq_of_toNat_eq
    simp only [lowHalf, BitVec.toNat_setWidth, BitVec.toNat_sub]
    omega
  rw [subRegisters, subRegisters, low]

@[simp] theorem getRegister_map_lowHalf :
    getRegister (cpuRegister.map lowHalf) index = lowHalf (getRegister cpuRegister index) := by
  rw [getRegister, getRegister, List.getD_eq_getElem?_getD, List.getD_eq_getElem?_getD,
    List.getElem?_map]
  cases cpuRegister[index]? with
  | none => rfl
  | some cell => rfl

@[simp] theorem replaceRegister_map_lowHalf :
    (replaceRegister (cpuRegister.map lowHalf) index value).map lowHalf =
      (replaceRegister cpuRegister index value).map lowHalf := by
  simp only [replaceRegister, List.map_insertIdx, ← List.eraseIdx_map, map_lowHalf_map_lowHalf]

@[simp] theorem insertIdx_map_lowHalf :
    ((cpuRegister.map lowHalf).insertIdx index (cellOfInt value)).map lowHalf =
      (cpuRegister.insertIdx index (cellOfInt value)).map lowHalf := by
  simp only [List.map_insertIdx, map_lowHalf_map_lowHalf]

/-- The high half says nothing about whether the cell is zero. -/
def Narrow (cell : BitVec 64) : Prop := lowHalf cell = 0 → cell = 0

theorem narrow_of_lowHalf (same : lowHalf cell = cell) : Narrow cell := by
  intro zero
  rw [← same]
  exact zero

theorem truncate_cellOfInt : ((cellOfInt value).truncate 32 : BitVec 32) = value.toBitVec := by
  apply BitVec.eq_of_getLsbD_eq
  intro position inside
  rw [cellOfInt, BitVec.truncate, BitVec.getLsbD_setWidth, BitVec.getLsbD_signExtend]
  have within : position < 64 := by omega
  simp [inside, within]

theorem narrow_cellOfInt : Narrow (cellOfInt value) := by
  intro zero
  have low := congrArg (BitVec.truncate 32) zero
  rw [lowHalf, truncate_cellOfInt] at low
  have nothing : value.toBitVec = 0 := by simpa using low
  rw [cellOfInt, nothing]
  rfl

variable {cpuRegister} in
theorem Narrow.getRegister (narrow : ∀ cell ∈ cpuRegister, Narrow cell) :
    Narrow (OsSimulator.getRegister cpuRegister index) := by
  rw [OsSimulator.getRegister, List.getD_eq_getElem?_getD]
  cases found : cpuRegister[index]? with
  | none => exact narrow_of_lowHalf 0 rfl
  | some cell => exact narrow cell (List.mem_of_getElem? found)

end LowHalves

/-! ### One instruction -/

section Instruction

variable {stringSplit : String → List String} {cpuRegister after : List (BitVec 64)}
  {instruction : String} {request : Option CpuRequest}

/-- An instruction sees the low halves of the registers only. -/
theorem executeInstructionCycle_low (stringSplit : String → List String) (instruction : String)
    (narrow : ∀ cell ∈ cpuRegister, Narrow cell) :
    (executeInstructionCycle stringSplit (cpuRegister.map lowHalf) instruction).map
        (fun result => (result.1.map lowHalf, result.2)) =
      (executeInstructionCycle stringSplit cpuRegister instruction).map
        (fun result => (result.1.map lowHalf, result.2)) := by
  have zero (index : Nat) : lowHalf (getRegister cpuRegister index) = 0 ↔
      getRegister cpuRegister index = 0 :=
    ⟨Narrow.getRegister index narrow, fun zero => by rw [zero]; rfl⟩
  rw [executeInstructionCycle, executeInstructionCycle]
  simp only [Option.bind_eq_bind, Option.map_bind, Function.comp_def]
  apply Option.bind_congr
  intro instructionType _
  cases translateInstruction instructionType with
  | jnz =>
      dsimp only
      simp only [Option.map_bind, Function.comp_def]
      apply Option.bind_congr
      intro paramsOrder _
      apply Option.bind_congr
      intro index _
      rw [getRegister_map_lowHalf]
      by_cases nonzero : getRegister cpuRegister index ≠ 0
      · rw [if_pos nonzero, if_pos fun low => nonzero ((zero index).mp low)]
        simp [Option.map_bind]
      · rw [if_neg nonzero, if_neg fun low => low ((zero index).mpr (not_not.mp nonzero))]
        simp
  | _ => simp [Option.map_bind, Function.comp_def]

/-- What an instruction does to the registers, and that no instruction asks for an interrupt. -/
theorem executeInstructionCycle_cases
    (executed : executeInstructionCycle stringSplit cpuRegister instruction = some (after, request)) :
    request ≠ some .interrupt ∧ (after = cpuRegister ∨ ∃ index value,
      after = replaceRegister cpuRegister index value ∨
        after = cpuRegister.insertIdx index (cellOfInt value)) := by
  simp only [executeInstructionCycle, Option.bind_eq_bind, Option.bind_eq_some_iff] at executed
  obtain ⟨instructionType, _, executed⟩ := executed
  cases kind : translateInstruction instructionType <;>
    simp only [kind, Option.bind_eq_some_iff, Option.pure_def, Option.some.injEq,
      Prod.mk.injEq] at executed
  case set =>
      obtain ⟨paramsOrder, _, index, _, text, _, rfl, rfl⟩ := executed
      exact ⟨nofun, .inr ⟨index, atoi text, .inl rfl⟩⟩
  case sum =>
      obtain ⟨paramsOrder, _, destiny, _, origin, _, rfl, rfl⟩ := executed
      exact ⟨nofun, .inr ⟨destiny, _, .inl rfl⟩⟩
  case sub =>
      obtain ⟨paramsOrder, _, destiny, _, origin, _, rfl, rfl⟩ := executed
      exact ⟨nofun, .inr ⟨destiny, _, .inl rfl⟩⟩
  case jnz =>
      obtain ⟨paramsOrder, _, index, _, executed⟩ := executed
      split at executed
      · obtain ⟨text, _, same⟩ := Option.bind_eq_some_iff.mp executed
        cases same
        exact ⟨nofun, .inr ⟨index, atoi text, .inr rfl⟩⟩
      · cases executed
        exact ⟨nofun, .inl rfl⟩
  case sleep | wait | signal =>
      obtain ⟨paramsOrder, _, text, _, rfl, rfl⟩ := executed
      exact ⟨nofun, .inl rfl⟩
  case movIn | movOut =>
      obtain ⟨paramsOrder, _, rfl, rfl⟩ := executed
      exact ⟨nofun, .inl rfl⟩
  all_goals
    obtain ⟨rfl, rfl⟩ := executed
    exact ⟨nofun, .inl rfl⟩

/-- After an instruction the registers are as narrow as before, and there is at most one more. -/
theorem executeInstructionCycle_narrow
    (executed : executeInstructionCycle stringSplit cpuRegister instruction = some (after, request))
    (narrow : ∀ cell ∈ cpuRegister, Narrow cell) :
    (∀ cell ∈ after, Narrow cell) ∧ after.length ≤ cpuRegister.length + 1 := by
  have inserted {cells : List (BitVec 64)} (index : Nat) (value : Int32)
      (cellsNarrow : ∀ cell ∈ cells, Narrow cell) :
      ∀ cell ∈ cells.insertIdx index (cellOfInt value), Narrow cell := by
    intro cell member
    rcases List.eq_or_mem_of_mem_insertIdx member with rfl | inCells
    · exact narrow_cellOfInt value
    · exact cellsNarrow cell inCells
  rcases (executeInstructionCycle_cases executed).2 with rfl | ⟨index, value, rfl | rfl⟩
  · exact ⟨narrow, Nat.le_succ _⟩
  · constructor
    · exact inserted index value fun cell member => narrow cell (List.mem_of_mem_eraseIdx member)
    · have shorter := List.length_eraseIdx_le cpuRegister index
      exact List.length_insertIdx_le_succ.trans (Nat.succ_le_succ shorter)
  · exact ⟨inserted index value narrow, List.length_insertIdx_le_succ⟩

end Instruction

/-! ### The request to memory -/

theorem length_bytes (pcb : Pcb) :
    pcb.bytes.length = 4 * pcb.cpuRegister.length +
      ((pcb.resources.flatMap stringPieces).flatten.length + (cBytes pcb.path).length + 41) := by
  have cells : (pcb.cpuRegister.flatMap cellPieces).flatten.length = 4 * pcb.cpuRegister.length := by
    induction pcb.cpuRegister with
    | nil => rfl
    | cons cell cells ih =>
        rw [List.flatMap_cons, List.flatten_append, List.length_append, ih, List.length_cons]
        simp [cellPieces]
        omega
  simp only [Pcb.bytes, pcbPieces, listPieces, List.flatten_append, List.length_append,
    List.flatten_cons, List.flatten_nil, List.length_nil, length_ofWord, cells,
    length_flatten_stringPieces]
  omega

/-- A line that was read has fewer bytes than `fgets` has room for. -/
theorem length_readLines {stringNew : Nat} (count : Nat) {line stored : List UInt8}
    (file : List UInt8) (short : line.length ≤ 1023)
    (read : readLines stringNew count line file = some stored) : stored.length ≤ 1023 := by
  induction count generalizing line file with
  | zero =>
      obtain rfl := Option.some.inj read
      exact short
  | succ count ih =>
      rw [readLines] at read
      cases gets : fgets file with
      | none =>
          rw [gets] at read
          exact ih file short read
      | some next =>
          obtain ⟨next, rest⟩ := next
          rw [gets] at read
          refine ih rest ?_ (Option.ite_none_right_eq_some.mp read).2
          rw [fgets] at gets
          split at gets
          · cases gets
          · cases gets
            rw [List.length_take, List.length_take]
            omega

theorem getInstructionFromFile_spec {stringNew : Nat} {file : Option (List UInt8)}
    {programCounter : Int32} {instruction : String}
    (found : getInstructionFromFile stringNew file programCounter = some instruction) :
    CString instruction ∧ (cBytes instruction).length ≤ 1023 := by
  obtain ⟨instructionFile, _, found⟩ := Option.bind_eq_some_iff.mp found
  split at found
  · cases found
  · obtain ⟨stored, read, found⟩ := Option.bind_eq_some_iff.mp found
    cases found
    refine ⟨ofCBytes_cString _, ?_⟩
    rw [cBytes, ofCBytes, String.toList_ofList, List.length_map, List.length_map]
    have empty : ([] : List UInt8).length ≤ 1023 := Nat.zero_le 1023
    have line := length_readLines _ _ empty read
    exact (List.takeWhile_prefix _).length_le.trans ((List.takeWhile_prefix _).length_le.trans line)

/-- The string of an answer is taken as it was sent. -/
theorem takeString_sendInstruction {instruction : String} (cString : CString instruction)
    (short : (cBytes instruction).length ≤ 1023) (stale : List UInt8) :
    (takeStringFromBuffer (createBuffer (sendInstruction stale instruction).payload.contents)).map
      Prod.fst = some instruction := by
  have length := length_flatten_stringPieces instruction
  have taken := (takes_string cString (by omega)).from_contents (createBuffer stale)
    (by rw [length]; simp only [createBuffer, UInt32.toNat_zero]; omega) []
  rw [List.append_nil] at taken
  exact congrArg (Option.map Prod.fst) taken

/-- The answer of memory is the line of the file, if the request can be sent. -/
theorem requestInstruction_of_sendable {process : Pcb} (sendable : process.Sendable)
    (memory : FileSystem) (stale : List UInt8) :
    requestInstruction memory stale process =
      getInstructionFromFile memory.stringNew (memory.instructionFile process.path)
        process.programCounter := by
  obtain ⟨⟨taken, rest⟩, took, same⟩ :=
    Option.map_eq_some_iff.mp (receivePcb_of_sendable sendable stale .instructions)
  dsimp only at same
  subst same
  simp only [requestInstruction, handleInstruction, took, Option.bind_eq_bind, Option.bind_some,
    Option.pure_def, Pcb.overWire_path, Pcb.overWire_programCounter]
  cases found : getInstructionFromFile memory.stringNew (memory.instructionFile process.path)
      process.programCounter with
  | none => rfl
  | some instruction =>
      obtain ⟨cString, short⟩ := getInstructionFromFile_spec found
      have taken := takeString_sendInstruction cString short stale
      simp only [Option.bind_some]
      rw [← taken]
      cases takeStringFromBuffer _ with
      | none => rfl
      | some answer => rfl

/-- A process that is too long to be sent gets no answer. -/
theorem requestInstruction_of_long {process : Pcb} (long : 2 ^ 32 ≤ process.bytes.length)
    (little : process.bytes.length < 2 ^ 32 + 4) (memory : FileSystem) (stale : List UInt8) :
    requestInstruction memory stale process = none := by
  have nothing := takePcbFromBuffer_of_long long little stale .instructions
  simp only [requestInstruction, handleInstruction, nothing, Option.bind_eq_bind, Option.bind_none]

/-! ### Turns -/

/-- What holds of a process while the CPU has it: it may have become too long to be sent by the last
    instruction only. -/
structure OnCpu (process : Pcb) : Prop where
  cStrings : process.CStrings
  fits : process.bytes.length < 2 ^ 32 + 4
  narrow : ∀ cell ∈ process.cpuRegister, Narrow cell

/-- Once they are executed, the two processes differ in the high halves of their registers only. -/
def SameLow (process other : Pcb) : Prop :=
  (process.setState .execution).overWire = (other.setState .execution).overWire

section Turns

variable {process other : Pcb}

theorem OnCpu.sendable (onCpu : OnCpu process) (short : process.bytes.length < 2 ^ 32) :
    process.Sendable := ⟨onCpu.cStrings, short⟩

theorem SameLow.path (same : SameLow process other) : process.path = other.path := by
  have both := congrArg Pcb.path same
  exact both

theorem SameLow.programCounter (same : SameLow process other) :
    process.programCounter = other.programCounter := by
  have both := congrArg Pcb.programCounter same
  exact both

theorem SameLow.lowHalves (same : SameLow process other) :
    process.cpuRegister.map lowHalf = other.cpuRegister.map lowHalf := by
  have both := congrArg Pcb.cpuRegister same
  exact both

theorem SameLow.registers (same : SameLow process other) :
    process.cpuRegister.map (·.toNat % 2 ^ 32) = other.cpuRegister.map (·.toNat % 2 ^ 32) := by
  have both := overWire_registers (process.setState .execution)
  rw [same, overWire_registers] at both
  exact both.symm

theorem SameLow.length (same : SameLow process other) :
    process.bytes.length = other.bytes.length := by
  have resources : process.resources = other.resources := by
    have both := congrArg Pcb.resources same
    exact both
  have registers := congrArg List.length same.lowHalves
  rw [List.length_map, List.length_map] at registers
  rw [length_bytes, length_bytes, registers, resources, same.path]

/-- The instruction, and what is asked of the kernel, do not depend on the high halves. -/
theorem requestInstruction_congr (same : SameLow process other) (onCpu : OnCpu process)
    (otherOnCpu : OnCpu other) (memory : FileSystem) (stale otherStale : List UInt8) :
    requestInstruction memory stale process = requestInstruction memory otherStale other := by
  have length := same.length
  by_cases short : process.bytes.length < 2 ^ 32
  · rw [requestInstruction_of_sendable (onCpu.sendable short),
      requestInstruction_of_sendable (otherOnCpu.sendable (length ▸ short)), same.path,
      same.programCounter]
  · rw [requestInstruction_of_long (Nat.le_of_not_lt short) onCpu.fits,
      requestInstruction_of_long (length ▸ Nat.le_of_not_lt short) otherOnCpu.fits]

/-- The process after an instruction. -/
def Pcb.advanced (process : Pcb) (cpuRegister : List (BitVec 64)) : Pcb :=
  { process with cpuRegister := cpuRegister, programCounter := process.programCounter + 1 }

/-- The flag only matters for an instruction that does not end the execution. -/
theorem executeTurn_hasInterrupt (machine : Machine) (stale : List UInt8) (hasInterrupt : Bool)
    (process : Pcb) :
    executeTurn machine stale hasInterrupt process =
      (executeTurn machine stale false process).map fun turn =>
        if hasInterrupt = true ∧ turn.request = none then
          { turn with request := some .interrupt }
        else turn := by
  simp only [executeTurn, Option.bind_eq_bind, Option.map_bind, Function.comp_def, Option.pure_def,
    Option.map_some]
  apply Option.bind_congr
  intro instruction _
  apply Option.bind_congr
  rintro ⟨cpuRegister, request⟩ _
  cases request with
  | none => cases hasInterrupt <;> rfl
  | some request => cases hasInterrupt <;> rfl

theorem OnCpu.advanced {stringSplit : String → List String} {instruction : String}
    {cpuRegister : List (BitVec 64)} {request : Option CpuRequest} (onCpu : OnCpu process)
    (short : process.bytes.length < 2 ^ 32)
    (executed : executeInstructionCycle stringSplit process.cpuRegister instruction =
      some (cpuRegister, request)) :
    OnCpu (process.advanced cpuRegister) := by
  obtain ⟨narrow, longer⟩ := executeInstructionCycle_narrow executed onCpu.narrow
  refine ⟨onCpu.cStrings, ?_, narrow⟩
  rw [length_bytes] at short ⊢
  dsimp only [Pcb.advanced]
  omega

theorem SameLow.advanced {cpuRegister otherCpuRegister : List (BitVec 64)}
    (same : SameLow process other)
    (registers : cpuRegister.map lowHalf = otherCpuRegister.map lowHalf) :
    SameLow (process.advanced cpuRegister) (other.advanced otherCpuRegister) := by
  cases process
  cases other
  simp_all [SameLow, Pcb.overWire, Pcb.setState, Pcb.advanced]

/-- The process after one turn is the same up to the high halves, and so is what was executed. -/
theorem executeTurn_related (machine : Machine) (stale otherStale : List UInt8)
    (same : SameLow process other) (onCpu : OnCpu process) (otherOnCpu : OnCpu other) :
    (executeTurn machine stale false process = none ∧
        executeTurn machine otherStale false other = none) ∨
      ∃ instruction after otherAfter request,
        executeTurn machine stale false process = some ⟨instruction, after, request⟩ ∧
          executeTurn machine otherStale false other = some ⟨instruction, otherAfter, request⟩ ∧
          request ≠ some .interrupt ∧ SameLow after otherAfter ∧ OnCpu after ∧ OnCpu otherAfter := by
  have answers := requestInstruction_congr same onCpu otherOnCpu machine.memory stale otherStale
  cases answer : requestInstruction machine.memory stale process with
  | none =>
      rw [answer] at answers
      exact .inl ⟨by simp [executeTurn, answer], by simp [executeTurn, ← answers]⟩
  | some instruction =>
      rw [answer] at answers
      have short : process.bytes.length < 2 ^ 32 := by
        by_contra long
        rw [requestInstruction_of_long (Nat.le_of_not_lt long) onCpu.fits] at answer
        cases answer
      have effects := executeInstructionCycle_low machine.stringSplit instruction onCpu.narrow
      rw [same.lowHalves, executeInstructionCycle_low _ _ otherOnCpu.narrow] at effects
      cases executed : executeInstructionCycle machine.stringSplit process.cpuRegister instruction with
      | none =>
          rw [executed] at effects
          have otherExecuted := Option.map_eq_none_iff.mp effects
          exact .inl ⟨by simp [executeTurn, answer, executed],
            by simp [executeTurn, ← answers, otherExecuted]⟩
      | some result =>
          obtain ⟨after, request⟩ := result
          rw [executed] at effects
          obtain ⟨⟨otherAfter, otherRequest⟩, otherExecuted, results⟩ :=
            Option.map_eq_some_iff.mp effects
          obtain ⟨registers, rfl⟩ := Prod.mk.inj results
          refine .inr ⟨instruction, process.advanced after, other.advanced otherAfter, otherRequest,
            ?_, ?_, (executeInstructionCycle_cases executed).1, same.advanced registers.symm,
            onCpu.advanced short executed,
            otherOnCpu.advanced (same.length ▸ short) otherExecuted⟩
          · simp [executeTurn, answer, executed, Pcb.advanced]
          · simp [executeTurn, ← answers, otherExecuted, Pcb.advanced]

end Turns

/-! ### Runs -/

/-- The process that the CPU takes. -/
theorem dispatchToCpu_onCpu {stale : List UInt8} {pcb process : Pcb}
    (dispatched : dispatchToCpu stale pcb = some process) : OnCpu process := by
  rw [dispatchToCpu] at dispatched
  obtain ⟨sendable, narrow⟩ := receivePcb_sendable dispatched
  have short := sendable.short
  exact ⟨sendable.cStrings, by omega,
    fun cell member => narrow_of_lowHalf cell (narrow cell member)⟩

/-- A process that is too long to be sent executes nothing more. -/
theorem instructionsExecuted_of_long {process : Pcb} (onCpu : OnCpu process)
    (long : 2 ^ 32 ≤ process.bytes.length) (machine : Machine) (timing : Timing) (turns turn : Nat) :
    instructionsExecuted machine timing turns turn process = [] := by
  cases turns with
  | zero => rfl
  | succ turns =>
      have silent := requestInstruction_of_long long onCpu.fits machine.memory (timing.stale turn)
      simp [instructionsExecuted, executeTurn, silent]

/-- An interrupted process comes back as it was, with the low halves of its registers, unless it is too
    long to be sent. -/
theorem requeueInterrupted_onCpu {process : Pcb} (onCpu : OnCpu process) (stale : List UInt8) :
    (∃ back, requeueInterrupted stale process = some back ∧ SameLow back process ∧ OnCpu back) ∨
      (requeueInterrupted stale process = none ∧ 2 ^ 32 ≤ process.bytes.length) := by
  by_cases short : process.bytes.length < 2 ^ 32
  · have received := receivePcb_of_sendable (onCpu.sendable short) stale .interrupt
    have again : ((process.overWire.setState .ready).setState .execution).Sendable := by
      refine ⟨onCpu.cStrings, ?_⟩
      rw [length_bytes] at short ⊢
      simpa [Pcb.setState, Pcb.overWire] using short
    have dispatched := receivePcb_of_sendable again stale .executeProcess
    rw [← dispatchToCpu] at dispatched
    refine .inl ⟨_, ?_, ?_, dispatchToCpu_onCpu dispatched⟩
    · rw [requeueInterrupted, received, Option.bind_eq_bind, Option.bind_some, dispatched]
    · simp [SameLow, Pcb.overWire, Pcb.setState]
  · refine .inr ⟨?_, Nat.le_of_not_lt short⟩
    have nothing := takePcbFromBuffer_of_long (Nat.le_of_not_lt short) onCpu.fits stale .interrupt
    rw [requeueInterrupted, receivePcb, nothing, Option.map_none, Option.bind_eq_bind,
      Option.bind_none]

theorem next_none (instruction : String) (process : Pcb) (stale : List UInt8) :
    Turn.next stale ⟨instruction, process, none⟩ = some process := rfl

theorem next_interrupt (instruction : String) (process : Pcb) (stale : List UInt8) :
    Turn.next stale ⟨instruction, process, some .interrupt⟩ = requeueInterrupted stale process := rfl

theorem next_request {request : CpuRequest} (ends : some request ≠ some .interrupt)
    (instruction : String) (process : Pcb) (stale : List UInt8) :
    Turn.next stale ⟨instruction, process, some request⟩ = none := by
  cases request with
  | interrupt => exact absurd rfl ends
  | _ => rfl

/-- Two runs from processes that are the same up to the high halves, of which only the first is
    interrupted. -/
theorem instructionsExecuted_related (machine : Machine) (timing : Timing)
    (stale : Nat → List UInt8) (turns number : Nat) {process other : Pcb}
    (same : SameLow process other) (onCpu : OnCpu process) (otherOnCpu : OnCpu other) :
    instructionsExecuted machine timing turns number process =
      instructionsExecuted machine { hasInterrupt := fun _ => false, stale := stale } turns number
        other := by
  induction turns generalizing number process other with
  | zero => rw [instructionsExecuted, instructionsExecuted]
  | succ turns ih =>
      rw [instructionsExecuted, instructionsExecuted, executeTurn_hasInterrupt]
      dsimp only
      rcases executeTurn_related machine (timing.stale number) (stale number) same onCpu otherOnCpu
        with ⟨nothing, otherNothing⟩ | ⟨instruction, after, otherAfter, request, executed,
          otherExecuted, notInterrupt, sameAfter, afterOnCpu, otherAfterOnCpu⟩
      · rw [nothing, otherNothing, Option.map_none, Option.elim_none, Option.elim_none]
      · have shown (request otherRequest : Option CpuRequest) :
            (⟨instruction, after, request⟩ : Turn).executed =
              (⟨instruction, otherAfter, otherRequest⟩ : Turn).executed := by
          rw [Turn.executed, Turn.executed, sameAfter.registers]
        rw [executed, otherExecuted, Option.map_some, Option.elim_some, Option.elim_some]
        cases request with
        | some request =>
            rw [if_neg (by simp), next_request notInterrupt, next_request notInterrupt,
              Option.elim_none, Option.elim_none, shown]
        | none =>
            rw [next_none, Option.elim_some]
            cases interrupted : timing.hasInterrupt number with
            | false =>
                rw [if_neg (by simp), next_none, Option.elim_some, shown none none,
                  ih (number + 1) sameAfter afterOnCpu otherAfterOnCpu]
            | true =>
                rw [if_pos ⟨rfl, rfl⟩]
                dsimp only
                rw [next_interrupt, shown (some .interrupt) none]
                rcases requeueInterrupted_onCpu afterOnCpu (timing.stale number) with
                  ⟨back, requeued, sameBack, backOnCpu⟩ | ⟨lost, long⟩
                · rw [requeued, Option.elim_some,
                    ih (number + 1) (sameBack.trans sameAfter) backOnCpu otherAfterOnCpu]
                · rw [lost, Option.elim_none,
                    instructionsExecuted_of_long otherAfterOnCpu (sameAfter.length ▸ long)]

/-- A turn executes the line at the program counter, and leaves the counter at the next one. -/
theorem executeTurn_line {machine : Machine} {stale : List UInt8} {process : Pcb} {turn : Turn}
    (onCpu : OnCpu process) (executed : executeTurn machine stale false process = some turn) :
    getInstructionFromFile machine.memory.stringNew (machine.memory.instructionFile process.path)
        process.programCounter =
        some turn.instruction ∧
      turn.request ≠ some .interrupt ∧ OnCpu turn.process ∧ turn.process.path = process.path ∧
      turn.process.programCounter = process.programCounter + 1 := by
  rw [executeTurn] at executed
  obtain ⟨instruction, answer, executed⟩ := Option.bind_eq_some_iff.mp executed
  obtain ⟨⟨cpuRegister, request⟩, cycle, done⟩ := Option.bind_eq_some_iff.mp executed
  cases done
  by_cases short : process.bytes.length < 2 ^ 32
  · rw [requestInstruction_of_sendable (onCpu.sendable short)] at answer
    exact ⟨answer, (executeInstructionCycle_cases cycle).1, onCpu.advanced short cycle, rfl, rfl⟩
  · rw [requestInstruction_of_long (Nat.le_of_not_lt short) onCpu.fits] at answer
    cases answer

/-- A run that is not interrupted executes the lines of the file from the program counter on, each of
    them once. -/
theorem instructionsExecuted_lines (machine : Machine) (stale : Nat → List UInt8)
    (turns number index : Nat) {process : Pcb} (onCpu : OnCpu process) {executed : Executed}
    (there : (instructionsExecuted machine { hasInterrupt := fun _ => false, stale := stale } turns
      number process)[index]? = some executed) :
    getInstructionFromFile machine.memory.stringNew (machine.memory.instructionFile process.path)
      (process.programCounter + .ofNat index) = some executed.instruction := by
  induction turns generalizing number process index with
  | zero =>
      rw [instructionsExecuted] at there
      cases there
  | succ turns ih =>
      rw [instructionsExecuted] at there
      dsimp only at there
      cases run : executeTurn machine (stale number) false process with
      | none =>
          rw [run, Option.elim_none] at there
          cases there
      | some turn =>
          rw [run, Option.elim_some] at there
          obtain ⟨line, notInterrupt, afterOnCpu, path, counter⟩ := executeTurn_line onCpu run
          cases index with
          | zero =>
              obtain rfl : turn.executed = executed := Option.some.inj there
              rw [show process.programCounter + Int32.ofNat 0 = process.programCounter from
                Int32.add_zero _]
              exact line
          | succ index =>
              rw [List.getElem?_cons_succ] at there
              obtain ⟨instruction, after, request⟩ := turn
              cases request with
              | none =>
                  rw [next_none, Option.elim_some] at there
                  have rest := ih (number + 1) index afterOnCpu there
                  rw [path, counter, Int32.add_assoc] at rest
                  rw [Int32.ofNat_add, Int32.add_comm (Int32.ofNat index)]
                  exact rest
              | some request =>
                  rw [next_request notInterrupt, Option.elim_none] at there
                  cases there

/-- The kernel's part of `requeueInterrupted`: what the `INTERRUPT` case puts at the end of `queue_ready`
    is, once it has come to the head, what `move_process_to_exec` sends. -/
theorem interrupted_is_dispatched {kernel later next : Kernel} {pcb first : Pcb} {rest : List Pcb}
    (queued : (kernel.handleInterrupt pcb).queueReady.getLast? = some first)
    (head : later.queueReady = first :: rest) (moved : later.moveProcessToExec = some next) :
    next.cpuDispatchConnection = later.cpuDispatchConnection ++
      [(.executeProcess, (pcb.setState .ready).setState .execution)] := by
  have last : pcb.setState .ready = first := by
    simpa [Kernel.handleInterrupt, Kernel.queuePush] using queued
  rw [Kernel.moveProcessToExec, head] at moved
  cases moved
  simp [Kernel.queuePush, last]

theorem dispatchToCpu_stale (stale other : List UInt8) (pcb : Pcb) :
    dispatchToCpu stale pcb = dispatchToCpu other pcb := by
  rw [dispatchToCpu, dispatchToCpu, receivePcb, receivePcb,
    sendPcb_contents stale other .executeProcess .executeProcess]

/-- Whenever the flag is set, and whatever the buffers held before, the same instructions are executed
    for a process, with the same registers modulo `2 ^ 32` after each of them, as when the flag is
    never set: the lines of its file from its program counter on, each of them once. -/
theorem preemption_transparent (machine : Machine) (timing : Timing) (stale : Nat → List UInt8)
    (turns : Nat) (pcb : Pcb) :
    processExecution machine timing turns pcb =
        processExecution machine { hasInterrupt := fun _ => false, stale := stale } turns pcb ∧
      ∀ process, dispatchToCpu (timing.stale 0) pcb = some process → ∀ index executed,
        (processExecution machine timing turns pcb)[index]? = some executed →
          getInstructionFromFile machine.memory.stringNew (machine.memory.instructionFile process.path)
            (process.programCounter + .ofNat index) = some executed.instruction := by
  have transparent : processExecution machine timing turns pcb =
      processExecution machine { hasInterrupt := fun _ => false, stale := stale } turns pcb := by
    rw [processExecution, processExecution, dispatchToCpu_stale (timing.stale 0) (stale 0)]
    cases dispatched : dispatchToCpu (stale 0) pcb with
    | none => rw [Option.elim_none, Option.elim_none]
    | some process =>
        have onCpu := dispatchToCpu_onCpu dispatched
        rw [Option.elim_some, Option.elim_some]
        exact instructionsExecuted_related machine timing stale turns 0 rfl onCpu onCpu
  refine ⟨transparent, fun process dispatched index executed there => ?_⟩
  rw [transparent, processExecution, dispatchToCpu_stale (stale 0) (timing.stale 0), dispatched,
    Option.elim_some] at there
  exact instructionsExecuted_lines machine stale turns 0 index (dispatchToCpu_onCpu dispatched) there

/-- A program whose second register becomes negative, and is then tested. -/
def subtractingMachine : Machine where
  memory :=
    { fopen := fun path =>
        if path = "test/SUBTRACT" then
          some (cBytes "SET AX 1\nSUB BX AX\nJNZ BX 7\nSUM CX BX\nEXIT")
        else none
      instructionPath := "test"
      stringNew := 24
      small := FileSystem.small_24 }
  stringSplit := fun text => (text.toList.splitOn ' ').map String.ofList

theorem preemption_transparent_subtracting :
    processExecution subtractingMachine
        { hasInterrupt := fun number => number ≠ 1, stale := fun _ => [1, 2, 3] } 9
        (createPcb 1 "SUBTRACT" 0 4) =
      [⟨"SET AX 1", [1, 0, 0, 0]⟩, ⟨"SUB BX AX", [1, 4294967295, 0, 0]⟩,
        ⟨"JNZ BX 7", [1, 7, 4294967295, 0, 0]⟩, ⟨"SUM CX BX", [1, 7, 6, 0, 0]⟩,
        ⟨"EXIT", [1, 7, 6, 0, 0]⟩] :=
  (preemption_transparent subtractingMachine _ (fun _ => []) 9 _).1.trans (by decide +kernel)

end OsSimulator
