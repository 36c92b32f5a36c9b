/-
Module: OsSimulator.Proofs.InstructionLines
Purpose: On which lines `execute_instruction_cycle` is safe: it reads no operand that is missing, uses
  no other parameter as the index of a register, no index as the pointer to a text, and changes the
  registers for well-formed instructions only.
Main exports: SafeFor, SafeLine, safeFor_iff
-/
import OsSimulator.Proofs.InstructionSemantics

namespace OsSimulator

/-- The line is executed whatever the registers hold, and if it is no well-formed instruction over the
    registers they stay as they are. -/
def SafeFor (stringSplit : String → List String) (line : String) : Prop :=
  ∀ cpuRegister, ∃ after request,
    executeInstructionCycle stringSplit cpuRegister line = some (after, request) ∧
      ((∀ instruction : RegisterInstruction, stringSplit line ≠ instruction.tokens) →
        after = cpuRegister)

/-- What the parts of a line have to be: there is a mnemonic, SET, JNZ, SUM and SUB have two operands,
    of which those that have to be registers are registers, SLEEP, WAIT and SIGNAL have an operand that is no
    register, and MOV_IN and MOV_OUT have two operands. -/
def SafeLine : List String → Prop
  | [] => False
  | mnemonic :: operands =>
      match translateInstruction mnemonic with
      | .set | .jnz => ∃ (register : Register) (operand : String), operands = [register.name, operand]
      | .sum | .sub => ∃ destiny origin : Register, operands = [destiny.name, origin.name]
      | .sleep | .wait | .signal => ∃ name rest, operands = name :: rest ∧
          ∀ register : Register, name ≠ register.name
      | .movIn | .movOut => 2 ≤ operands.length
      | .fOpen | .fClose | .fSeek | .exit | .fRead | .fWrite | .fTruncate | .noOp => True

/-! ### Mnemonics and operands -/

/-- The mnemonic of an instruction type. -/
def InstructionType.mnemonic : InstructionType → String
  | .set => "SET"
  | .sum => "SUM"
  | .sub => "SUB"
  | .jnz => "JNZ"
  | .sleep => "SLEEP"
  | .wait => "WAIT"
  | .signal => "SIGNAL"
  | .movIn => "MOV_IN"
  | .movOut => "MOV_OUT"
  | .fOpen => "F_OPEN"
  | .fClose => "F_CLOSE"
  | .fSeek => "F_SEEK"
  | .exit => "EXIT"
  | .fRead => "F_READ"
  | .fWrite => "F_WRITE"
  | .fTruncate => "F_TRUNCATE"
  | .noOp => "NO_OP"

/-- `translate_instruction` compares with the mnemonics. -/
theorem mnemonic_translateInstruction (mnemonic : String) :
    translateInstruction mnemonic = .noOp ∨
      mnemonic = (translateInstruction mnemonic).mnemonic := by
  unfold translateInstruction
  iterate 16
    refine iteInduction
      (motive := fun kind : InstructionType => kind = .noOp ∨ mnemonic = kind.mnemonic) .inr
      fun _ => ?_
  exact .inl rfl

theorem mnemonic_of_kind {mnemonic : String} {kind : InstructionType}
    (translated : translateInstruction mnemonic = kind) (known : kind ≠ .noOp) :
    mnemonic = kind.mnemonic := by
  rcases mnemonic_translateInstruction mnemonic with unknown | same
  · exact absurd (translated.symm.trans unknown) known
  · rw [← translated]
    exact same

theorem parseParam_asIndex {text : String} {index : Nat} :
    (parseParam text).asIndex = some index ↔
      ∃ register : Register, text = register.name ∧ index = register.index := by
  constructor
  · intro parsed
    unfold parseParam at parsed
    split_ifs at parsed with ax bx cx dx
    · exact ⟨.ax, ax, (Option.some.inj parsed).symm⟩
    · exact ⟨.bx, bx, (Option.some.inj parsed).symm⟩
    · exact ⟨.cx, cx, (Option.some.inj parsed).symm⟩
    · exact ⟨.dx, dx, (Option.some.inj parsed).symm⟩
    · cases parsed
  · rintro ⟨register, rfl, rfl⟩
    rw [parseParam_name, Param.asIndex]

theorem parseParam_asText {text result : String} :
    (parseParam text).asText = some result ↔
      (∀ register : Register, text ≠ register.name) ∧ result = text := by
  constructor
  · intro parsed
    have noRegister : ∀ register : Register, text ≠ register.name := by
      rintro register rfl
      rw [parseParam_name] at parsed
      cases parsed
    refine ⟨noRegister, ?_⟩
    unfold parseParam at parsed
    split_ifs at parsed
    · cases parsed
    · cases parsed
    · cases parsed
    · cases parsed
    · exact (Option.some.inj parsed).symm
  · rintro ⟨noRegister, rfl⟩
    have ax : result ≠ "AX" := noRegister .ax
    have bx : result ≠ "BX" := noRegister .bx
    have cx : result ≠ "CX" := noRegister .cx
    have dx : result ≠ "DX" := noRegister .dx
    rw [parseParam, if_neg ax, if_neg bx, if_neg cx, if_neg dx, Param.asText]

section Operands

variable {mnemonic : String} {operands : List String} {params : List Param} {index other : Nat}

/-- A parameter that is used as an index is the name of a register. -/
theorem exists_register (parsed : parseRegisterParam (mnemonic :: operands) 1 = some params)
    (asIndex : params[0]?.bind Param.asIndex = some index) :
    ∃ (register : Register) (rest : List String),
      operands = register.name :: rest ∧ index = register.index := by
  cases operands with
  | nil => cases parsed
  | cons first rest =>
      obtain rfl := Option.some.inj parsed
      obtain ⟨register, rfl, rfl⟩ := parseParam_asIndex.mp asIndex
      exact ⟨register, rest, rfl, rfl⟩

theorem exists_two_registers (parsed : parseRegisterParam (mnemonic :: operands) 2 = some params)
    (asIndex : params[0]?.bind Param.asIndex = some index)
    (asOther : params[1]?.bind Param.asIndex = some other) :
    ∃ (destiny origin : Register) (rest : List String),
      operands = destiny.name :: origin.name :: rest ∧
        index = destiny.index ∧ other = origin.index := by
  match operands with
  | [] => cases parsed
  | [_] => cases parsed
  | first :: second :: rest =>
      obtain rfl := Option.some.inj parsed
      obtain ⟨destiny, rfl, rfl⟩ := parseParam_asIndex.mp asIndex
      obtain ⟨origin, rfl, rfl⟩ := parseParam_asIndex.mp asOther
      exact ⟨destiny, origin, rest, rfl, rfl, rfl⟩

/-- A parameter that is used as a text is the name of no register. -/
theorem exists_text_iff {cpuRegister : List (BitVec 64)} {request : String → CpuRequest} :
    (∃ sent, ((parseRegisterParam (mnemonic :: operands) 1).bind fun params =>
        (params[0]?.bind Param.asText).bind fun text =>
          some (cpuRegister, some (request text))) = some (cpuRegister, sent)) ↔
      ∃ text rest, operands = text :: rest ∧ ∀ register : Register, text ≠ register.name := by
  constructor
  · rintro ⟨sent, executed⟩
    obtain ⟨params, parsed, executed⟩ := Option.bind_eq_some_iff.mp executed
    obtain ⟨text, asText, _⟩ := Option.bind_eq_some_iff.mp executed
    cases operands with
    | nil => cases parsed
    | cons first rest =>
        obtain rfl := Option.some.inj parsed
        obtain ⟨noRegister, rfl⟩ := parseParam_asText.mp asText
        exact ⟨text, rest, rfl, noRegister⟩
  · rintro ⟨text, rest, rfl, noRegister⟩
    refine ⟨some (request text), ?_⟩
    rw [parseRegisterParam_one, Option.bind_some, List.getElem?_cons_zero, Option.bind_some,
      parseParam_asText.mpr ⟨noRegister, rfl⟩, Option.bind_some]

/-- MOV_IN and MOV_OUT look at two parameters. -/
theorem exists_params_two_iff :
    (∃ params, parseRegisterParam (mnemonic :: operands) 2 = some params) ↔ 2 ≤ operands.length := by
  match operands with
  | [] =>
      constructor
      · rintro ⟨_, ⟨⟩⟩
      · intro enough
        exact absurd enough (by decide)
  | [_] =>
      constructor
      · rintro ⟨_, ⟨⟩⟩
      · intro enough
        exact absurd enough (by simp)
  | first :: second :: rest => exact ⟨fun _ => by simp, fun _ => ⟨_, rfl⟩⟩

end Operands

/-! ### What each kind of line does -/

section Kinds

variable {stringSplit : String → List String} {line mnemonic : String} {operands : List String}
  {cpuRegister : List (BitVec 64)} {result : List (BitVec 64) × Option CpuRequest}

/-- The instruction cycle depends on the parts of the line. -/
theorem executeInstructionCycle_split (split : stringSplit line = mnemonic :: operands) :
    executeInstructionCycle stringSplit cpuRegister line =
      executeInstructionCycle (fun _ => mnemonic :: operands) cpuRegister line := by
  rw [← split]
  rfl

theorem executed_set (split : stringSplit line = mnemonic :: operands)
    (kind : translateInstruction mnemonic = .set)
    (executed : executeInstructionCycle stringSplit cpuRegister line = some result) :
    ∃ (register : Register) (operand : String) (rest : List String),
      operands = register.name :: operand :: rest ∧
        result.1 = replaceRegister cpuRegister register.index (atoi operand) := by
  rw [executeInstructionCycle_split split, executeInstructionCycle] at executed
  simp only [List.getElem?_cons_zero, List.getElem?_cons_succ, Option.bind_eq_bind,
    Option.bind_some, kind] at executed
  obtain ⟨params, parsed, executed⟩ := Option.bind_eq_some_iff.mp executed
  obtain ⟨index, asIndex, executed⟩ := Option.bind_eq_some_iff.mp executed
  obtain ⟨operand, second, executed⟩ := Option.bind_eq_some_iff.mp executed
  obtain rfl := Option.some.inj executed
  obtain ⟨register, rest, rfl, rfl⟩ := exists_register parsed asIndex
  obtain ⟨others, rfl⟩ : ∃ others, rest = operand :: others := by
    cases rest with
    | nil => cases second
    | cons head others =>
        obtain rfl := Option.some.inj second
        exact ⟨others, rfl⟩
  exact ⟨register, operand, others, rfl, rfl⟩

theorem executed_jnz (split : stringSplit line = mnemonic :: operands)
    (kind : translateInstruction mnemonic = .jnz)
    (executed : executeInstructionCycle stringSplit cpuRegister line = some result) :
    ∃ (register : Register) (rest : List String), operands = register.name :: rest ∧
      (getRegister cpuRegister register.index ≠ 0 → ∃ operand others, rest = operand :: others ∧
        result.1 = cpuRegister.insertIdx register.index (cellOfInt (atoi operand))) := by
  rw [executeInstructionCycle_split split, executeInstructionCycle] at executed
  simp only [List.getElem?_cons_zero, List.getElem?_cons_succ, Option.bind_eq_bind,
    Option.bind_some, kind] at executed
  obtain ⟨params, parsed, executed⟩ := Option.bind_eq_some_iff.mp executed
  obtain ⟨index, asIndex, executed⟩ := Option.bind_eq_some_iff.mp executed
  obtain ⟨register, rest, rfl, rfl⟩ := exists_register parsed asIndex
  refine ⟨register, rest, rfl, fun nonzero => ?_⟩
  rw [if_pos nonzero] at executed
  obtain ⟨operand, second, executed⟩ := Option.bind_eq_some_iff.mp executed
  obtain rfl := Option.some.inj executed
  cases rest with
  | nil => cases second
  | cons head others =>
      obtain rfl := Option.some.inj second
      exact ⟨head, others, rfl, rfl⟩

/-- SUM and SUB store a sum or a difference in the first register. -/
theorem executed_arithmetic (split : stringSplit line = mnemonic :: operands)
    (kind : translateInstruction mnemonic = .sum ∨ translateInstruction mnemonic = .sub)
    (executed : executeInstructionCycle stringSplit cpuRegister line = some result) :
    ∃ (destiny origin : Register) (rest : List String),
      operands = destiny.name :: origin.name :: rest ∧
        ∃ operation, (operation = sumRegisters ∨ operation = subRegisters) ∧
          result.1 = replaceRegister cpuRegister destiny.index
            (operation (getRegister cpuRegister destiny.index)
              (getRegister cpuRegister origin.index)) := by
  rw [executeInstructionCycle_split split, executeInstructionCycle] at executed
  simp only [List.getElem?_cons_zero, Option.bind_eq_bind, Option.bind_some] at executed
  rcases kind with kind | kind
  · simp only [kind] at executed
    obtain ⟨params, parsed, executed⟩ := Option.bind_eq_some_iff.mp executed
    obtain ⟨index, asIndex, executed⟩ := Option.bind_eq_some_iff.mp executed
    obtain ⟨other, asOther, executed⟩ := Option.bind_eq_some_iff.mp executed
    obtain rfl := Option.some.inj executed
    obtain ⟨destiny, origin, rest, rfl, rfl, rfl⟩ := exists_two_registers parsed asIndex asOther
    exact ⟨destiny, origin, rest, rfl, sumRegisters, .inl rfl, rfl⟩
  · simp only [kind] at executed
    obtain ⟨params, parsed, executed⟩ := Option.bind_eq_some_iff.mp executed
    obtain ⟨index, asIndex, executed⟩ := Option.bind_eq_some_iff.mp executed
    obtain ⟨other, asOther, executed⟩ := Option.bind_eq_some_iff.mp executed
    obtain rfl := Option.some.inj executed
    obtain ⟨destiny, origin, rest, rfl, rfl, rfl⟩ := exists_two_registers parsed asIndex asOther
    exact ⟨destiny, origin, rest, rfl, subRegisters, .inr rfl, rfl⟩

/-- SLEEP, WAIT and SIGNAL send the process, if their operand is no register. -/
theorem executed_text_iff (split : stringSplit line = mnemonic :: operands)
    (kind : translateInstruction mnemonic = .sleep ∨ translateInstruction mnemonic = .wait ∨
      translateInstruction mnemonic = .signal) :
    (∃ request, executeInstructionCycle stringSplit cpuRegister line =
        some (cpuRegister, request)) ↔
      ∃ text rest, operands = text :: rest ∧ ∀ register : Register, text ≠ register.name := by
  rw [executeInstructionCycle_split split, executeInstructionCycle]
  simp only [List.getElem?_cons_zero, Option.bind_eq_bind, Option.bind_some]
  rcases kind with kind | kind | kind
  · simp only [kind]
    exact exists_text_iff
  · simp only [kind]
    exact exists_text_iff
  · simp only [kind]
    exact exists_text_iff

/-- MOV_IN and MOV_OUT change nothing, if they have two operands. -/
theorem executed_mov_iff (split : stringSplit line = mnemonic :: operands)
    (kind : translateInstruction mnemonic = .movIn ∨ translateInstruction mnemonic = .movOut) :
    (∃ request, executeInstructionCycle stringSplit cpuRegister line =
        some (cpuRegister, request)) ↔ 2 ≤ operands.length := by
  rw [executeInstructionCycle_split split, executeInstructionCycle, ← exists_params_two_iff]
  simp only [List.getElem?_cons_zero, Option.bind_eq_bind, Option.bind_some]
  rcases kind with kind | kind
  · simp only [kind]
    constructor
    · rintro ⟨request, executed⟩
      obtain ⟨params, parsed, _⟩ := Option.bind_eq_some_iff.mp executed
      exact ⟨params, parsed⟩
    · rintro ⟨params, parsed⟩
      rw [parsed]
      exact ⟨none, rfl⟩
  · simp only [kind]
    constructor
    · rintro ⟨request, executed⟩
      obtain ⟨params, parsed, _⟩ := Option.bind_eq_some_iff.mp executed
      exact ⟨params, parsed⟩
    · rintro ⟨params, parsed⟩
      rw [parsed]
      exact ⟨none, rfl⟩

/-- The other mnemonics have no effect here, or end the process. -/
theorem executes_other (split : stringSplit line = mnemonic :: operands)
    (kind : translateInstruction mnemonic ∈
      [.fOpen, .fClose, .fSeek, .exit, .fRead, .fWrite, .fTruncate, .noOp]) :
    ∃ request, executeInstructionCycle stringSplit cpuRegister line =
      some (cpuRegister, request) := by
  rw [executeInstructionCycle_split split, executeInstructionCycle]
  simp only [List.getElem?_cons_zero, Option.bind_eq_bind, Option.bind_some]
  simp only [List.mem_cons, List.not_mem_nil, or_false] at kind
  rcases kind with kind | kind | kind | kind | kind | kind | kind | kind <;>
    exact ⟨_, by simp only [kind]; rfl⟩

/-! ### Well-formed lines -/

/-- The well-formed instructions over the registers have two operands, unless their mnemonic is
    unknown. -/
theorem tokens_known {instruction : RegisterInstruction}
    (tokens : mnemonic :: operands = instruction.tokens)
    (known : translateInstruction mnemonic ≠ .noOp) :
    operands.length = 2 ∧ (translateInstruction mnemonic = .set ∨
      translateInstruction mnemonic = .sum ∨ translateInstruction mnemonic = .sub ∨
      translateInstruction mnemonic = .jnz) := by
  cases instruction with
  | set register operand =>
      obtain ⟨rfl, rfl⟩ := List.cons.inj tokens
      exact ⟨rfl, .inl (by simp [translateInstruction])⟩
  | sum destiny origin =>
      obtain ⟨rfl, rfl⟩ := List.cons.inj tokens
      exact ⟨rfl, .inr (.inl (by simp [translateInstruction]))⟩
  | sub destiny origin =>
      obtain ⟨rfl, rfl⟩ := List.cons.inj tokens
      exact ⟨rfl, .inr (.inr (.inl (by simp [translateInstruction])))⟩
  | jnz register operand =>
      obtain ⟨rfl, rfl⟩ := List.cons.inj tokens
      exact ⟨rfl, .inr (.inr (.inr (by simp [translateInstruction])))⟩
  | other unknownMnemonic others unknown =>
      obtain ⟨rfl, rfl⟩ := List.cons.inj tokens
      exact absurd unknown known

/-- A line of a well-formed instruction is executed. -/
theorem safeFor_of_tokens {instruction : RegisterInstruction}
    (tokens : stringSplit line = instruction.tokens) : SafeFor stringSplit line := fun _ =>
  ⟨_, none, executeInstructionCycle_tokens tokens, fun malformed => absurd tokens (malformed _)⟩

/-- A line that leaves the registers as they are is safe. -/
theorem safeFor_of_unchanged
    (executes : ∀ cpuRegister, ∃ request,
      executeInstructionCycle stringSplit cpuRegister line = some (cpuRegister, request)) :
    SafeFor stringSplit line := fun cpuRegister =>
  let ⟨request, executed⟩ := executes cpuRegister
  ⟨cpuRegister, request, executed, fun _ => rfl⟩

/-- Storing what a register does not hold changes the registers. -/
theorem replaceRegister_ne {register : Register} {value : Int32} {cell : BitVec 64}
    (different : cellOfInt value ≠ cell) :
    replaceRegister (List.replicate 4 cell) register.index value ≠ List.replicate 4 cell := by
  have inside := index_lt register
  intro same
  rw [replaceRegister, List.insertIdx_eraseIdx_self (by rw [List.length_replicate]; omega)] at same
  have atIndex := congrArg (·[register.index]?) same
  simp only [List.getElem?_set_self (show register.index < (List.replicate 4 cell).length by
    rw [List.length_replicate]; exact inside), List.getElem?_replicate, if_pos inside] at atIndex
  exact different (Option.some.inj atIndex)

theorem getRegister_replicate (register : Register) (cell : BitVec 64) :
    getRegister (List.replicate 4 cell) register.index = cell := by
  cases register <;> rfl

/-- The line of a known instruction with another number of operands is not well formed. -/
theorem malformed_of_length (split : stringSplit line = mnemonic :: operands)
    (known : translateInstruction mnemonic ≠ .noOp) (count : operands.length ≠ 2)
    (instruction : RegisterInstruction) : stringSplit line ≠ instruction.tokens := by
  intro tokens
  exact count (tokens_known (split.symm.trans tokens) known).1

/-- SET needs a register and a value, and nothing else. -/
theorem safeFor_set_iff (split : stringSplit line = mnemonic :: operands)
    (kind : translateInstruction mnemonic = .set) :
    SafeFor stringSplit line ↔
      ∃ (register : Register) (operand : String), operands = [register.name, operand] := by
  have known : translateInstruction mnemonic ≠ .noOp := by simp [kind]
  constructor
  · intro safe
    obtain ⟨_, _, executed, _⟩ := safe []
    obtain ⟨register, operand, rest, rfl, _⟩ := executed_set split kind executed
    cases rest with
    | nil => exact ⟨register, operand, rfl⟩
    | cons extra rest =>
        -- The line is executed on registers that do not hold the value.
        obtain ⟨after, request, executed, unchanged⟩ :=
          safe (List.replicate 4 (cellOfInt (atoi operand) + 1))
        obtain ⟨other, value, _, same, stored⟩ := executed_set split kind executed
        obtain ⟨_, rfl, _⟩ : register.name = other.name ∧ operand = value ∧ _ := by
          simpa using same
        rw [unchanged (malformed_of_length split known (by simp))] at stored
        refine absurd stored.symm (replaceRegister_ne ?_)
        simp
  · rintro ⟨register, operand, rfl⟩
    obtain rfl := mnemonic_of_kind kind (by decide)
    have tokens : stringSplit line = (RegisterInstruction.set register operand).tokens := split
    exact safeFor_of_tokens tokens

/-- SUM and SUB need two registers, and nothing else. -/
theorem safeFor_arithmetic_iff (split : stringSplit line = mnemonic :: operands)
    (kind : translateInstruction mnemonic = .sum ∨ translateInstruction mnemonic = .sub) :
    SafeFor stringSplit line ↔
      ∃ destiny origin : Register, operands = [destiny.name, origin.name] := by
  have known : translateInstruction mnemonic ≠ .noOp := by
    rcases kind with kind | kind <;> simp [kind]
  constructor
  · intro safe
    -- Neither 1 + 1 nor 1 - 1 is 1.
    obtain ⟨after, request, executed, unchanged⟩ := safe (List.replicate 4 1)
    obtain ⟨destiny, origin, rest, rfl, operation, isOperation, stored⟩ :=
      executed_arithmetic split kind executed
    cases rest with
    | nil => exact ⟨destiny, origin, rfl⟩
    | cons extra rest =>
        rw [unchanged (malformed_of_length split known (by simp)), getRegister_replicate,
          getRegister_replicate] at stored
        refine absurd stored.symm (replaceRegister_ne ?_)
        rcases isOperation with rfl | rfl <;> decide
  · rintro ⟨destiny, origin, rfl⟩
    rcases kind with kind | kind
    · obtain rfl := mnemonic_of_kind kind (by decide)
      have tokens : stringSplit line = (RegisterInstruction.sum destiny origin).tokens := split
      exact safeFor_of_tokens tokens
    · obtain rfl := mnemonic_of_kind kind (by decide)
      have tokens : stringSplit line = (RegisterInstruction.sub destiny origin).tokens := split
      exact safeFor_of_tokens tokens

/-- JNZ needs a register and a target, and nothing else. -/
theorem safeFor_jnz_iff (split : stringSplit line = mnemonic :: operands)
    (kind : translateInstruction mnemonic = .jnz) :
    SafeFor stringSplit line ↔
      ∃ (register : Register) (operand : String), operands = [register.name, operand] := by
  have known : translateInstruction mnemonic ≠ .noOp := by simp [kind]
  constructor
  · intro safe
    obtain ⟨after, request, executed, unchanged⟩ := safe (List.replicate 4 1)
    obtain ⟨register, rest, rfl, inserts⟩ := executed_jnz split kind executed
    obtain ⟨operand, others, rfl, inserted⟩ := inserts (by rw [getRegister_replicate]; decide)
    cases others with
    | nil => exact ⟨register, operand, rfl⟩
    | cons extra others =>
        rw [unchanged (malformed_of_length split known (by simp))] at inserted
        have lengths := congrArg List.length inserted
        have inside := index_lt register
        rw [List.length_insertIdx_of_le_length (by rw [List.length_replicate]; omega)] at lengths
        simp at lengths
  · rintro ⟨register, operand, rfl⟩
    obtain rfl := mnemonic_of_kind kind (by decide)
    have tokens : stringSplit line = (RegisterInstruction.jnz register operand).tokens := split
    exact safeFor_of_tokens tokens

/-- A line that is executed, and is no well-formed instruction over the registers, leaves them. -/
theorem safeFor_iff_of_no_effect (split : stringSplit line = mnemonic :: operands)
    (known : translateInstruction mnemonic ≠ .noOp)
    (noEffect : ¬ (translateInstruction mnemonic = .set ∨ translateInstruction mnemonic = .sum ∨
      translateInstruction mnemonic = .sub ∨ translateInstruction mnemonic = .jnz))
    {condition : Prop}
    (executes_iff : ∀ cpuRegister, (∃ request,
      executeInstructionCycle stringSplit cpuRegister line = some (cpuRegister, request)) ↔
        condition) : SafeFor stringSplit line ↔ condition := by
  constructor
  · intro safe
    obtain ⟨after, request, executed, unchanged⟩ := safe []
    have malformed : ∀ instruction : RegisterInstruction,
        stringSplit line ≠ instruction.tokens := fun instruction tokens =>
      noEffect (tokens_known (split.symm.trans tokens) known).2
    rw [unchanged malformed] at executed
    exact (executes_iff []).mp ⟨request, executed⟩
  · intro holds
    exact safeFor_of_unchanged fun cpuRegister => (executes_iff cpuRegister).mpr holds

end Kinds

/-- A line is safe if and only if its parts are. -/
theorem safeFor_iff (stringSplit : String → List String) (line : String) :
    SafeFor stringSplit line ↔ SafeLine (stringSplit line) := by
  cases split : stringSplit line with
  | nil =>
      refine ⟨fun safe => ?_, False.elim⟩
      obtain ⟨_, _, executed, _⟩ := safe []
      rw [executeInstructionCycle, split] at executed
      cases executed
  | cons mnemonic operands =>
      rw [SafeLine]
      cases kind : translateInstruction mnemonic with
      | set => exact safeFor_set_iff split kind
      | jnz => exact safeFor_jnz_iff split kind
      | sum => exact safeFor_arithmetic_iff split (.inl kind)
      | sub => exact safeFor_arithmetic_iff split (.inr kind)
      | sleep =>
          exact safeFor_iff_of_no_effect split (by simp [kind]) (by simp [kind])
            fun _ => executed_text_iff split (.inl kind)
      | wait =>
          exact safeFor_iff_of_no_effect split (by simp [kind]) (by simp [kind])
            fun _ => executed_text_iff split (.inr (.inl kind))
      | signal =>
          exact safeFor_iff_of_no_effect split (by simp [kind]) (by simp [kind])
            fun _ => executed_text_iff split (.inr (.inr kind))
      | movIn =>
          exact safeFor_iff_of_no_effect split (by simp [kind]) (by simp [kind])
            fun _ => executed_mov_iff split (.inl kind)
      | movOut =>
          exact safeFor_iff_of_no_effect split (by simp [kind]) (by simp [kind])
            fun _ => executed_mov_iff split (.inr kind)
      | _ =>
          exact iff_of_true (safeFor_of_unchanged fun _ => executes_other split (by simp [kind]))
            trivial

/-- `SET` without operands. -/
theorem set_without_operands_crashes : ¬ SafeFor splitAtSpaces "SET" := by
  intro safe
  obtain ⟨_, _, executed, _⟩ := safe [0, 0, 0, 0]
  have crashed : executeInstructionCycle splitAtSpaces [0, 0, 0, 0] "SET" = none := by decide
  rw [crashed] at executed
  cases executed

end OsSimulator
