/-
Module: OsSimulator.Cpu.InstructionExecution
Purpose: One instruction of a process: `translate_instruction` of `shared/src/instructions.c` and
  `cpu/src/instruction_execution.c`.
Main exports: InstructionType, translateInstruction, Param, parseRegisterParam,
  executeInstructionCycle
-/
import OsSimulator.Kernel.State
import OsSimulator.Shared.Serialization

namespace OsSimulator

/-- `t_instruction_type`. -/
inductive InstructionType where
  | set
  | sum
  | sub
  | jnz
  | sleep
  | wait
  | signal
  | movIn
  | movOut
  | fOpen
  | fClose
  | fSeek
  | exit
  | fRead
  | fWrite
  | fTruncate
  | noOp
deriving DecidableEq, Repr

/-- `translate_instruction`. -/
def translateInstruction (instructionType : String) : InstructionType :=
  if instructionType = "SET" then .set
  else if instructionType = "SUM" then .sum
  else if instructionType = "SUB" then .sub
  else if instructionType = "JNZ" then .jnz
  else if instructionType = "WAIT" then .wait
  else if instructionType = "EXIT" then .exit
  else if instructionType = "SLEEP" then .sleep
  else if instructionType = "F_READ" then .fRead
  else if instructionType = "F_OPEN" then .fOpen
  else if instructionType = "F_SEEK" then .fSeek
  else if instructionType = "SIGNAL" then .signal
  else if instructionType = "MOV_IN" then .movIn
  else if instructionType = "F_WRITE" then .fWrite
  else if instructionType = "MOV_OUT" then .movOut
  else if instructionType = "F_CLOSE" then .fClose
  else if instructionType = "F_TRUNCATE" then .fTruncate
  else .noOp

/-! ### Parameters -/

/-- `isspace`. -/
def isSpace (char : Char) : Bool := char = ' ' || (9 ≤ char.toNat && char.toNat ≤ 13)

/-- The digits that `strtol` converts. -/
def digitsValue (digits : List Char) : Int :=
  digits.foldl (fun value digit => value * 10 + (digit.toNat - '0'.toNat : Nat)) 0

/-- `atoi`: `strtol` stays in the range of a `long`, and the result is cut to an `int`. -/
def atoi (string : String) : Int32 :=
  let chars := string.toList.dropWhile isSpace
  match chars with
  | '-' :: digits => .ofInt (max (-2 ^ 63) (-digitsValue (digits.takeWhile (·.isDigit))))
  | '+' :: digits => .ofInt (min (2 ^ 63 - 1) (digitsValue (digits.takeWhile (·.isDigit))))
  | digits => .ofInt (min (2 ^ 63 - 1) (digitsValue (digits.takeWhile (·.isDigit))))

/-- An element of the list of `parse_register_param`: the index of a register, or the pointer to
    the text of any other parameter. -/
inductive Param where
  | register (index : Nat)
  | identifier (text : String)
deriving DecidableEq, Repr

/-- One turn of the loop of `parse_register_param`. -/
def parseParam (identifier : String) : Param :=
  if identifier = "AX" then .register 0
  else if identifier = "BX" then .register 1
  else if identifier = "CX" then .register 2
  else if identifier = "DX" then .register 3
  else .identifier identifier

/-- `parse_register_param`; a parameter that is missing is the null pointer, which `strcmp` reads. -/
def parseRegisterParam (params : List String) (paramsQuantity : Nat) : Option (List Param) :=
  (List.range paramsQuantity).mapM fun index => params[index + 1]?.map parseParam

/-- A parameter used as an index of `cpu_register`; a pointer is no index. -/
def Param.asIndex : Param → Option Nat
  | .register index => some index
  | .identifier _ => none

/-- A parameter used as a string; an index is no pointer. -/
def Param.asText : Param → Option String
  | .register _ => none
  | .identifier text => some text

/-! ### Registers -/

/-- An `int` stored as a `void *`. -/
def cellOfInt (value : Int32) : BitVec 64 := value.toBitVec.signExtend 64

/-- `list_get` on `cpu_register`; past the end it is the null pointer. -/
def getRegister (cpuRegister : List (BitVec 64)) (index : Nat) : BitVec 64 :=
  cpuRegister.getD index 0

/-- `list_remove` and `list_add_in_index`, which changes nothing past the end of the list. -/
def replaceRegister (cpuRegister : List (BitVec 64)) (index : Nat) (value : Int32) :
    List (BitVec 64) :=
  (cpuRegister.eraseIdx index).insertIdx index (cellOfInt value)

/-- The sum of two cells, as the `SUM` case computes it in `uint32_t`. -/
def sumRegisters (destiny origin : BitVec 64) : Int32 :=
  ⟨.ofBitVec (destiny.truncate 32 + origin.truncate 32)⟩

/-- The difference of two cells, as the `SUB` case computes it between pointers. -/
def subRegisters (destiny origin : BitVec 64) : Int32 :=
  ⟨.ofBitVec ((destiny - origin).truncate 32)⟩

/-! ### The instruction cycle -/

/-- `execute_instruction_cycle`: the registers after the instruction, and what was asked of the kernel
    where it returns 0.  It fails where the source reads through a null pointer, or takes a pointer
    for a register; `string_split` is a function of the library. -/
def executeInstructionCycle (stringSplit : String → List String) (cpuRegister : List (BitVec 64))
    (instruction : String) : Option (List (BitVec 64) × Option CpuRequest) := do
  let instructionWithParams := stringSplit instruction
  let instructionType ← instructionWithParams[0]?
  match translateInstruction instructionType with
  | .noOp => return (cpuRegister, none)
  | .set =>
      let paramsOrder ← parseRegisterParam instructionWithParams 1
      let paramIndexSet ← paramsOrder[0]?.bind Param.asIndex
      let value ← instructionWithParams[2]?
      return (replaceRegister cpuRegister paramIndexSet (atoi value), none)
  | .sum =>
      let paramsOrder ← parseRegisterParam instructionWithParams 2
      let destiny ← paramsOrder[0]?.bind Param.asIndex
      let origin ← paramsOrder[1]?.bind Param.asIndex
      let sumResult := sumRegisters (getRegister cpuRegister destiny)
        (getRegister cpuRegister origin)
      return (replaceRegister cpuRegister destiny sumResult, none)
  | .sub =>
      let paramsOrder ← parseRegisterParam instructionWithParams 2
      let destiny ← paramsOrder[0]?.bind Param.asIndex
      let origin ← paramsOrder[1]?.bind Param.asIndex
      let subResult := subRegisters (getRegister cpuRegister destiny)
        (getRegister cpuRegister origin)
      return (replaceRegister cpuRegister destiny subResult, none)
  | .sleep =>
      let paramsOrder ← parseRegisterParam instructionWithParams 1
      let sleepTime ← paramsOrder[0]?.bind Param.asText
      return (cpuRegister, some (.sleep (atoi sleepTime)))
  | .wait =>
      let paramsOrder ← parseRegisterParam instructionWithParams 1
      let waitResource ← paramsOrder[0]?.bind Param.asText
      return (cpuRegister, some (.wait waitResource))
  | .signal =>
      let paramsOrder ← parseRegisterParam instructionWithParams 1
      let signalResource ← paramsOrder[0]?.bind Param.asText
      return (cpuRegister, some (.signal signalResource))
  | .jnz =>
      let paramsOrder ← parseRegisterParam instructionWithParams 1
      let paramIndexJnz ← paramsOrder[0]?.bind Param.asIndex
      if getRegister cpuRegister paramIndexJnz ≠ 0 then
        -- The target is inserted among the registers; the program counter does not change.
        let value ← instructionWithParams[2]?
        return (cpuRegister.insertIdx paramIndexJnz (cellOfInt (atoi value)), none)
      else
        return (cpuRegister, none)
  | .movIn | .movOut =>
      let _ ← parseRegisterParam instructionWithParams 2
      return (cpuRegister, none)
  | .fOpen | .fClose | .fSeek | .fRead | .fWrite | .fTruncate => return (cpuRegister, none)
  | .exit => return (cpuRegister, some .finish)

end OsSimulator
