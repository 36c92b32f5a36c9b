/-
Module: OsSimulator.Memory.Instructions
Purpose: How the memory program finds an instruction: `get_instruction_from_file` of `memory.c` and
  `handle_instruction` of its `handle_connection.c`.
Main exports: FileSystem, fgets, getInstructionFromFile, handleInstruction
-/
import OsSimulator.Shared.Messages

namespace OsSimulator

/-- What `fopen` finds under each path, `memory_config->instruction_path`, and how many bytes can be written
    to the block that `string_new` returns: it is the block of an empty string, and smaller than the size
    that `fgets` is told. -/
structure FileSystem where
  fopen : String → Option (List UInt8)
  instructionPath : String
  stringNew : Nat
  small : stringNew < 1024

/-- Blocks of 24 bytes are small. -/
theorem FileSystem.small_24 : 24 < 1024 := by decide

/-- The byte of a line break. -/
def newline : UInt8 := 10

/-- `fgets` with a size of 1024: the line it stores and what is left of the file, unless nothing was
    left before. -/
def fgets (file : List UInt8) : Option (List UInt8 × List UInt8) :=
  if file = [] then
    none
  else
    let first := file.take 1023
    let line := first.take ((first.takeWhile (· ≠ newline)).length + 1)
    some (line, file.drop line.length)

/-- The loop of `get_instruction_from_file`, which reads into the block of `string_new`: at the end of the
    file the last line stays.  A line that has no room there with a NUL behind it overruns the block; the
    memory program does not get over it. -/
def readLines (stringNew : Nat) : Nat → List UInt8 → List UInt8 → Option (List UInt8)
  | 0, line, _ => some line
  | count + 1, line, file =>
      match fgets file with
      | none => readLines stringNew count line file
      | some (next, rest) =>
          if next.length < stringNew then readLines stringNew count next rest else none

/-- `get_instruction_from_file`.  A file that cannot be opened gives no line, and the loop up to
    `INT_MAX` does not end. -/
def getInstructionFromFile (stringNew : Nat) (file : Option (List UInt8))
    (programCounter : Int32) : Option String := do
  let instructionFile ← file
  if programCounter.toInt = 2 ^ 31 - 1 then
    none
  else
    let lineInstruction ← readLines stringNew (programCounter.toInt + 1).toNat [] instructionFile
    return ofCBytes (lineInstruction.takeWhile (· ≠ newline))

/-- The file of a process. -/
def FileSystem.instructionFile (memory : FileSystem) (path : String) : Option (List UInt8) :=
  memory.fopen (memory.instructionPath ++ "/" ++ path)

/-- The package of `send_instruction`. -/
def sendInstruction (stale : List UInt8) (instruction : String) : Package :=
  let package := createPackage .instruction stale
  { package with payload := package.payload.addStringToBuffer instruction }

/-- `handle_instruction` on the payload of an `INSTRUCTIONS` package. -/
def handleInstruction (memory : FileSystem) (stale payload : List UInt8) : Option Package := do
  let (processToExecute, _) ← takePcbFromBuffer (createBuffer payload)
  let instruction ← getInstructionFromFile memory.stringNew
    (memory.instructionFile processToExecute.path) processToExecute.programCounter
  return sendInstruction stale instruction

end OsSimulator
