/-
Module: OsSimulator.Memory.MainMemory
Purpose: The main memory of the memory program: the variable `main_memory`, which holds a pointer, the
  block that `reserve_memory` lets it point to, and what `read_memory` and `write_memory` do to them.
  An access outside of the object that its address was computed from fails.
Main exports: MainMemory, reserveMemory, MainMemory.readMemory, MainMemory.writeMemory, MemoryAccess,
  MainMemory.access
-/
import OsSimulator.Shared.Messages

namespace OsSimulator

open Bytes

/-- The bytes of the variable `main_memory`, where the reserved block lies, and what it holds. -/
@[ext] structure MainMemory where
  mainMemory : List UInt8
  base : UInt64
  contents : List UInt8
deriving DecidableEq, Repr

/-- The eight bytes of a pointer. -/
def ofPointer (pointer : UInt64) : List UInt8 :=
  ofWord (.ofNat pointer.toNat) ++ ofWord (.ofNat (pointer.toNat / 2 ^ 32))

/-- The address that eight bytes hold. -/
def toAddress (bytes : List UInt8) : Nat :=
  (toWord (bytes.take 4)).toNat + (toWord (bytes.drop 4)).toNat * 2 ^ 32

/-- `reserve_memory`: `malloc` has found room at `base`; what the block holds is indeterminate. -/
def reserveMemory (base : UInt64) (contents : List UInt8) : MainMemory where
  mainMemory := ofPointer base
  base := base
  contents := contents

namespace MainMemory

/-- `read_memory`: four bytes at `main_memory + physical_direction`. -/
def readMemory (memory : MainMemory) (physicalDirection : Int32) : Option UInt32 :=
  let position := toAddress memory.mainMemory + physicalDirection.toInt - memory.base.toNat
  if 0 ≤ position ∧ position + 4 ≤ memory.contents.length then
    some (toWord ((memory.contents.drop position.toNat).take 4))
  else
    none

/-- `write_memory`: four bytes at `&main_memory + physical_direction`, which counts in pointers. -/
def writeMemory (memory : MainMemory) (physicalDirection : Int32) (value : UInt32) :
    Option MainMemory :=
  let position := 8 * physicalDirection.toInt
  if 0 ≤ position ∧ position + 4 ≤ memory.mainMemory.length then
    some { memory with
      mainMemory := overwrite memory.mainMemory position.toNat (ofWord value) }
  else
    none

/-- `handle_read_memory`, from its payload on; what is read is dropped. -/
def handleReadMemory (payload : Buffer) (memory : MainMemory) : Option MainMemory := do
  let (_, payload) ← takePcbFromBuffer payload
  let (physicalDirection, _) ← takeInt32FromBuffer payload
  let _ ← memory.readMemory physicalDirection
  return memory

/-- `handle_write_memory`, from its payload on; it always writes 0. -/
def handleWriteMemory (payload : Buffer) (memory : MainMemory) : Option MainMemory := do
  let (_, payload) ← takePcbFromBuffer payload
  let (physicalDirection, _) ← takeInt32FromBuffer payload
  memory.writeMemory physicalDirection 0

end MainMemory

/-- A call of `read_memory` or `write_memory`. -/
inductive MemoryAccess where
  | read (physicalDirection : Int32)
  | write (physicalDirection : Int32) (value : UInt32)
deriving DecidableEq, Repr

/-- The address of a call. -/
def MemoryAccess.address : MemoryAccess → Int32
  | .read physicalDirection => physicalDirection
  | .write physicalDirection _ => physicalDirection

/-- One call. -/
def MainMemory.access (memory : MainMemory) : MemoryAccess → Option MainMemory
  | .read physicalDirection => (memory.readMemory physicalDirection).map fun _ => memory
  | .write physicalDirection value => memory.writeMemory physicalDirection value

end OsSimulator
