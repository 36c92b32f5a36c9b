/-
Module: OsSimulator.Shared.Serialization
Purpose: `shared/src/serialization.c`: the buffer that messages are written to and read from.
Main exports: Buffer, Buffer.addToBuffer, Buffer.addStringToBuffer, Buffer.addListToBuffer,
  Taker, bufferTake, takeStringFromBuffer, takeListFromBuffer
-/
import OsSimulator.Lib.Bytes

namespace OsSimulator

open Bytes

/-- `t_buffer`; `buffer_size` is the length of `stream`, in which everything past the offset is left
    over from before. -/
structure Buffer where
  offset : UInt32
  stream : List UInt8
deriving DecidableEq, Repr

/-- `create_buffer`: what `malloc` returns is not cleared. -/
def createBuffer (stale : List UInt8) : Buffer := { offset := 0, stream := stale }

/-- What was written to the buffer; `send_package` sends these bytes. -/
def Buffer.contents (buffer : Buffer) : List UInt8 := buffer.stream.take buffer.offset.toNat

/-- `DEFAULT_BUFFER_SIZE`. -/
def defaultBufferSize : Nat := 64

/-- A character stands for the byte with its code. -/
def byteOfChar (char : Char) : UInt8 := .ofNat char.toNat

/-- The character that stands for a byte. -/
def charOfByte (byte : UInt8) : Char := .ofNat byte.toNat

/-- The bytes of a C string, without the final NUL. -/
def cBytes (string : String) : List UInt8 := string.toList.map byteOfChar

/-- The C string at the start of some bytes: it ends before the first NUL. -/
def ofCBytes (bytes : List UInt8) : String := .ofList ((bytes.takeWhile (· ≠ 0)).map charOfByte)

/-- The characters are the bytes of a C string, and none of them is NUL. -/
def CString (string : String) : Prop := ∀ char ∈ string.toList, 0 < char.toNat ∧ char.toNat < 256

instance (string : String) : Decidable (CString string) :=
  List.decidableBAll (fun char : Char => 0 < char.toNat ∧ char.toNat < 256) string.toList

namespace Buffer

/-- `change_buffer_size`.  `realloc` leaves the new bytes as they are; here they are zeros.  Each turn
    of the loop adds bytes, so `offset + size` turns are enough. -/
def changeBufferSize (size : Nat) (buffer : Buffer) : Buffer :=
  loop (buffer.offset.toNat + size) buffer
where
  /-- The loop, with at most so many turns. -/
  loop : Nat → Buffer → Buffer
  | 0, buffer => buffer
  | turns + 1, buffer =>
      if buffer.stream.length < buffer.offset.toNat + size then
        loop turns { buffer with stream := buffer.stream ++ List.replicate defaultBufferSize 0 }
      else
        buffer

/-- `add_to_buffer`. -/
def addToBuffer (buffer : Buffer) (information : List UInt8) : Buffer :=
  let changed := buffer.changeBufferSize information.length
  { offset := advance changed.offset information.length
    stream := overwrite changed.stream changed.offset.toNat information }

/-- `add_UINT32_to_buffer`. -/
def addUInt32ToBuffer (buffer : Buffer) (value : UInt32) : Buffer :=
  buffer.addToBuffer (ofWord value)

/-- `add_INT32_to_buffer`. -/
def addInt32ToBuffer (buffer : Buffer) (value : Int32) : Buffer :=
  buffer.addToBuffer (ofWord value.toUInt32)

/-- `add_string_to_buffer`: the length, with the final NUL, and the bytes. -/
def addStringToBuffer (buffer : Buffer) (value : String) : Buffer :=
  let size : UInt32 := .ofNat ((cBytes value).length + 1)
  (buffer.addUInt32ToBuffer size).addToBuffer (cBytes value ++ [0])

/-- `add_list_to_buffer`. -/
def addListToBuffer {α : Type} (addElement : Buffer → α → Buffer) (buffer : Buffer)
    (list : List α) : Buffer :=
  list.foldl addElement (buffer.addUInt32ToBuffer (.ofNat list.length))

end Buffer

/-- A function that takes a value from a buffer and moves its offset; it fails where the source would
    read past the end of the stream. -/
abbrev Taker := StateT Buffer Option

/-- `buffer_take`. -/
def bufferTake (size : Nat) : Taker (List UInt8) := fun buffer =>
  if buffer.offset.toNat + size ≤ buffer.stream.length then
    some ((buffer.stream.drop buffer.offset.toNat).take size,
      { buffer with offset := advance buffer.offset size })
  else
    none

/-- `take_UINT32_from_buffer`. -/
def takeUInt32FromBuffer : Taker UInt32 := do
  let bytes ← bufferTake 4
  return toWord bytes

/-- `take_INT32_from_buffer`. -/
def takeInt32FromBuffer : Taker Int32 := do
  let bytes ← bufferTake 4
  return (toWord bytes).toInt32

/-- `take_string_from_buffer`; bytes without a NUL are no C string. -/
def takeStringFromBuffer : Taker String := do
  let size ← takeUInt32FromBuffer
  let bytes ← bufferTake size.toNat
  if 0 ∈ bytes then
    return ofCBytes bytes
  else
    StateT.lift none

/-- The loop of `take_list_from_buffer`. -/
def takeElements {α : Type} (takeElement : Taker α) : Nat → Taker (List α)
  | 0 => return []
  | count + 1 => do
      let element ← takeElement
      let elements ← takeElements takeElement count
      return element :: elements

/-- `take_list_from_buffer`. -/
def takeListFromBuffer {α : Type} (takeElement : Taker α) : Taker (List α) := do
  let size ← takeUInt32FromBuffer
  takeElements takeElement size.toNat

end OsSimulator
