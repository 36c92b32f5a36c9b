/-
Module: OsSimulator.Shared.BufferGrowth
Purpose: `create_buffer`, `change_buffer_size` and `add_to_buffer` on the heap: the capacity is a field of
  its own, the bytes that `realloc` adds are anything, and a copy has to lie in what was allocated.
Main exports: Heap, HeapBuffer, createHeapBuffer, HeapBuffer.changeBufferSize, HeapBuffer.addToBuffer
-/
import OsSimulator.Shared.Serialization

namespace OsSimulator

open Bytes

/-- `malloc` and `realloc`, which do not fail: they return as many bytes as are asked for, and `realloc`
    keeps the bytes that were there.  The capacity of a buffer only grows, so that no two of its calls
    of `realloc` ask for the same size. -/
structure Heap where
  malloc : UInt64 → List UInt8
  realloc : List UInt8 → UInt64 → List UInt8
  length_malloc : ∀ size, (malloc size).length = size.toNat
  length_realloc : ∀ old size, (realloc old size).length = size.toNat
  keeps : ∀ old size, old.length ≤ size.toNat → old <+: realloc old size

/-- The heap whose new bytes are zeros. -/
def Heap.zeros : Heap where
  malloc := fun size => List.replicate size.toNat 0
  realloc := fun old size => old.take size.toNat ++ List.replicate (size.toNat - old.length) 0
  length_malloc := fun size => List.length_replicate
  length_realloc := fun old size => by
    rw [List.length_append, List.length_take, List.length_replicate]
    omega
  keeps := fun old size grows => by
    rw [List.take_of_length_le grows]
    exact List.prefix_append ..

/-- `t_buffer` with what `stream` points to. -/
structure HeapBuffer where
  offset : UInt32
  bufferSize : UInt64
  stream : List UInt8
deriving DecidableEq, Repr

/-- `create_buffer`. -/
def createHeapBuffer (heap : Heap) (bufferSize : UInt64) : HeapBuffer where
  offset := 0
  bufferSize := bufferSize
  stream := heap.malloc bufferSize

/-- `memcpy` to a place in a stream, where all bytes have to lie in the stream. -/
def memcpy (stream : List UInt8) (place : Nat) (bytes : List UInt8) : Option (List UInt8) :=
  if place + bytes.length ≤ stream.length then
    some (overwrite stream place bytes)
  else
    none

namespace HeapBuffer

/-- A turn of the loop of `change_buffer_size`. -/
def grow (heap : Heap) (buffer : HeapBuffer) : HeapBuffer :=
  let bufferSize := buffer.bufferSize + .ofNat defaultBufferSize
  { buffer with
    bufferSize := bufferSize
    stream := heap.realloc buffer.stream bufferSize }

/-- `change_buffer_size`, whose loop has at most so many turns.  The 32-bit offset is added to a
    `size_t`. -/
def changeBufferSize (heap : Heap) (size : UInt64) : Nat → HeapBuffer → Option HeapBuffer
  | 0, _ => none
  | turns + 1, buffer =>
      if buffer.bufferSize < buffer.offset.toUInt64 + size then
        changeBufferSize heap size turns (buffer.grow heap)
      else
        some buffer

/-- `add_to_buffer`; the new offset is cut to 32 bits. -/
def addToBuffer (heap : Heap) (turns : Nat) (buffer : HeapBuffer) (information : List UInt8) :
    Option HeapBuffer := do
  let size : UInt64 := .ofNat information.length
  let buffer ← buffer.changeBufferSize heap size turns
  let stream ← memcpy buffer.stream buffer.offset.toNat information
  return { buffer with
    offset := (buffer.offset.toUInt64 + size).toUInt32
    stream := stream }

/-- The buffer without its capacity. -/
def toBuffer (buffer : HeapBuffer) : Buffer where
  offset := buffer.offset
  stream := buffer.stream

end HeapBuffer

end OsSimulator
