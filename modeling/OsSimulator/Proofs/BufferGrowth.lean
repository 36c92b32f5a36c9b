/-
Module: OsSimulator.Proofs.BufferGrowth
Purpose: The capacity of a buffer grows until what is added fits, so that every copy lies in the stream
  and the stream starts with all that was added.  With a heap whose new bytes are zeros the buffer is the
  one that the messages are written to.
Main exports: HeapBuffer.Filled, HeapBuffer.addToBuffer_filled, HeapBuffer.addToBuffer_zeros,
  buffer_growth
-/
import OsSimulator.Proofs.RoundTrip
import OsSimulator.Shared.BufferGrowth

namespace OsSimulator

open Bytes

namespace HeapBuffer

/-- The buffer holds these bytes and nothing else, and its capacity is what was allocated. -/
structure Filled (buffer : HeapBuffer) (bytes : List UInt8) : Prop where
  offset : buffer.offset.toNat = bytes.length
  inside : buffer.offset.toUInt64 ≤ buffer.bufferSize
  allocated : buffer.stream.length = buffer.bufferSize.toNat
  contents : buffer.stream.take buffer.offset.toNat = bytes

variable {heap : Heap} {buffer : HeapBuffer} {size : UInt64} {turns : Nat}
  {bytes information : List UInt8}

/-! ### The loop -/

/-- The addition in the condition of the loop does not wrap around. -/
theorem lacks_iff (short : buffer.offset.toNat + size.toNat < 2 ^ 32) :
    buffer.bufferSize < buffer.offset.toUInt64 + size ↔
      buffer.bufferSize.toNat < buffer.offset.toNat + size.toNat := by
  rw [UInt64.lt_iff_toNat_lt, UInt64.toNat_add, UInt32.toNat_toUInt64, Nat.mod_eq_of_lt (by omega)]

/-- The capacity that the loop asks for does not wrap around either. -/
theorem toNat_bufferSize_grow (heap : Heap) (buffer : HeapBuffer)
    (lacks : buffer.bufferSize.toNat < 2 ^ 32) :
    (buffer.grow heap).bufferSize.toNat = buffer.bufferSize.toNat + defaultBufferSize := by
  rw [grow]
  have step : (UInt64.ofNat defaultBufferSize).toNat = 64 := rfl
  rw [UInt64.toNat_add, step, Nat.mod_eq_of_lt (by omega)]
  rfl

theorem length_grow (heap : Heap) (buffer : HeapBuffer) :
    (buffer.grow heap).stream.length = (buffer.grow heap).bufferSize.toNat :=
  heap.length_realloc ..

/-- Every turn of the loop adds 64 bytes: with one more turn than these amount to, it ends, and what is
    added fits behind what the stream held. -/
theorem changeBufferSize_spec (heap : Heap) (size : UInt64) (turns : Nat) (buffer : HeapBuffer)
    (short : buffer.offset.toNat + size.toNat < 2 ^ 32)
    (allocated : buffer.stream.length = buffer.bufferSize.toNat)
    (enough : buffer.offset.toNat + size.toNat ≤
      buffer.bufferSize.toNat + defaultBufferSize * turns) :
    ∃ changed, buffer.changeBufferSize heap size (turns + 1) = some changed ∧
      changed.offset = buffer.offset ∧
      changed.stream.length = changed.bufferSize.toNat ∧
      buffer.stream <+: changed.stream ∧
      buffer.offset.toNat + size.toNat ≤ changed.bufferSize.toNat := by
  induction turns generalizing buffer with
  | zero =>
      have fits : ¬ buffer.bufferSize < buffer.offset.toUInt64 + size := by
        rw [lacks_iff short]
        omega
      exact ⟨buffer, by rw [changeBufferSize, if_neg fits], rfl, allocated, List.prefix_refl _,
        enough⟩
  | succ turns ih =>
      by_cases lacks : buffer.bufferSize < buffer.offset.toUInt64 + size
      · have less := (lacks_iff short).mp lacks
        have larger := toNat_bufferSize_grow heap buffer (by omega)
        have kept : buffer.stream <+: (buffer.grow heap).stream :=
          heap.keeps _ _ (by rw [allocated]; exact Nat.le_trans (Nat.le_add_right ..) larger.ge)
        obtain ⟨changed, ends, offset, inside, extended, fits⟩ :=
          ih (buffer.grow heap) short (length_grow heap buffer) (by
            rw [larger]
            rw [Nat.mul_succ] at enough
            simp only [grow]
            omega)
        refine ⟨changed, ?_, offset, inside, kept.trans extended, fits⟩
        rw [changeBufferSize, if_pos lacks]
        exact ends
      · refine ⟨buffer, by rw [changeBufferSize, if_neg lacks], rfl, allocated,
          List.prefix_refl _, ?_⟩
        rw [lacks_iff short] at lacks
        omega

/-! ### One call -/

/-- The turns that are enough for every buffer of less than 4 GiB. -/
def enoughTurns : Nat := 2 ^ 26

theorem createHeapBuffer_filled (heap : Heap) (capacity : UInt64) :
    (createHeapBuffer heap capacity).Filled [] where
  offset := rfl
  inside := by
    rw [UInt64.le_iff_toNat_le]
    exact Nat.zero_le _
  allocated := heap.length_malloc capacity
  contents := rfl

theorem toNat_size (information : List UInt8) (short : information.length < 2 ^ 32) :
    (UInt64.ofNat information.length).toNat = information.length :=
  UInt64.toNat_ofNat_of_lt' (Nat.lt_trans short (by decide))

theorem offset_added (offset : UInt32) (length : Nat) :
    (offset.toUInt64 + .ofNat length).toUInt32 = advance offset length := by
  apply UInt32.toNat_inj.mp
  rw [toNat_advance, UInt64.toNat_toUInt32, UInt64.toNat_add, UInt32.toNat_toUInt64,
    UInt64.toNat_ofNat']
  omega

/-- What the buffer holds is also at the start of a stream that keeps its bytes. -/
theorem Filled.take_of_prefix (filled : buffer.Filled bytes) {stream : List UInt8}
    (extended : buffer.stream <+: stream) : stream.take bytes.length = bytes := by
  obtain ⟨more, rfl⟩ := extended
  have held := filled.contents
  rw [filled.offset] at held
  have within : bytes.length ≤ buffer.stream.length := by
    rw [← held, List.length_take]
    omega
  rw [List.take_append_of_le_length within, held]

/-- A call of `add_to_buffer` ends, its copy lies in the stream, and the buffer holds what it held and
    what was added. -/
theorem Filled.addToBuffer (filled : buffer.Filled bytes) (heap : Heap) (information : List UInt8)
    (short : (bytes ++ information).length < 2 ^ 32) (enough : enoughTurns < turns) :
    ∃ added, buffer.addToBuffer heap turns information = some added ∧
      added.Filled (bytes ++ information) := by
  rw [List.length_append] at short
  have size := toNat_size information (by omega)
  obtain ⟨later, rfl⟩ : ∃ later, turns = later + 1 := ⟨turns - 1, by omega⟩
  obtain ⟨changed, ends, offset, inside, extended, fits⟩ :=
    changeBufferSize_spec heap (.ofNat information.length) later buffer
      (by rw [filled.offset, size]; omega) filled.allocated
      (by rw [filled.offset, size]; simp only [enoughTurns, defaultBufferSize] at *; omega)
  rw [filled.offset, size] at fits
  have place : changed.offset.toNat = bytes.length := by
    rw [offset, filled.offset]
  have lies : changed.offset.toNat + information.length ≤ changed.stream.length := by omega
  have held := filled.take_of_prefix extended
  have moved : (advance changed.offset information.length).toNat =
      bytes.length + information.length := by
    rw [toNat_advance]
    omega
  refine ⟨{ changed with
      offset := advance changed.offset information.length
      stream := overwrite changed.stream changed.offset.toNat information }, ?_, ?_⟩
  · rw [HeapBuffer.addToBuffer]
    simp only [ends, memcpy, if_pos lies, offset_added, Option.bind_eq_bind, Option.bind_some,
      Option.pure_def]
  · constructor
    · rw [List.length_append]
      exact moved
    · rw [UInt64.le_iff_toNat_le, UInt32.toNat_toUInt64, moved]
      exact fits
    · rw [length_overwrite lies]
      exact inside
    · rw [moved, overwrite, place, held, List.take_append_of_le_length (by simp)]
      exact List.take_of_length_le (by simp)

/-! ### Calls one after the other -/

/-- `add_to_buffer` for one piece after the other. -/
def addAll (heap : Heap) (turns : Nat) (buffer : HeapBuffer) (pieces : List (List UInt8)) :
    Option HeapBuffer :=
  pieces.foldlM (addToBuffer heap turns) buffer

theorem Filled.addAll {pieces : List (List UInt8)} (filled : buffer.Filled bytes)
    (short : (bytes ++ pieces.flatten).length < 2 ^ 32) (enough : enoughTurns < turns) :
    ∃ added, buffer.addAll heap turns pieces = some added ∧
      added.Filled (bytes ++ pieces.flatten) := by
  induction pieces generalizing buffer bytes with
  | nil =>
      rw [List.flatten_nil, List.append_nil]
      exact ⟨buffer, rfl, filled⟩
  | cons piece pieces ih =>
      rw [List.flatten_cons, ← List.append_assoc] at short ⊢
      obtain ⟨next, first, here⟩ := filled.addToBuffer heap piece
        (by rw [List.length_append] at short; omega) enough
      obtain ⟨added, rest, there⟩ := ih here short
      refine ⟨added, ?_, there⟩
      rw [HeapBuffer.addAll, List.foldlM_cons, first]
      exact rest

/-! ### The buffer of the messages -/

/-- The loop of a buffer without a capacity of its own does the same turns. -/
theorem changeLoop_zeros (buffer : HeapBuffer) (more : Nat) {changed : HeapBuffer}
    (short : buffer.offset.toNat + size.toNat < 2 ^ 32)
    (allocated : buffer.stream.length = buffer.bufferSize.toNat)
    (enough : buffer.offset.toNat + size.toNat ≤ buffer.stream.length + more)
    (ends : buffer.changeBufferSize Heap.zeros size turns = some changed) :
    Buffer.changeBufferSize.loop size.toNat more buffer.toBuffer = changed.toBuffer := by
  induction turns generalizing buffer more with
  | zero => cases ends
  | succ turns ih =>
      rw [changeBufferSize] at ends
      by_cases lacks : buffer.bufferSize < buffer.offset.toUInt64 + size
      · have less := (lacks_iff short).mp lacks
        have larger := toNat_bufferSize_grow Heap.zeros buffer (by omega)
        obtain ⟨others, rfl⟩ : ∃ others, more = others + 1 := ⟨more - 1, by omega⟩
        have grown : (buffer.grow Heap.zeros).stream =
            buffer.stream ++ List.replicate defaultBufferSize 0 := by
          change buffer.stream.take (buffer.grow Heap.zeros).bufferSize.toNat ++ List.replicate
            ((buffer.grow Heap.zeros).bufferSize.toNat - buffer.stream.length) 0 = _
          rw [larger, ← allocated, Nat.add_sub_cancel_left,
            List.take_of_length_le (Nat.le_add_right ..)]
        have length := congrArg List.length grown
        rw [List.length_append, List.length_replicate] at length
        rw [if_pos lacks] at ends
        have rest := ih (buffer.grow Heap.zeros) others short (length_grow Heap.zeros buffer)
          (by rw [length]; simp only [grow, defaultBufferSize]; omega) ends
        rw [Buffer.changeBufferSize.loop, if_pos (by simp only [toBuffer]; omega), ← rest, toBuffer,
          toBuffer, grown]
        rfl
      · rw [if_neg lacks] at ends
        obtain rfl := Option.some.inj ends
        rw [lacks_iff short] at lacks
        cases more with
        | zero => rfl
        | succ more =>
            rw [Buffer.changeBufferSize.loop, if_neg (by simp only [toBuffer]; omega)]

/-- With new bytes that are zeros, `add_to_buffer` on the heap is `add_to_buffer`. -/
theorem addToBuffer_zeros {added : HeapBuffer} (filled : buffer.Filled bytes)
    (short : (bytes ++ information).length < 2 ^ 32)
    (ends : buffer.addToBuffer Heap.zeros turns information = some added) :
    added.toBuffer = buffer.toBuffer.addToBuffer information := by
  rw [List.length_append] at short
  have size := toNat_size information (by omega)
  obtain ⟨changed, loop, ends⟩ := Option.bind_eq_some_iff.mp ends
  obtain ⟨stream, copied, ends⟩ := Option.bind_eq_some_iff.mp ends
  obtain rfl := Option.some.inj ends
  have grown := changeLoop_zeros buffer (buffer.offset.toNat + information.length)
    (by rw [filled.offset, size]; omega) filled.allocated (by rw [size]; omega) loop
  rw [size] at grown
  unfold memcpy at copied
  split at copied
  · obtain rfl := Option.some.inj copied
    rw [Buffer.addToBuffer, Buffer.changeBufferSize]
    change _ = Buffer.mk (advance (Buffer.changeBufferSize.loop information.length
      (buffer.offset.toNat + information.length) buffer.toBuffer).offset information.length) _
    rw [toBuffer, offset_added]
    simp only [toBuffer] at grown ⊢
    rw [grown]
  · cases copied

end HeapBuffer

/-- Whatever capacity a buffer is created with and whatever is added, as long as it is less than 4 GiB:
    every call ends with each copy in the stream, and after it the stream starts with all that was
    added. -/
theorem buffer_growth (heap : Heap) (capacity : UInt64) (data : List (List UInt8))
    (short : data.flatten.length < 2 ^ 32) :
    ∃ enough, ∀ turns ≥ enough, ∀ calls ≤ data.length,
      ∃ buffer, (createHeapBuffer heap capacity).addAll heap turns (data.take calls) = some buffer ∧
        buffer.Filled (data.take calls).flatten := by
  refine ⟨HeapBuffer.enoughTurns + 1, fun turns enough calls _ => ?_⟩
  have parts : (data.take calls).flatten ++ (data.drop calls).flatten = data.flatten := by
    rw [← List.flatten_append, List.take_append_drop]
  have whole := congrArg List.length parts
  rw [List.length_append] at whole
  exact (HeapBuffer.createHeapBuffer_filled heap capacity).addAll
    (by rw [List.nil_append]; omega) enough

/-- Three bytes in a buffer that was created empty. -/
theorem buffer_growth_empty :
    ∃ enough, ∀ turns ≥ enough, ∀ calls ≤ 2,
      ∃ buffer, (createHeapBuffer Heap.zeros 0).addAll Heap.zeros turns ([[1, 2], [3]].take calls) =
          some buffer ∧
        buffer.Filled ([[1, 2], [3]].take calls).flatten :=
  buffer_growth Heap.zeros 0 [[1, 2], [3]] (by decide)

end OsSimulator
