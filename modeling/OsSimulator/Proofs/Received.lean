/-
Module: OsSimulator.Proofs.Received
Purpose: What can be received at all.  The bytes of a message do not depend on what was in the buffer
  before, and a PCB that is taken from a payload, whoever wrote it, is one that can be sent again.
Main exports: Consumes, Consumes.bind, consumes_pcb, Pcb.Sendable, receivePcb_sendable,
  receivePcb_of_sendable
-/
import OsSimulator.Cpu.HandleConnection
import OsSimulator.Proofs.RoundTrip
import Mathlib.Data.List.TakeWhile

namespace OsSimulator

open Bytes

/-! ### The bytes of a message -/

namespace Buffer

variable {buffer other : Buffer}

/-- What a buffer holds after a piece was added is determined by what it held before. -/
theorem addToBuffer_contents (information : List UInt8)
    (inside : buffer.offset.toNat ≤ buffer.stream.length) :
    (buffer.addToBuffer information).contents =
        (buffer.contents ++ information).take
          (advance buffer.offset information.length).toNat ∧
      (buffer.addToBuffer information).offset.toNat ≤
        (buffer.addToBuffer information).stream.length := by
  obtain ⟨more, grown, enough⟩ := changeBufferSize_spec information.length buffer
  have below : (advance buffer.offset information.length).toNat ≤
      buffer.offset.toNat + information.length := by
    rw [toNat_advance]
    exact Nat.mod_le _ _
  have start : (buffer.stream ++ more).take buffer.offset.toNat = buffer.contents := by
    rw [List.take_append_of_le_length inside, contents]
  constructor
  · rw [contents, addToBuffer_offset, addToBuffer, grown]
    change (overwrite (buffer.stream ++ more) buffer.offset.toNat information).take _ = _
    rw [overwrite, start, List.take_append_of_le_length]
    rw [List.length_append, contents, List.length_take]
    omega
  · rw [addToBuffer_offset, addToBuffer, grown]
    change _ ≤ (overwrite (buffer.stream ++ more) buffer.offset.toNat information).length
    rw [length_overwrite enough]
    omega

theorem addPieces_contents_congr (pieces : List (List UInt8)) (offsets : buffer.offset = other.offset)
    (same : buffer.contents = other.contents)
    (inside : buffer.offset.toNat ≤ buffer.stream.length)
    (otherInside : other.offset.toNat ≤ other.stream.length) :
    (buffer.addPieces pieces).contents = (other.addPieces pieces).contents := by
  induction pieces generalizing buffer other with
  | nil => exact same
  | cons piece pieces ih =>
      obtain ⟨held, within⟩ := addToBuffer_contents piece inside
      obtain ⟨otherHeld, otherWithin⟩ := addToBuffer_contents piece otherInside
      apply ih ?_ ?_ within otherWithin
      · rw [addToBuffer_offset, addToBuffer_offset, offsets]
      · rw [held, otherHeld, same, offsets]

end Buffer

/-- What a new buffer holds after pieces were added does not depend on what `malloc` returned. -/
theorem createBuffer_contents (stale other : List UInt8) (pieces : List (List UInt8)) :
    ((createBuffer stale).addPieces pieces).contents =
      ((createBuffer other).addPieces pieces).contents := by
  have offsets : (createBuffer stale).offset = (createBuffer other).offset := rfl
  have empty : (createBuffer stale).contents = (createBuffer other).contents := by
    simp [createBuffer, Buffer.contents]
  have inside (bytes : List UInt8) :
      (createBuffer bytes).offset.toNat ≤ (createBuffer bytes).stream.length := by
    simp [createBuffer]
  exact Buffer.addPieces_contents_congr pieces offsets empty (inside stale) (inside other)

theorem sendPcb_eq (stale : List UInt8) (header : OperationCode) (pcb : Pcb) :
    sendPcb stale header pcb =
      { header := header.value, payload := (createBuffer stale).addPieces (pcbPieces pcb) } := by
  rw [← addPcbToBuffer_eq]
  rfl

/-- The bytes of a message about a process do not depend on its header, nor on what `malloc` returned. -/
theorem sendPcb_contents (stale other : List UInt8) (header otherHeader : OperationCode) (pcb : Pcb) :
    (sendPcb stale header pcb).payload.contents =
      (sendPcb other otherHeader pcb).payload.contents := by
  rw [sendPcb_eq, sendPcb_eq]
  dsimp only
  exact createBuffer_contents stale other (pcbPieces pcb)

section OverWire

variable (pcb : Pcb)

@[simp] theorem Pcb.overWire_path : pcb.overWire.path = pcb.path := rfl

@[simp] theorem Pcb.overWire_programCounter : pcb.overWire.programCounter = pcb.programCounter := rfl

end OverWire

/-! ### Taking from any bytes -/

/-- Whatever the stream holds, what the taker takes from it is as the relation says about the value and
    the number of bytes, and the offset stays within the stream. -/
def Consumes {α : Type} (taker : Taker α) (relation : α → Nat → Prop) : Prop :=
  ∀ (buffer rest : Buffer) (value : α), buffer.stream.length < 2 ^ 32 →
    buffer.offset.toNat ≤ buffer.stream.length → taker buffer = some (value, rest) →
    rest.stream = buffer.stream ∧ rest.offset.toNat ≤ rest.stream.length ∧
      ∃ size, rest.offset.toNat = buffer.offset.toNat + size ∧ relation value size

section Consumers

variable {α β : Type} {taker : Taker α} {relation : α → Nat → Prop}

theorem consumes_pure {value : α} (holds : relation value 0) :
    Consumes (pure value : Taker α) relation := by
  rintro buffer rest taken _ within ⟨⟩
  exact ⟨rfl, within, 0, rfl, holds⟩

/-- One taker after the other. -/
theorem Consumes.bind {next : α → Taker β} {result : β → Nat → Prop}
    (consumes : Consumes taker relation)
    (then_ : ∀ value size, relation value size →
      Consumes (next value) fun taken more => result taken (size + more)) :
    Consumes (taker >>= next) result := by
  intro buffer rest taken short within both
  obtain ⟨⟨value, middle⟩, first, second⟩ := Option.bind_eq_some_iff.mp both
  obtain ⟨sameStream, middleWithin, size, moved, holds⟩ :=
    consumes buffer middle value short within first
  obtain ⟨stillSame, restWithin, more, movedOn, resultHolds⟩ :=
    then_ value size holds middle rest taken (by rw [sameStream]; exact short) middleWithin second
  exact ⟨stillSame.trans sameStream, restWithin, size + more, by omega, resultHolds⟩

theorem Consumes.map {result : β → Nat → Prop} (function : α → β)
    (consumes : Consumes taker relation)
    (implies : ∀ value size, relation value size → result (function value) size) :
    Consumes (taker >>= fun taken => pure (function taken)) result :=
  consumes.bind fun value size holds => consumes_pure (implies value size holds)

theorem consumes_buffer (size : Nat) :
    Consumes (bufferTake size) fun bytes taken => taken = size ∧ bytes.length = size := by
  intro buffer rest bytes short _ taken
  rw [bufferTake] at taken
  split at taken
  · next inside =>
      obtain ⟨rfl, rfl⟩ := Prod.mk.inj (Option.some.inj taken)
      have moved : (advance buffer.offset size).toNat = buffer.offset.toNat + size := by
        rw [toNat_advance]
        omega
      refine ⟨rfl, by rw [moved]; exact inside, size, moved, rfl, ?_⟩
      rw [List.length_take, List.length_drop]
      omega
  · cases taken

theorem consumes_uInt32 : Consumes takeUInt32FromBuffer fun _ size => size = 4 :=
  (consumes_buffer 4).map toWord fun _ _ same => same.1

theorem consumes_int32 : Consumes takeInt32FromBuffer fun _ size => size = 4 :=
  (consumes_buffer 4).map (fun bytes => (toWord bytes).toInt32) fun _ _ same => same.1

/-- The string that is taken is a C string, and is encoded in no more bytes than were taken. -/
theorem consumes_string : Consumes takeStringFromBuffer fun string size =>
    CString string ∧ (stringPieces string).flatten.length ≤ size := by
  apply consumes_uInt32.bind
  intro length size header
  apply (consumes_buffer length.toNat).bind
  intro bytes more taken
  split
  · next terminated =>
      apply consumes_pure
      refine ⟨ofCBytes_cString bytes, ?_⟩
      have before : (bytes.takeWhile (· ≠ 0)).length < bytes.length := by
        apply Nat.lt_of_le_of_ne (List.takeWhile_prefix _).length_le
        intro all
        have whole := List.takeWhile_eq_self_iff.mp ((List.takeWhile_prefix _).eq_of_length all)
        simpa using whole 0 terminated
      rw [length_flatten_stringPieces, cBytes, ofCBytes, String.toList_ofList, List.length_map,
        List.length_map]
      omega
  · intro buffer rest value _ _ nothing
    cases nothing

/-- A list is taken with as many bytes as its elements are encoded in. -/
theorem consumes_list {pieces : α → List (List UInt8)} {valid : α → Prop}
    (each : Consumes taker fun element size =>
      valid element ∧ (pieces element).flatten.length ≤ size) :
    Consumes (takeListFromBuffer taker) fun list size =>
      (∀ element ∈ list, valid element) ∧ (listPieces pieces list).flatten.length ≤ size := by
  have elements (count : Nat) : Consumes (takeElements taker count) fun list size =>
      (∀ element ∈ list, valid element) ∧ (list.flatMap pieces).flatten.length ≤ size := by
    induction count with
    | zero =>
        apply consumes_pure
        exact ⟨fun _ member => (List.not_mem_nil member).elim, Nat.le_refl 0⟩
    | succ count ih =>
        apply each.bind
        intro element size first
        apply ih.map (element :: ·)
        intro list more rest
        refine ⟨List.forall_mem_cons.mpr ⟨first.1, rest.1⟩, ?_⟩
        rw [List.flatMap_cons, List.flatten_append, List.length_append]
        exact Nat.add_le_add first.2 rest.2
  apply consumes_uInt32.bind
  rintro length size rfl
  intro buffer rest list short within taken
  obtain ⟨same, restWithin, more, moved, valid, bound⟩ :=
    elements length.toNat buffer rest list short within taken
  refine ⟨same, restWithin, more, moved, valid, ?_⟩
  rw [listPieces, List.flatten_cons, List.length_append, length_ofWord]
  omega

theorem consumes_lift (option : Option α) : Consumes (StateT.lift option) fun _ size => size = 0 := by
  intro buffer rest value _ within taken
  obtain ⟨found, _, same⟩ := Option.bind_eq_some_iff.mp taken
  cases same
  exact ⟨rfl, within, 0, rfl, rfl⟩

theorem consumes_cell : Consumes takeCellFromBuffer fun cell size =>
    lowHalf cell = cell ∧ (cellPieces cell).flatten.length ≤ size := by
  apply consumes_uInt32.map
  rintro value size rfl
  refine ⟨?_, by simp [cellPieces]⟩
  simp [lowHalf]

/-- The PCB that is taken has C strings and registers of 32 bits, and is encoded in no more bytes than
    were taken. -/
theorem consumes_pcb : Consumes takePcbFromBuffer fun pcb size =>
    pcb.CStrings ∧ (∀ cell ∈ pcb.cpuRegister, lowHalf cell = cell) ∧ pcb.bytes.length ≤ size := by
  apply consumes_uInt32.bind
  rintro pid _ rfl
  apply consumes_int32.bind
  rintro programCounter _ rfl
  apply consumes_int32.bind
  rintro quantum _ rfl
  apply consumes_uInt32.bind
  rintro size _ rfl
  apply (consumes_list consumes_cell).bind
  rintro cpuRegister registersSize ⟨narrow, registersLength⟩
  apply (consumes_list consumes_string).bind
  rintro resources resourcesSize ⟨resourceStrings, resourcesLength⟩
  apply consumes_int32.bind
  rintro tablePages _ rfl
  apply consumes_string.bind
  rintro path pathSize ⟨pathString, pathLength⟩
  apply consumes_int32.bind
  rintro stateValue _ rfl
  apply (consumes_lift _).bind
  rintro state _ rfl
  apply consumes_int32.map
  rintro clientSocket _ rfl
  refine ⟨⟨resourceStrings, pathString⟩, narrow, ?_⟩
  simp only [Pcb.bytes, pcbPieces, List.flatten_append, List.length_append, List.flatten_cons,
    List.flatten_nil, List.length_nil, length_ofWord]
  omega

end Consumers

/-! ### Sending again -/

/-- The strings are C strings, and the encoding fits into a message. -/
structure Pcb.Sendable (pcb : Pcb) : Prop where
  cStrings : pcb.CStrings
  short : pcb.bytes.length < 2 ^ 32

instance (pcb : Pcb) : Decidable pcb.Sendable :=
  decidable_of_iff (pcb.CStrings ∧ pcb.bytes.length < 2 ^ 32)
    ⟨fun sendable => ⟨sendable.1, sendable.2⟩, fun sendable => ⟨sendable.cStrings, sendable.short⟩⟩

theorem length_contents_le (buffer : Buffer) : buffer.contents.length < 2 ^ 32 := by
  have bound := buffer.offset.toNat_lt
  rw [Buffer.contents, List.length_take]
  omega

/-- Whoever sent it, a PCB that is received can be sent again, and its registers are 32-bit values. -/
theorem receivePcb_sendable {package : Package} {pcb : Pcb} (received : receivePcb package = some pcb) :
    pcb.Sendable ∧ ∀ cell ∈ pcb.cpuRegister, lowHalf cell = cell := by
  obtain ⟨⟨taken, rest⟩, took, rfl⟩ := Option.map_eq_some_iff.mp received
  have payload := length_contents_le package.payload
  obtain ⟨same, within, size, moved, cStrings, narrow, length⟩ :=
    consumes_pcb (createBuffer package.payload.contents) rest taken payload (Nat.zero_le _) took
  have bound := rest.offset.toNat_lt
  exact ⟨⟨cStrings, by dsimp only; omega⟩, narrow⟩

/-- A PCB that can be sent arrives with the low halves of its registers. -/
theorem receivePcb_of_sendable {pcb : Pcb} (sendable : pcb.Sendable) (stale : List UInt8)
    (header : OperationCode) : receivePcb (sendPcb stale header pcb) = some pcb.overWire := by
  have taken := (takes_pcb sendable.cStrings sendable.short).from_contents (createBuffer stale)
    (by simpa [createBuffer, Pcb.bytes] using sendable.short) []
  rw [List.append_nil] at taken
  rw [receivePcb, sendPcb_eq]
  dsimp only
  exact congrArg (Option.map Prod.fst) taken

theorem takePcbFromBuffer_of_few {buffer : Buffer}
    (few : buffer.stream.length < buffer.offset.toNat + 4) : takePcbFromBuffer buffer = none := by
  have first : takeUInt32FromBuffer buffer = none := by
    have nothing : bufferTake 4 buffer = none := by
      rw [bufferTake, if_neg (Nat.not_le_of_lt few)]
    change (bufferTake 4 buffer).bind _ = none
    rw [nothing, Option.bind_none]
  change (takeUInt32FromBuffer buffer).bind _ = none
  rw [first, Option.bind_none]

/-- A PCB that is a little too long for a message cannot be taken from it. -/
theorem takePcbFromBuffer_of_long {pcb : Pcb} (long : 2 ^ 32 ≤ pcb.bytes.length)
    (little : pcb.bytes.length < 2 ^ 32 + 4) (stale : List UInt8) (header : OperationCode) :
    takePcbFromBuffer (createBuffer (sendPcb stale header pcb).payload.contents) = none := by
  have offset : (sendPcb stale header pcb).payload.offset.toNat =
      (0 + pcb.bytes.length) % 2 ^ 32 := by
    rw [sendPcb_eq]
    dsimp only
    rw [Buffer.addPieces_offset, toNat_advance]
    rfl
  apply takePcbFromBuffer_of_few
  have few : (sendPcb stale header pcb).payload.contents.length < 4 := by
    rw [Buffer.contents, List.length_take]
    omega
  dsimp only [createBuffer]
  omega

end OsSimulator
