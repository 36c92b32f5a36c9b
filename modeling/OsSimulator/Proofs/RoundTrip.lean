/-
Module: OsSimulator.Proofs.RoundTrip
Purpose: What was written to a buffer is what is taken from it.  Every function that adds to a buffer
  writes a list of pieces one after the other, every function that takes from a buffer takes such a
  list, and the two lists of a PCB are the same.
Main exports: Pcb.bytes, Pcb.overWire, Takes, Takes.bind, addPcbToBuffer_eq, takes_pcb,
  pcb_messages_round_trip
-/
import OsSimulator.Shared.Messages
import Mathlib.Data.List.TakeWhile

namespace OsSimulator

open Bytes

/-! ### Writing pieces -/

namespace Buffer

variable {buffer : Buffer} {information : List UInt8} {pieces : List (List UInt8)}

/-- The loop makes the buffer large enough, and keeps what it holds. -/
theorem changeLoop_spec {size turns : Nat} (buffer : Buffer)
    (enough : buffer.offset.toNat + size ≤ buffer.stream.length + turns) :
    ∃ more, changeBufferSize.loop size turns buffer = { buffer with stream := buffer.stream ++ more } ∧
      buffer.offset.toNat + size ≤ (buffer.stream ++ more).length := by
  induction turns generalizing buffer with
  | zero =>
      refine ⟨[], ?_, ?_⟩
      · rw [List.append_nil]
        rfl
      · rw [List.append_nil]
        exact enough
  | succ turns ih =>
      by_cases small : buffer.stream.length < buffer.offset.toNat + size
      · obtain ⟨more, grown, large⟩ :=
          ih { buffer with stream := buffer.stream ++ List.replicate defaultBufferSize 0 }
            (by simp only [List.length_append, List.length_replicate, defaultBufferSize]; omega)
        refine ⟨List.replicate defaultBufferSize 0 ++ more, ?_, ?_⟩
        · rw [changeBufferSize.loop, if_pos small, grown, List.append_assoc]
        · rw [← List.append_assoc]
          exact large
      · refine ⟨[], ?_, ?_⟩
        · rw [changeBufferSize.loop, if_neg small, List.append_nil]
        · rw [List.append_nil]
          exact Nat.le_of_not_lt small

theorem changeBufferSize_spec (size : Nat) (buffer : Buffer) :
    ∃ more, buffer.changeBufferSize size = { buffer with stream := buffer.stream ++ more } ∧
      buffer.offset.toNat + size ≤ (buffer.stream ++ more).length :=
  changeLoop_spec buffer (Nat.le_add_left _ _)

theorem addToBuffer_offset :
    (buffer.addToBuffer information).offset = advance buffer.offset information.length := by
  obtain ⟨more, grown, _⟩ := changeBufferSize_spec information.length buffer
  simp [addToBuffer, grown]

theorem addToBuffer_located :
    Located (buffer.addToBuffer information).stream buffer.offset.toNat information := by
  obtain ⟨more, grown, enough⟩ := changeBufferSize_spec information.length buffer
  rw [addToBuffer, grown]
  exact located_overwrite enough

/-- Adding leaves what is stored apart from it. -/
theorem located_addToBuffer {place : Nat} {piece : List UInt8}
    (located : Located buffer.stream place piece)
    (apart : place + piece.length ≤ buffer.offset.toNat ∨
      buffer.offset.toNat + information.length ≤ place) :
    Located (buffer.addToBuffer information).stream place piece := by
  obtain ⟨more, grown, enough⟩ := changeBufferSize_spec information.length buffer
  rw [addToBuffer, grown]
  exact (located.append more).overwrite enough apart

/-- Add the pieces one after the other. -/
def addPieces (buffer : Buffer) (pieces : List (List UInt8)) : Buffer :=
  pieces.foldl addToBuffer buffer

theorem addPieces_append (first second : List (List UInt8)) :
    buffer.addPieces (first ++ second) = (buffer.addPieces first).addPieces second :=
  List.foldl_append

theorem addPieces_offset :
    (buffer.addPieces pieces).offset = advance buffer.offset pieces.flatten.length := by
  induction pieces generalizing buffer with
  | nil => simp [addPieces, advance]
  | cons piece pieces ih =>
      change ((buffer.addToBuffer piece).addPieces pieces).offset = _
      rw [ih, addToBuffer_offset, advance_advance, List.flatten_cons, List.length_append]

/-- Adding pieces leaves what is stored before them, and what is stored after them if the offset does
    not reach it, also by wrapping around. -/
theorem located_addPieces {place : Nat} {piece : List UInt8} (small : place < 2 ^ 32)
    (located : Located buffer.stream place piece)
    (apart : place + piece.length ≤ buffer.offset.toNat ∧
        buffer.offset.toNat + pieces.flatten.length ≤ 2 ^ 32 + place ∨
      buffer.offset.toNat + pieces.flatten.length ≤ place) :
    Located (buffer.addPieces pieces).stream place piece := by
  induction pieces generalizing buffer with
  | nil => exact located
  | cons next pieces ih =>
      rw [List.flatten_cons, List.length_append] at apart
      have bound := buffer.offset.toNat_lt
      apply ih
      · apply located_addToBuffer located
        omega
      · rw [addToBuffer_offset, toNat_advance]
        omega

/-- The pieces that were added are held, if they do not fill the whole range of the offset. -/
theorem holds_addPieces (short : pieces.flatten.length < 2 ^ 32) :
    Holds (buffer.addPieces pieces).stream buffer.offset pieces := by
  induction pieces generalizing buffer with
  | nil => trivial
  | cons piece pieces ih =>
      rw [List.flatten_cons, List.length_append] at short
      have bound := buffer.offset.toNat_lt
      constructor
      · apply located_addPieces bound addToBuffer_located
        rw [addToBuffer_offset, toNat_advance]
        omega
      · have rest : Holds ((buffer.addToBuffer piece).addPieces pieces).stream
            (buffer.addToBuffer piece).offset pieces := ih (by omega)
        rw [addToBuffer_offset] at rest
        exact rest

end Buffer

/-! ### The pieces of a PCB -/

/-- The pieces of a string. -/
def stringPieces (value : String) : List (List UInt8) :=
  [ofWord (.ofNat ((cBytes value).length + 1)), cBytes value ++ [0]]

/-- The pieces of a list. -/
def listPieces {α : Type} (pieces : α → List (List UInt8)) (list : List α) : List (List UInt8) :=
  ofWord (.ofNat list.length) :: list.flatMap pieces

/-- The piece of a cell of `cpu_register`. -/
def cellPieces (cell : BitVec 64) : List (List UInt8) := [ofWord (.ofBitVec (cell.truncate 32))]

/-- The pieces of a PCB. -/
def pcbPieces (pcb : Pcb) : List (List UInt8) :=
  [ofWord pcb.pid] ++ ([ofWord pcb.programCounter.toUInt32] ++ ([ofWord pcb.quantum.toUInt32] ++
    ([ofWord pcb.size.toUInt32] ++ (listPieces cellPieces pcb.cpuRegister ++
      (listPieces stringPieces pcb.resources ++ ([ofWord pcb.tablePages.toUInt32] ++
        (stringPieces pcb.path ++ ([ofWord pcb.state.value.toUInt32] ++
          [ofWord pcb.clientSocket.toUInt32]))))))))

/-- The encoding of a PCB. -/
def Pcb.bytes (pcb : Pcb) : List UInt8 := (pcbPieces pcb).flatten

theorem addListToBuffer_eq {α : Type} (addElement : Buffer → α → Buffer)
    {pieces : α → List (List UInt8)}
    (added : ∀ buffer element, addElement buffer element = buffer.addPieces (pieces element))
    (buffer : Buffer) (list : List α) :
    buffer.addListToBuffer addElement list = buffer.addPieces (listPieces pieces list) := by
  have elements : ∀ buffer : Buffer,
      list.foldl addElement buffer = buffer.addPieces (list.flatMap pieces) := by
    intro buffer
    induction list generalizing buffer with
    | nil => rfl
    | cons element list ih =>
        rw [List.foldl_cons, added, ih, List.flatMap_cons, Buffer.addPieces_append]
  exact elements _

/-- `add_pcb_to_buffer` adds the pieces of the PCB. -/
theorem addPcbToBuffer_eq (buffer : Buffer) (pcb : Pcb) :
    addPcbToBuffer buffer pcb = buffer.addPieces (pcbPieces pcb) := by
  simp only [pcbPieces, Buffer.addPieces_append]
  rw [← addListToBuffer_eq addCellToBuffer fun _ _ => rfl,
    ← addListToBuffer_eq Buffer.addStringToBuffer fun _ _ => rfl]
  rfl

/-! ### Taking pieces -/

/-- From a stream that holds the pieces, the taker takes the value, and moves the offset past them. -/
def Takes {α : Type} (taker : Taker α) (pieces : List (List UInt8)) (value : α) : Prop :=
  ∀ buffer : Buffer, Holds buffer.stream buffer.offset pieces →
    taker buffer =
      some (value, { buffer with offset := advance buffer.offset pieces.flatten.length })

section Takers

variable {α β : Type} {taker : Taker α} {pieces more : List (List UInt8)} {value : α}

theorem Takes.bind {next : α → Taker β} {result : β} (first : Takes taker pieces value)
    (second : Takes (next value) more result) : Takes (taker >>= next) (pieces ++ more) result := by
  intro buffer holds
  obtain ⟨holdsFirst, holdsSecond⟩ := holds_append.mp holds
  have taken := first buffer holdsFirst
  have rest := second { buffer with offset := advance buffer.offset pieces.flatten.length }
    holdsSecond
  calc (taker >>= next) buffer
      = (taker buffer).bind fun pair => next pair.1 pair.2 := rfl
    _ = some (result, { buffer with
          offset := advance buffer.offset (pieces ++ more).flatten.length }) := by
        rw [taken, Option.bind_some, rest, advance_advance, List.flatten_append,
          List.length_append]

theorem takes_pure (value : α) : Takes (pure value) [] value := by
  intro buffer _
  simp [advance]
  rfl

/-- A taker may convert what it took. -/
theorem Takes.map (function : α → β) (takes : Takes taker pieces value) :
    Takes (taker >>= fun taken => pure (function taken)) pieces (function value) := by
  have both : Takes (taker >>= fun taken => pure (function taken)) (pieces ++ [])
      (function value) := takes.bind (takes_pure (function value))
  rw [List.append_nil] at both
  exact both

/-- A value that is there is handed on. -/
theorem Takes.lift_bind {next : α → Taker β} {option : Option α} {result : β}
    (there : option = some value) (rest : Takes (next value) pieces result) :
    Takes (StateT.lift option >>= next) pieces result := by
  subst there
  exact rest

theorem takes_buffer (piece : List UInt8) : Takes (bufferTake piece.length) [piece] piece := by
  intro buffer holds
  have located := holds.1
  simp [bufferTake, located.1, located.read]

theorem takes_uInt32 (value : UInt32) : Takes takeUInt32FromBuffer [ofWord value] value := by
  have takes := (takes_buffer (ofWord value)).map toWord
  rw [toWord_ofWord] at takes
  exact takes

theorem takes_int32 (value : Int32) :
    Takes takeInt32FromBuffer [ofWord value.toUInt32] value := by
  have takes := (takes_buffer (ofWord value.toUInt32)).map fun bytes => (toWord bytes).toInt32
  rw [toWord_ofWord] at takes
  exact takes

/-- A byte that is not NUL stands for its character. -/
theorem charOfByte_byteOfChar {char : Char} (byte : 0 < char.toNat ∧ char.toNat < 256) :
    byteOfChar char ≠ 0 ∧ charOfByte (byteOfChar char) = char := by
  have same : (byteOfChar char).toNat = char.toNat := by
    rw [byteOfChar, UInt8.toNat_ofNat']
    omega
  constructor
  · intro zero
    rw [zero, UInt8.toNat_zero] at same
    omega
  · rw [charOfByte, same, Char.ofNat_toNat]

theorem toNat_charOfByte (byte : UInt8) : (charOfByte byte).toNat = byte.toNat := by
  have bound := byte.toNat_lt
  rw [charOfByte]
  have valid : byte.toNat.isValidChar := Or.inl (by omega)
  rw [Char.ofNat, dif_pos valid]
  rfl

/-- What comes before the first NUL is a C string. -/
theorem ofCBytes_cString (bytes : List UInt8) : CString (ofCBytes bytes) := by
  intro char member
  rw [ofCBytes, String.toList_ofList] at member
  obtain ⟨byte, inside, rfl⟩ := List.mem_map.mp member
  have notNul : byte ≠ 0 := by simpa using List.mem_takeWhile_imp inside
  rw [toNat_charOfByte]
  refine ⟨Nat.pos_of_ne_zero fun zero => notNul ?_, byte.toNat_lt⟩
  exact UInt8.toNat_inj.mp zero

theorem byteOfChar_charOfByte (byte : UInt8) : byteOfChar (charOfByte byte) = byte := by
  rw [byteOfChar, toNat_charOfByte, UInt8.ofNat_toNat]

theorem cBytes_ofCBytes (bytes : List UInt8) :
    cBytes (ofCBytes bytes) = bytes.takeWhile (· ≠ 0) := by
  rw [cBytes, ofCBytes, String.toList_ofList, List.map_map]
  exact List.map_id'' byteOfChar_charOfByte _

/-- The bytes of a C string stand for the string. -/
theorem ofCBytes_cBytes {string : String} (cString : CString string) :
    ofCBytes (cBytes string ++ [0]) = string := by
  have bytes : ∀ chars : List Char, (∀ char ∈ chars, 0 < char.toNat ∧ char.toNat < 256) →
      ((chars.map byteOfChar ++ [0]).takeWhile (· ≠ 0)).map charOfByte = chars := by
    intro chars
    induction chars with
    | nil => intro _; rfl
    | cons char chars ih =>
        intro all
        obtain ⟨notNul, same⟩ := charOfByte_byteOfChar (all char List.mem_cons_self)
        rw [List.map_cons, List.cons_append, List.takeWhile_cons_of_pos (by simpa using notNul),
          List.map_cons, same, ih fun other member => all other (List.mem_cons_of_mem _ member)]
  rw [ofCBytes, cBytes, bytes _ cString, String.ofList_toList]

theorem length_flatten_stringPieces (string : String) :
    (stringPieces string).flatten.length = (cBytes string).length + 5 := by
  simp [stringPieces]
  omega

theorem takes_string {string : String} (cString : CString string)
    (short : (stringPieces string).flatten.length < 2 ^ 32) :
    Takes takeStringFromBuffer (stringPieces string) string := by
  rw [length_flatten_stringPieces] at short
  have size : (UInt32.ofNat ((cBytes string).length + 1)).toNat =
      (cBytes string ++ [0]).length := by
    rw [UInt32.toNat_ofNat', List.length_append, List.length_singleton]
    omega
  have bytes := takes_buffer (cBytes string ++ [0])
  rw [← size] at bytes
  have terminated : Takes (if 0 ∈ cBytes string ++ [0] then
      return ofCBytes (cBytes string ++ [0]) else StateT.lift none) [] string := by
    rw [if_pos (by simp), ofCBytes_cBytes cString]
    exact takes_pure string
  exact (takes_uInt32 _).bind (bytes.bind terminated)

/-- Elements that can be taken one by one can be taken in a row. -/
theorem takes_elements {elementPieces : α → List (List UInt8)} {taken : α → β} {taker : Taker β}
    {list : List α} (each : ∀ element ∈ list, Takes taker (elementPieces element) (taken element)) :
    Takes (takeElements taker list.length) (list.flatMap elementPieces) (list.map taken) := by
  induction list with
  | nil => exact takes_pure []
  | cons element list ih =>
      have rest := ih fun other member => each other (List.mem_cons_of_mem _ member)
      exact (each element List.mem_cons_self).bind (rest.map (taken element :: ·))

theorem takes_list {elementPieces : α → List (List UInt8)} {taken : α → β} {taker : Taker β}
    {list : List α} (short : list.length < 2 ^ 32)
    (each : ∀ element ∈ list, Takes taker (elementPieces element) (taken element)) :
    Takes (takeListFromBuffer taker) (listPieces elementPieces list) (list.map taken) := by
  have size : (UInt32.ofNat list.length).toNat = list.length := by
    rw [UInt32.toNat_ofNat']
    omega
  have elements := takes_elements each
  rw [← size] at elements
  exact (takes_uInt32 _).bind elements

end Takers

/-- A machine word modulo `2 ^ 32`. -/
def lowHalf (cell : BitVec 64) : BitVec 64 := (cell.truncate 32).zeroExtend 64

/-- The PCB that arrives: its registers are taken modulo `2 ^ 32`. -/
def Pcb.overWire (pcb : Pcb) : Pcb := { pcb with cpuRegister := pcb.cpuRegister.map lowHalf }

/-- The strings of the PCB are free of NUL bytes. -/
def Pcb.CStrings (pcb : Pcb) : Prop := (∀ resource ∈ pcb.resources, CString resource) ∧ CString pcb.path

instance (pcb : Pcb) : Decidable pcb.CStrings :=
  inferInstanceAs (Decidable ((∀ resource ∈ pcb.resources, CString resource) ∧ CString pcb.path))

theorem takes_cell (cell : BitVec 64) :
    Takes takeCellFromBuffer (cellPieces cell) (lowHalf cell) :=
  (takes_uInt32 (.ofBitVec (cell.truncate 32))).map fun value : UInt32 =>
    value.toBitVec.zeroExtend 64

theorem ofValue?_value (state : ProcessState) : ProcessState.ofValue? state.value = some state := by
  cases state <;> rfl

theorem length_le_flatten_flatMap {α : Type} (pieces : α → List (List UInt8)) {element : α}
    {list : List α} (member : element ∈ list) :
    (pieces element).flatten.length ≤ (list.flatMap pieces).flatten.length := by
  induction list with
  | nil => cases member
  | cons head tail ih =>
      rw [List.flatMap_cons, List.flatten_append, List.length_append]
      rcases List.mem_cons.mp member with rfl | inTail
      · omega
      · have rest := ih inTail
        omega

/-- Elements with so many bytes each. -/
theorem mul_length_le_flatten_flatMap {α : Type} {pieces : α → List (List UInt8)} {size : Nat}
    (least : ∀ element, size ≤ (pieces element).flatten.length) (list : List α) :
    size * list.length ≤ (list.flatMap pieces).flatten.length := by
  induction list with
  | nil => exact Nat.zero_le _
  | cons head tail ih =>
      have first := least head
      rw [List.flatMap_cons, List.flatten_append, List.length_append, List.length_cons,
        Nat.mul_succ]
      omega

theorem five_le_length_stringPieces (string : String) :
    5 ≤ (stringPieces string).flatten.length := by
  rw [length_flatten_stringPieces]
  exact Nat.le_add_left ..

/-- `take_pcb_from_buffer` takes the pieces of the PCB. -/
theorem takes_pcb {pcb : Pcb} (cStrings : pcb.CStrings) (short : pcb.bytes.length < 2 ^ 32) :
    Takes takePcbFromBuffer (pcbPieces pcb) pcb.overWire := by
  simp only [Pcb.bytes, pcbPieces, listPieces, List.flatten_append, List.flatten_cons,
    List.length_append, length_ofWord] at short
  have cells : ∀ cell, 4 ≤ (cellPieces cell).flatten.length := fun cell => by simp [cellPieces]
  have registers := mul_length_le_flatten_flatMap cells pcb.cpuRegister
  have resources := mul_length_le_flatten_flatMap five_le_length_stringPieces pcb.resources
  apply (takes_uInt32 pcb.pid).bind
  apply (takes_int32 pcb.programCounter).bind
  apply (takes_int32 pcb.quantum).bind
  apply (takes_uInt32 pcb.size.toUInt32).bind
  apply (takes_list (by omega) fun cell _ => takes_cell cell).bind
  have strings : Takes (takeListFromBuffer takeStringFromBuffer)
      (listPieces stringPieces pcb.resources) (pcb.resources.map id) := by
    apply takes_list (by omega)
    intro resource member
    have part := length_le_flatten_flatMap stringPieces member
    exact takes_string (cStrings.1 resource member) (by omega)
  rw [List.map_id] at strings
  apply strings.bind
  apply (takes_int32 pcb.tablePages).bind
  apply (takes_string cStrings.2 (by omega)).bind
  apply (takes_int32 pcb.state.value).bind
  apply Takes.lift_bind (ofValue?_value pcb.state)
  exact (takes_int32 pcb.clientSocket).map fun clientSocket =>
    { pcb.overWire with size := pcb.size.toUInt32.toInt32, clientSocket := clientSocket }

/-! ### Round trips -/

section RoundTrip

variable {α : Type} {taker : Taker α} {pieces : List (List UInt8)} {value : α}

/-- What was added to a buffer is taken from the same buffer, wherever its offset was. -/
theorem Takes.in_place (takes : Takes taker pieces value) (short : pieces.flatten.length < 2 ^ 32)
    (buffer : Buffer) :
    taker { buffer.addPieces pieces with offset := buffer.offset } =
      some (value, buffer.addPieces pieces) := by
  have ends : advance buffer.offset pieces.flatten.length = (buffer.addPieces pieces).offset :=
    Buffer.addPieces_offset.symm
  have holds : Holds (buffer.addPieces pieces).stream buffer.offset pieces :=
    Buffer.holds_addPieces short
  have taken := takes { buffer.addPieces pieces with offset := buffer.offset } holds
  rw [ends] at taken
  exact taken

/-- What was added to a buffer is taken from the bytes that are sent, whatever follows them. -/
theorem Takes.from_contents (takes : Takes taker pieces value) (buffer : Buffer)
    (short : buffer.offset.toNat + pieces.flatten.length < 2 ^ 32) (following : List UInt8) :
    taker { offset := buffer.offset, stream := (buffer.addPieces pieces).contents ++ following } =
      some (value, { offset := (buffer.addPieces pieces).offset,
                     stream := (buffer.addPieces pieces).contents ++ following }) := by
  have ends : (buffer.addPieces pieces).offset.toNat =
      buffer.offset.toNat + pieces.flatten.length := by
    rw [Buffer.addPieces_offset, toNat_advance]
    omega
  have holds : Holds ((buffer.addPieces pieces).contents ++ following) buffer.offset pieces :=
    (Buffer.holds_addPieces (by omega)).take_append (Nat.le_of_eq ends.symm) short following
  rw [takes _ holds, Buffer.addPieces_offset]

end RoundTrip

/-- The encoding of a string. -/
def stringBytes (value : String) : List UInt8 := (stringPieces value).flatten

theorem sendPcbAndResource_payload (stale : List UInt8) (header : OperationCode) (pcb : Pcb)
    (resource : String) :
    (sendPcbAndResource stale header pcb resource).payload =
      (createBuffer stale).addPieces (pcbPieces pcb ++ stringPieces resource) := by
  rw [Buffer.addPieces_append, ← addPcbToBuffer_eq]
  rfl

theorem sendSleep_payload (stale : List UInt8) (header : OperationCode) (pcb : Pcb)
    (sleepTime : Int32) :
    (sendSleep stale header pcb sleepTime).payload =
      (createBuffer stale).addPieces (pcbPieces pcb ++ [ofWord sleepTime.toUInt32]) := by
  rw [Buffer.addPieces_append, ← addPcbToBuffer_eq]
  rfl

/-- A PCB is taken from a buffer as it was added, up to the high halves of its registers, and the offset
    ends where the PCB ends: in the buffer it was added to, and in the bytes that are sent, whatever
    was in the buffer before and follows the bytes after.  So the kernel takes the PCB and the resource
    from a WAIT or SIGNAL request, and the PCB and the time from a SLEEP request. -/
theorem pcb_messages_round_trip (pcb : Pcb) (cStrings : pcb.CStrings)
    (short : pcb.bytes.length < 2 ^ 32) :
    (∀ buffer : Buffer,
      takePcbFromBuffer { addPcbToBuffer buffer pcb with offset := buffer.offset } =
        some (pcb.overWire, addPcbToBuffer buffer pcb)) ∧
    (∀ (buffer : Buffer) (following : List UInt8),
      buffer.offset.toNat + pcb.bytes.length < 2 ^ 32 →
      takePcbFromBuffer
          { offset := buffer.offset, stream := (addPcbToBuffer buffer pcb).contents ++ following } =
        some (pcb.overWire,
          { offset := (addPcbToBuffer buffer pcb).offset
            stream := (addPcbToBuffer buffer pcb).contents ++ following })) ∧
    (∀ (stale : List UInt8) (header : OperationCode) (resource : String), CString resource →
      pcb.bytes.length + (stringBytes resource).length < 2 ^ 32 →
      takePcbAndResource
          (createBuffer (sendPcbAndResource stale header pcb resource).payload.contents) =
        some ((pcb.overWire, resource),
          { offset := (sendPcbAndResource stale header pcb resource).payload.offset
            stream := (sendPcbAndResource stale header pcb resource).payload.contents })) ∧
    ∀ (stale : List UInt8) (header : OperationCode) (sleepTime : Int32),
      pcb.bytes.length + 4 < 2 ^ 32 →
      takePcbAndTime (createBuffer (sendSleep stale header pcb sleepTime).payload.contents) =
        some ((pcb.overWire, sleepTime),
          { offset := (sendSleep stale header pcb sleepTime).payload.offset
            stream := (sendSleep stale header pcb sleepTime).payload.contents }) := by
  have takes := takes_pcb cStrings short
  refine ⟨fun buffer => ?_, fun buffer following small => ?_,
    fun stale header resource cString small => ?_, fun stale header sleepTime small => ?_⟩
  · rw [addPcbToBuffer_eq]
    exact takes.in_place short buffer
  · rw [addPcbToBuffer_eq]
    exact takes.from_contents buffer small following
  · rw [sendPcbAndResource_payload]
    have both : Takes takePcbAndResource (pcbPieces pcb ++ stringPieces resource)
        (pcb.overWire, resource) := by
      apply takes.bind
      exact (takes_string cString (by rw [stringBytes] at small; omega)).map fun taken =>
        (pcb.overWire, taken)
    have received := both.from_contents (createBuffer stale)
      (by simpa [createBuffer, Pcb.bytes, stringBytes] using small) []
    rw [List.append_nil] at received
    exact received
  · rw [sendSleep_payload]
    have both : Takes takePcbAndTime (pcbPieces pcb ++ [ofWord sleepTime.toUInt32])
        (pcb.overWire, sleepTime) := by
      apply takes.bind
      exact (takes_int32 sleepTime).map fun taken => (pcb.overWire, taken)
    have received := both.from_contents (createBuffer stale)
      (by simpa [createBuffer, Pcb.bytes] using small) []
    rw [List.append_nil] at received
    exact received

/-- The registers that arrive are those sent, modulo `2 ^ 32`. -/
theorem overWire_registers (pcb : Pcb) :
    pcb.overWire.cpuRegister.map (·.toNat % 2 ^ 32) = pcb.cpuRegister.map (·.toNat % 2 ^ 32) := by
  rw [Pcb.overWire, List.map_map]
  apply List.map_congr_left
  intro cell _
  simp [lowHalf]

/-- A process with a negative register that holds two resources. -/
def heldPcb : Pcb where
  pid := 7
  programCounter := 3
  size := 64
  quantum := -1
  cpuRegister := [5, 0xFFFFFFFFFFFFFFFF]
  resources := ["REC1", "REC2"]
  tablePages := 0
  path := "DEADLOCK_A"
  state := .execution
  clientSocket := 4

theorem pcb_messages_round_trip_held :
    takePcbFromBuffer { addPcbToBuffer ⟨9, [1, 2, 3]⟩ heldPcb with offset := 9 } =
      some (heldPcb.overWire, addPcbToBuffer ⟨9, [1, 2, 3]⟩ heldPcb) ∧
    takePcbAndResource
        (createBuffer (sendPcbAndResource [] .waitRequest heldPcb "REC1").payload.contents) =
      some ((heldPcb.overWire, "REC1"),
        { offset := (sendPcbAndResource [] .waitRequest heldPcb "REC1").payload.offset
          stream := (sendPcbAndResource [] .waitRequest heldPcb "REC1").payload.contents }) := by
  have roundTrip := pcb_messages_round_trip heldPcb (by decide) (by decide)
  exact ⟨roundTrip.1 ⟨9, [1, 2, 3]⟩,
    roundTrip.2.2.1 [] .waitRequest "REC1" (by decide) (by decide)⟩

end OsSimulator
