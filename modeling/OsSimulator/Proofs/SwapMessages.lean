/-
Module: OsSimulator.Proofs.SwapMessages
Purpose: `send_swap` writes a list of numbers as strings, and the reader takes numbers.  A string takes
  more bytes than a number, so that only the empty list arrives.
Main exports: swapPieces, SwapRoundTrips, swapRoundTrips_iff
-/
import OsSimulator.Proofs.RoundTrip
import OsSimulator.Shared.Swap

namespace OsSimulator

open Bytes

/-- The pieces that `send_swap` writes where its list is taken for these strings. -/
def swapPieces (pid : Int32) (strings : List String) : List (List UInt8) :=
  [ofWord pid.toUInt32] ++ listPieces stringPieces strings

/-- The list is sent, the reader gets the same pid and list, and nothing of the payload is left. -/
def SwapRoundTrips (stringAt : Int32 → Option String) (stale : List UInt8) (header : OperationCode)
    (pid : Int32) (list : List Int32) : Prop :=
  ∃ package rest, sendSwap stringAt stale header pid list = some package ∧
    takeSwap (createBuffer package.payload.contents) =
      some ((pid, list.map Int32.toUInt32), rest) ∧
    rest.offset.toNat = package.payload.contents.length

variable {stringAt : Int32 → Option String} {stale : List UInt8} {header : OperationCode}
  {pid : Int32} {list : List Int32} {strings : List String} {package : Package}

theorem sendSwap_eq_some (sent : sendSwap stringAt stale header pid list = some package) :
    ∃ strings, list.mapM stringAt = some strings ∧ package.header = header.value ∧
      package.payload = (createBuffer stale).addPieces (swapPieces pid strings) := by
  obtain ⟨strings, read, isPackage⟩ := Option.bind_eq_some_iff.mp sent
  obtain rfl := Option.some.inj isPackage
  refine ⟨strings, read, rfl, ?_⟩
  rw [swapPieces, Buffer.addPieces_append,
    ← addListToBuffer_eq Buffer.addStringToBuffer fun _ _ => rfl]
  rfl

/-- A taker moves the offset by what it takes. -/
theorem offset_bufferTake {size : Nat} {buffer rest : Buffer} {bytes : List UInt8}
    (taken : bufferTake size buffer = some (bytes, rest)) :
    rest = { buffer with offset := advance buffer.offset size } := by
  unfold bufferTake at taken
  split at taken
  · exact (Prod.mk.inj (Option.some.inj taken)).2.symm
  · cases taken

theorem offset_takeUInt32FromBuffer {buffer rest : Buffer} {value : UInt32}
    (taken : takeUInt32FromBuffer buffer = some (value, rest)) :
    rest = { buffer with offset := advance buffer.offset 4 } := by
  obtain ⟨⟨bytes, later⟩, first, same⟩ := Option.bind_eq_some_iff.mp taken
  obtain ⟨_, rfl⟩ := Prod.mk.inj (Option.some.inj same)
  exact offset_bufferTake first

/-- So many words are so many times four bytes. -/
theorem offset_takeElements {count : Nat} {buffer rest : Buffer} {values : List UInt32}
    (taken : takeElements takeUInt32FromBuffer count buffer = some (values, rest)) :
    rest = { buffer with offset := advance buffer.offset (4 * count) } := by
  induction count generalizing buffer values with
  | zero =>
      obtain ⟨_, rfl⟩ := Prod.mk.inj (Option.some.inj taken)
      simp [advance]
  | succ count ih =>
      obtain ⟨⟨value, between⟩, first, taken⟩ := Option.bind_eq_some_iff.mp taken
      obtain ⟨⟨others, later⟩, more, same⟩ := Option.bind_eq_some_iff.mp taken
      obtain ⟨_, rfl⟩ := Prod.mk.inj (Option.some.inj same)
      rw [ih more, offset_takeUInt32FromBuffer first, advance_advance]
      congr 2
      omega

/-- The bytes that are sent hold the pieces, and there are as many of them. -/
theorem contents_addPieces (stale : List UInt8) {pieces : List (List UInt8)}
    (short : pieces.flatten.length < 2 ^ 32) :
    Holds ((createBuffer stale).addPieces pieces).contents 0 pieces ∧
      ((createBuffer stale).addPieces pieces).contents.length = pieces.flatten.length := by
  have start : UInt32.toNat 0 = 0 := rfl
  have ends : ((createBuffer stale).addPieces pieces).offset.toNat = pieces.flatten.length := by
    rw [Buffer.addPieces_offset, toNat_advance, createBuffer, start]
    omega
  have holds : Holds ((createBuffer stale).addPieces pieces).stream 0 pieces :=
    Buffer.holds_addPieces short
  have inside := holds.length_le (Nat.zero_le _) (by omega)
  constructor
  · have taken := holds.take_append (by omega : _ ≤ pieces.flatten.length) (by omega) []
    rw [List.append_nil, ← ends] at taken
    exact taken
  · rw [Buffer.contents, List.length_take, ends]
    omega

/-- Only of the empty list the reader takes all that was sent. -/
theorem eq_nil_of_takeSwap {rest : Buffer} {values : List UInt32} {taken : Int32}
    (short : (swapPieces pid strings).flatten.length < 2 ^ 32)
    (takes : takeSwap (createBuffer ((createBuffer stale).addPieces (swapPieces pid strings)).contents) =
      some ((taken, values), rest))
    (all : rest.offset.toNat =
      ((createBuffer stale).addPieces (swapPieces pid strings)).contents.length) :
    strings = [] := by
  obtain ⟨holds, length⟩ := contents_addPieces stale short
  generalize ((createBuffer stale).addPieces (swapPieces pid strings)).contents = bytes at *
  obtain ⟨holdsPid, holdsList⟩ := holds_append.mp holds
  have whole : (swapPieces pid strings).flatten.length =
      8 + (strings.flatMap stringPieces).flatten.length := by
    simp [swapPieces, listPieces]
    omega
  have long := mul_length_le_flatten_flatMap five_le_length_stringPieces strings
  -- The number of elements arrives, and each of them is taken for a word.
  obtain ⟨⟨first, afterPid⟩, takesPid, takes⟩ := Option.bind_eq_some_iff.mp takes
  rw [takes_int32 pid (createBuffer bytes) holdsPid] at takesPid
  obtain ⟨rfl, rfl⟩ := Prod.mk.inj (Option.some.inj takesPid)
  obtain ⟨⟨blocks, afterList⟩, takesList, same⟩ := Option.bind_eq_some_iff.mp takes
  obtain ⟨_, rfl⟩ := Prod.mk.inj (Option.some.inj same)
  obtain ⟨⟨size, afterSize⟩, takesSize, takesElements⟩ := Option.bind_eq_some_iff.mp takesList
  have arrives : takeUInt32FromBuffer { stream := bytes, offset := advance 0 4 } =
      some (.ofNat strings.length, { stream := bytes, offset := advance (advance 0 4) 4 }) :=
    takes_uInt32 (.ofNat strings.length) _ ⟨holdsList.1, trivial⟩
  have isSize : some (size, afterSize) =
      some (UInt32.ofNat strings.length, { stream := bytes, offset := advance (advance 0 4) 4 }) :=
    takesSize.symm.trans arrives
  obtain ⟨rfl, rfl⟩ := Prod.mk.inj (Option.some.inj isSize)
  have count : (UInt32.ofNat strings.length).toNat = strings.length := by
    rw [UInt32.toNat_ofNat']
    omega
  dsimp only at takesElements
  rw [count] at takesElements
  rw [offset_takeElements takesElements, advance_advance, advance_advance, toNat_advance,
    UInt32.toNat_zero, length, whole] at all
  apply List.length_eq_zero_iff.mp
  omega

/-- The list arrives if and only if it is empty, whatever is found at the addresses that its elements are
    taken for. -/
theorem swapRoundTrips_iff (stringAt : Int32 → Option String) (stale : List UInt8)
    (header : OperationCode) (pid : Int32) (list : List Int32)
    (short : ∀ strings, list.mapM stringAt = some strings →
      (swapPieces pid strings).flatten.length < 2 ^ 32) :
    SwapRoundTrips stringAt stale header pid list ↔ list = [] := by
  constructor
  · rintro ⟨package, rest, sent, takes, all⟩
    obtain ⟨strings, read, _, payload⟩ := sendSwap_eq_some sent
    rw [payload] at takes all
    obtain rfl := eq_nil_of_takeSwap (short strings read) takes all
    cases list with
    | nil => rfl
    | cons position list =>
        rw [List.mapM_cons] at read
        obtain ⟨_, _, read⟩ := Option.bind_eq_some_iff.mp read
        obtain ⟨_, _, read⟩ := Option.bind_eq_some_iff.mp read
        cases Option.some.inj read
  · rintro rfl
    have read : ([] : List Int32).mapM stringAt = some [] := rfl
    have sent : sendSwap stringAt stale header pid [] = some
        { createPackage header stale with
          payload := (createBuffer stale).addPieces (swapPieces pid []) } := rfl
    obtain ⟨holds, length⟩ := contents_addPieces stale (short [] read)
    have takes : Takes takeSwap (swapPieces pid []) (pid, []) := by
      have list : Takes (takeListFromBuffer takeUInt32FromBuffer) (listPieces stringPieces []) [] :=
        (takes_uInt32 0).bind (takes_pure [])
      exact (takes_int32 pid).bind (list.map fun blocks => (pid, blocks))
    refine ⟨_, _, sent, takes _ holds, ?_⟩
    dsimp only
    rw [toNat_advance, createBuffer, UInt32.toNat_zero, length]
    have bound := short [] read
    omega

/-- Strings at two of the addresses. -/
def twoStrings (address : Int32) : Option String :=
  if address = 8 then some "SET" else if address = 9 then some "AX" else none

theorem swapRoundTrips_iff_twoStrings :
    SwapRoundTrips twoStrings [] .finishProcess 7 [8, 9] ↔ ([8, 9] : List Int32) = [] :=
  swapRoundTrips_iff twoStrings [] .finishProcess 7 [8, 9] fun strings read => by
    obtain rfl : ["SET", "AX"] = strings := Option.some.inj read
    decide

/-- Position 0 is taken for the null pointer: nothing is sent. -/
theorem swap_position_zero_lost : ¬ SwapRoundTrips (fun _ => none) [] .finishProcess 7 [0] := by
  rintro ⟨package, rest, sent, _⟩
  cases sent

end OsSimulator
