/-
Module: OsSimulator.Lib.Bytes
Purpose: Bytes in memory: 32-bit words as four bytes, the lowest first, and pieces of memory that are
  written at a 32-bit offset, which wraps around.  Nothing here depends on what the bytes mean.
Main exports: Bytes.ofWord, Bytes.toWord, Bytes.overwrite, Bytes.Located, Bytes.Holds,
  Bytes.holds_append
-/
import Mathlib.Algebra.Order.Ring.Int
import Mathlib.Algebra.Order.Ring.Nat
import Mathlib.Data.List.Basic

namespace Bytes

/-! ### Words -/

/-- The four bytes of a word. -/
def ofWord (word : UInt32) : List UInt8 :=
  [.ofNat word.toNat, .ofNat (word.toNat / 2 ^ 8), .ofNat (word.toNat / 2 ^ 16),
    .ofNat (word.toNat / 2 ^ 24)]

/-- The word of four bytes. -/
def toWord : List UInt8 → UInt32
  | [first, second, third, fourth] =>
      .ofNat (first.toNat + second.toNat * 2 ^ 8 + third.toNat * 2 ^ 16 + fourth.toNat * 2 ^ 24)
  | _ => 0

@[simp] theorem length_ofWord (word : UInt32) : (ofWord word).length = 4 := rfl

@[simp] theorem toWord_ofWord (word : UInt32) : toWord (ofWord word) = word := by
  apply UInt32.toNat_inj.mp
  have bound := word.toNat_lt
  simp only [ofWord, toWord, UInt8.toNat_ofNat', UInt32.toNat_ofNat']
  omega

/-! ### Pieces of memory -/

/-- Store a piece at a place that is there. -/
def overwrite (cells : List UInt8) (place : Nat) (piece : List UInt8) : List UInt8 :=
  cells.take place ++ piece ++ cells.drop (place + piece.length)

/-- The piece is stored at the place. -/
def Located (cells : List UInt8) (place : Nat) (piece : List UInt8) : Prop :=
  place + piece.length ≤ cells.length ∧
    ∀ index, index < piece.length → cells[place + index]? = piece[index]?

variable {cells piece other : List UInt8} {place elsewhere : Nat}

@[simp] theorem length_overwrite (inside : place + piece.length ≤ cells.length) :
    (overwrite cells place piece).length = cells.length := by
  simp only [overwrite, List.length_append, List.length_take, List.length_drop]
  omega

theorem located_overwrite (inside : place + piece.length ≤ cells.length) :
    Located (overwrite cells place piece) place piece := by
  refine ⟨by rw [length_overwrite inside]; exact inside, fun index below => ?_⟩
  have start : (cells.take place).length = place := by
    rw [List.length_take]
    omega
  rw [overwrite, List.append_assoc, List.getElem?_append_right (by omega), start,
    List.getElem?_append_left (by omega)]
  congr 1
  omega

/-- What is stored elsewhere stays. -/
theorem Located.overwrite (located : Located cells elsewhere other)
    (inside : place + piece.length ≤ cells.length)
    (apart : elsewhere + other.length ≤ place ∨ place + piece.length ≤ elsewhere) :
    Located (overwrite cells place piece) elsewhere other := by
  refine ⟨by rw [length_overwrite inside]; exact located.1, fun index below => ?_⟩
  rw [← located.2 index below]
  have start : (cells.take place).length = place := by
    rw [List.length_take]
    omega
  rcases apart with before | after
  · rw [Bytes.overwrite, List.append_assoc, List.getElem?_append_left (by omega),
      List.getElem?_take_of_lt (by omega)]
  · rw [Bytes.overwrite, List.getElem?_append_right (by rw [List.length_append, start]; omega),
      List.getElem?_drop, List.length_append, start]
    congr 1
    omega

/-- What is stored stays when memory grows. -/
theorem Located.append (located : Located cells place piece) (more : List UInt8) :
    Located (cells ++ more) place piece := by
  refine ⟨by rw [List.length_append]; have := located.1; omega, fun index below => ?_⟩
  rw [List.getElem?_append_left (by have := located.1; omega)]
  exact located.2 index below

/-- The piece is what is read from its place. -/
theorem Located.read (located : Located cells place piece) :
    (cells.drop place).take piece.length = piece := by
  apply List.ext_getElem?
  intro index
  by_cases below : index < piece.length
  · rw [List.getElem?_take_of_lt below, List.getElem?_drop, located.2 index below]
  · rw [List.getElem?_eq_none (by rw [List.length_take]; omega),
      List.getElem?_eq_none (Nat.le_of_not_lt below)]

/-! ### One piece after the other -/

/-- The offset after pieces of this length; it wraps around. -/
def advance (offset : UInt32) (length : Nat) : UInt32 := offset + .ofNat length

theorem toNat_advance (offset : UInt32) (length : Nat) :
    (advance offset length).toNat = (offset.toNat + length) % 2 ^ 32 := by
  simp [advance, UInt32.toNat_add, UInt32.toNat_ofNat']

theorem advance_advance (offset : UInt32) (first second : Nat) :
    advance (advance offset first) second = advance offset (first + second) := by
  apply UInt32.toNat_inj.mp
  simp only [toNat_advance]
  omega

/-- The pieces are stored one after the other, the first one at the offset. -/
def Holds (cells : List UInt8) (offset : UInt32) : List (List UInt8) → Prop
  | [] => True
  | piece :: pieces =>
      Located cells offset.toNat piece ∧ Holds cells (advance offset piece.length) pieces

theorem holds_append {offset : UInt32} {first second : List (List UInt8)} :
    Holds cells offset (first ++ second) ↔
      Holds cells offset first ∧ Holds cells (advance offset first.flatten.length) second := by
  induction first generalizing offset with
  | nil => simp [Holds, advance]
  | cons piece pieces ih =>
      rw [List.cons_append, Holds, Holds, ih, List.flatten_cons, List.length_append,
        advance_advance, and_assoc]

/-- A piece within the first cells is stored there whatever follows them. -/
theorem Located.take_append (located : Located cells place piece) {count : Nat}
    (within : place + piece.length ≤ count) (following : List UInt8) :
    Located (cells.take count ++ following) place piece := by
  have inside := located.1
  refine ⟨by rw [List.length_append, List.length_take]; omega, fun index below => ?_⟩
  rw [List.getElem?_append_left (by rw [List.length_take]; omega),
    List.getElem?_take_of_lt (by omega)]
  exact located.2 index below

/-- Pieces within the first cells are held there whatever follows them. -/
theorem Holds.take_append {offset : UInt32} {pieces : List (List UInt8)} {count : Nat}
    (holds : Holds cells offset pieces) (within : offset.toNat + pieces.flatten.length ≤ count)
    (short : offset.toNat + pieces.flatten.length < 2 ^ 32) (following : List UInt8) :
    Holds (cells.take count ++ following) offset pieces := by
  induction pieces generalizing offset with
  | nil => trivial
  | cons piece pieces ih =>
      rw [List.flatten_cons, List.length_append] at within short
      constructor
      · exact holds.1.take_append (by omega) following
      · apply ih holds.2
        · rw [toNat_advance]
          omega
        · rw [toNat_advance]
          omega

/-- Pieces that are held lie within the cells. -/
theorem Holds.length_le {offset : UInt32} {pieces : List (List UInt8)}
    (holds : Holds cells offset pieces) (inside : offset.toNat ≤ cells.length)
    (short : offset.toNat + pieces.flatten.length < 2 ^ 32) :
    offset.toNat + pieces.flatten.length ≤ cells.length := by
  induction pieces generalizing offset with
  | nil => exact inside
  | cons piece pieces ih =>
      rw [List.flatten_cons, List.length_append] at short ⊢
      have here := holds.1.1
      have next : (advance offset piece.length).toNat = offset.toNat + piece.length := by
        rw [toNat_advance]
        omega
      have rest := ih holds.2 (by omega) (by omega)
      omega

end Bytes
