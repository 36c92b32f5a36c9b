/-
Module: OsSimulator.Lib.Files
Purpose: Files as bytes, the two modes of `fopen` for binary files, and reading and writing an object at a
  place.  What lies between the end of a file and a place that is written behind it reads as zeros, and
  so does everything behind the end.
Main exports: Files.Mode, Files.fopen, Files.fwrite, Files.fread, Files.byteAt, Files.byteAt_write,
  Files.block, Files.block_write_of_ne
-/
import Mathlib.Algebra.Order.Ring.Nat
import Mathlib.Data.List.Basic
import Mathlib.Data.List.GetD

namespace Files

/-- `"rb"` and `"wb"`. -/
inductive Mode where
  | read
  | write
deriving DecidableEq, Repr

/-- What `fopen` leaves of a file that is there: `"wb"` truncates it. -/
def fopen : Mode → List UInt8 → List UInt8
  | .read, file => file
  | .write, _ => []

/-- Put a piece at a place of a file. -/
def write (file : List UInt8) (place : Nat) (piece : List UInt8) : List UInt8 :=
  if piece = [] then
    file
  else
    file.take place ++ List.replicate (place - file.length) 0 ++ piece ++
      file.drop (place + piece.length)

/-- `fseek` to the place and `fwrite` of one item of this size from an object; it fails where the item is
    larger than the object. -/
def fwrite (object : List UInt8) (size place : Nat) (file : List UInt8) : Option (List UInt8) :=
  if size ≤ object.length then
    some (write file place (object.take size))
  else
    none

/-- `fseek` to the place and `fread` of one item of this size into an object, of which the bytes that the
    file does not have stay; it fails where the item is larger than the object. -/
def fread (object : List UInt8) (size place : Nat) (file : List UInt8) : Option (List UInt8) :=
  if size ≤ object.length then
    let bytes := (file.drop place).take size
    some (bytes ++ object.drop bytes.length)
  else
    none

/-- The byte at a place. -/
def byteAt (file : List UInt8) (place : Nat) : UInt8 := file.getD place 0

/-- The bytes of a block, where all blocks have the same size. -/
def block (size : Nat) (file : List UInt8) (number : Nat) : List UInt8 :=
  (List.range size).map fun index => byteAt file (number * size + index)

variable {file piece object : List UInt8} {size place index number other : Nat}

@[simp] theorem byteAt_nil (place : Nat) : byteAt [] place = 0 := rfl

/-- Inside the piece its bytes are read, elsewhere what was there. -/
theorem byteAt_write :
    byteAt (write file place piece) index =
      if place ≤ index ∧ index < place + piece.length then
        piece.getD (index - place) 0
      else
        byteAt file index := by
  by_cases empty : piece = []
  · rw [write, if_pos empty, empty, if_neg]
    rw [List.length_nil]
    omega
  · rw [write, if_neg empty]
    simp only [byteAt, List.getD_eq_getElem?_getD, List.append_assoc]
    have filled : (file.take place ++ List.replicate (place - file.length) 0).length = place := by
      rw [List.length_append, List.length_take, List.length_replicate]
      omega
    rw [← List.append_assoc]
    by_cases before : index < place
    · rw [if_neg (by omega), List.getElem?_append_left (by omega)]
      by_cases inside : index < file.length
      · rw [List.getElem?_append_left (by rw [List.length_take]; omega),
          List.getElem?_take_of_lt before]
      · rw [List.getElem?_append_right (by rw [List.length_take]; omega), List.length_take,
          List.getElem?_replicate, if_pos (by omega), List.getElem?_eq_none (by omega)]
        rfl
    · rw [List.getElem?_append_right (by omega), filled]
      by_cases inside : index < place + piece.length
      · rw [if_pos (by omega), List.getElem?_append_left (by omega)]
      · rw [if_neg (by omega), List.getElem?_append_right (by omega), List.getElem?_drop]
        congr 2
        omega

theorem block_nil (size number : Nat) : block size [] number = List.replicate size 0 := by
  simp [block]

/-- Writing a block leaves the others. -/
theorem block_write_of_ne (short : piece.length ≤ size) (different : other ≠ number) :
    block size (write file (number * size) piece) other = block size file other := by
  apply List.map_congr_left
  intro index inside
  rw [List.mem_range] at inside
  rw [byteAt_write, if_neg]
  rintro ⟨above, below⟩
  rcases Nat.lt_or_gt_of_ne different with smaller | larger
  · have next := Nat.mul_le_mul_right size (Nat.succ_le_of_lt smaller)
    rw [Nat.succ_mul] at next
    omega
  · have next := Nat.mul_le_mul_right size (Nat.succ_le_of_lt larger)
    rw [Nat.succ_mul] at next
    omega

end Files
