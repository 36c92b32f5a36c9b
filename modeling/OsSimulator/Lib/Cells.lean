/-
Module: OsSimulator.Lib.Cells
Purpose: Allocated cells of one type that can be freed.  A pointer is the number of an allocation, so
  an address is never used twice; reading, writing or freeing a cell that has been freed fails.
Main exports: Cells, Cells.read, Cells.malloc, Cells.write, Cells.free, Cells.read_malloc,
  Cells.free_eq_some_iff
-/
import Mathlib.Data.List.Basic

/-- The cells in the order of their allocation; `none` once a cell is freed. -/
abbrev Cells (α : Type) := List (Option α)

namespace Cells

variable {α : Type} (cells : Cells α) (pointer other : Nat) (value : α)

/-- What the cell holds. -/
def read : Option α := cells[pointer]?.join

/-- A new cell with this value, and the pointer to it. -/
def malloc : Cells α × Nat := (cells ++ [some value], cells.length)

/-- Store a value in a cell. -/
def write : Option (Cells α) := (cells.read pointer).map fun _ => cells.set pointer (some value)

/-- Free a cell. -/
def free : Option (Cells α) := (cells.read pointer).map fun _ => cells.set pointer none

variable {cells pointer other value}

theorem lt_of_read (stored : cells.read pointer = some value) : pointer < cells.length := by
  by_contra beyond
  simp [read, List.getElem?_eq_none (Nat.not_lt.mp beyond)] at stored

theorem read_malloc : (cells.malloc value).1.read other =
    if other = cells.length then some value else cells.read other := by
  unfold malloc read
  by_cases new : other = cells.length
  · simp [new]
  · rw [if_neg new]
    rcases Nat.lt_or_gt_of_ne new with inside | beyond
    · rw [List.getElem?_append_left inside]
    · rw [List.getElem?_eq_none (Nat.le_of_lt beyond), List.getElem?_eq_none]
      rw [List.length_append, List.length_singleton]
      exact beyond

/-- An allocation leaves what is stored where it is. -/
theorem read_malloc_of_read (stored : cells.read other = some value) {fresh : α} :
    (cells.malloc fresh).1.read other = some value := by
  have old : other ≠ cells.length := Nat.ne_of_lt (lt_of_read stored)
  rw [read_malloc, if_neg old, stored]

/-- A cell holds what was last stored in it. -/
theorem read_write_self {next : Cells α} (written : cells.write pointer value = some next) :
    next.read pointer = some value := by
  obtain ⟨_, stored, rfl⟩ := Option.map_eq_some_iff.mp written
  simp [read, lt_of_read stored]

/-- Only a cell that is still allocated can be freed; no other cell changes. -/
theorem free_eq_some_iff {next : Cells α} :
    cells.free pointer = some next ↔ (∃ value, cells.read pointer = some value) ∧
      next = cells.set pointer none := by
  rw [free, Option.map_eq_some_iff]
  constructor
  · rintro ⟨value, stored, rfl⟩
    exact ⟨⟨value, stored⟩, rfl⟩
  · rintro ⟨⟨value, stored⟩, rfl⟩
    exact ⟨value, stored, rfl⟩

theorem read_free {next : Cells α} (freed : cells.free pointer = some next) :
    next.read other = if other = pointer then none else cells.read other := by
  obtain ⟨⟨value, stored⟩, rfl⟩ := free_eq_some_iff.mp freed
  by_cases same : other = pointer
  · subst same
    simp [read, lt_of_read stored]
  · simp [read, same, List.getElem?_set_ne (Ne.symm same)]

end Cells
