/-
Module: OsSimulator.Lib.Weigh
Purpose: Total weight of a list and of a list of lists under an arbitrary weight, with the
  equations for the ways elements are moved: appended, erased, sorted, or put back in one of the
  lists.  Lengths (weight one) and occurrence counts (weight of an indicator) are the two uses.
Main exports: weigh, weighAll, weigh_eraseP, weigh_eraseIdx, weighAll_set
-/
import Mathlib.Algebra.BigOperators.Group.List.Basic
import Mathlib.Algebra.Order.BigOperators.Group.List
import Mathlib.Algebra.Order.Ring.Nat

variable {α β : Type}

/-- Sum of the weights of the elements. -/
def weigh (weight : α → Nat) (list : List α) : Nat := (list.map weight).sum

/-- Sum of the weights of all the lists. -/
def weighAll (weight : α → Nat) (lists : List (List α)) : Nat := (lists.map (weigh weight)).sum

variable {weight : α → Nat}

@[simp] theorem weigh_nil : weigh weight [] = 0 := rfl

@[simp] theorem weigh_cons (head : α) (tail : List α) :
    weigh weight (head :: tail) = weight head + weigh weight tail := by
  simp [weigh]

@[simp] theorem weigh_append (first second : List α) :
    weigh weight (first ++ second) = weigh weight first + weigh weight second := by
  simp [weigh]

theorem weigh_one (list : List α) : weigh (fun _ => 1) list = list.length := by
  simp [weigh]

theorem weigh_perm (weight : α → Nat) {first second : List α} (perm : first.Perm second) :
    weigh weight first = weigh weight second :=
  (perm.map weight).sum_eq

theorem weigh_eq_zero {list : List α} :
    weigh weight list = 0 ↔ ∀ element ∈ list, weight element = 0 := by
  simp [weigh, List.sum_eq_zero_iff]

theorem weight_le_weigh {element : α} {list : List α} (member : element ∈ list) :
    weight element ≤ weigh weight list :=
  List.le_sum_of_mem (List.mem_map_of_mem member)

/-- Erasing the element that `find?` found takes exactly its weight away. -/
theorem weigh_eraseP (weight : α → Nat) {test : α → Bool} {list : List α} {found : α}
    (finds : list.find? test = some found) :
    weigh weight (list.eraseP test) + weight found = weigh weight list := by
  induction list with
  | nil => simp at finds
  | cons head tail ih =>
      cases passes : test head with
      | true =>
          obtain rfl : head = found := by simpa [passes] using finds
          simp [passes, Nat.add_comm]
      | false =>
          have rest := ih (by simpa [passes] using finds)
          simp only [List.eraseP_cons, passes, weigh_cons, cond_false]
          omega

/-- Erasing by index takes exactly that element's weight away. -/
theorem weigh_eraseIdx (weight : α → Nat) {list : List α} {index : Nat} {found : α}
    (at_index : list[index]? = some found) :
    weigh weight (list.eraseIdx index) + weight found = weigh weight list := by
  induction list generalizing index with
  | nil => simp at at_index
  | cons head tail ih =>
      cases index with
      | zero =>
          obtain rfl : head = found := by simpa using at_index
          simp [Nat.add_comm]
      | succ index =>
          have rest := ih (by simpa using at_index)
          simp only [List.eraseIdx_cons_succ, weigh_cons]
          omega

@[simp] theorem weighAll_nil : weighAll weight [] = 0 := rfl

@[simp] theorem weighAll_cons (head : List α) (tail : List (List α)) :
    weighAll weight (head :: tail) = weigh weight head + weighAll weight tail := by
  simp [weighAll]

/-- Replacing one of the lists changes the total by the difference of the two. -/
theorem weighAll_set (weight : α → Nat) {lists : List (List α)} {index : Nat} {old : List α}
    (new : List α) (at_index : lists[index]? = some old) :
    weighAll weight (lists.set index new) + weigh weight old =
      weighAll weight lists + weigh weight new := by
  induction lists generalizing index with
  | nil => simp at at_index
  | cons head tail ih =>
      cases index with
      | zero =>
          obtain rfl : head = old := by simpa using at_index
          simp only [List.set_cons_zero, weighAll_cons]
          omega
      | succ index =>
          have rest := ih (by simpa using at_index)
          simp only [List.set_cons_succ, weighAll_cons]
          omega

theorem weigh_le_weighAll {lists : List (List α)} {list : List α} (member : list ∈ lists) :
    weigh weight list ≤ weighAll weight lists :=
  List.le_sum_of_mem (List.mem_map_of_mem member)

theorem weighAll_eq_zero {lists : List (List α)} :
    weighAll weight lists = 0 ↔ ∀ list ∈ lists, ∀ element ∈ list, weight element = 0 := by
  simp [weighAll, List.sum_eq_zero_iff, weigh_eq_zero]

theorem weighAll_one (lists : List (List α)) :
    weighAll (fun _ => 1) lists = (lists.map List.length).sum := by
  simp only [weighAll]
  congr 1
  exact List.map_congr_left fun list _ => weigh_one list

theorem weighAll_replicate_nil (count : Nat) :
    weighAll weight (List.replicate count []) = 0 := by
  simp [weighAll]
