/-
Module: OsSimulator.Lib.Ledger
Purpose: Units of one resource, free or held by the members of a changing set of holders: how each
  kind of booking changes the total over the free units and the live holders.
Main exports: Ledger, Ledger.total, Ledger.total_move, Ledger.total_close, Ledger.total_enter
-/
import Mathlib.Algebra.BigOperators.Group.Finset.Basic
import Mathlib.Algebra.BigOperators.Ring.Finset
import Mathlib.Algebra.Ring.Int.Defs

/-- The books of one resource. -/
@[ext] structure Ledger (Holder : Type) where
  free : Int
  live : Finset Holder
  held : Holder → Int

namespace Ledger

variable {Holder : Type} [DecidableEq Holder] (ledger : Ledger Holder) (holder : Holder)

/-- The free units and the units of the live holders. -/
def total : Int := ledger.free + ∑ other ∈ ledger.live, ledger.held other

/-- Units go from the free ones to a holder; a negative amount goes the other way. -/
def move (amount : Int) : Ledger Holder :=
  { ledger with
    free := ledger.free - amount
    held := fun other => ledger.held other + if other = holder then amount else 0 }

/-- A holder leaves and units become free. -/
def close (returned : Int) : Ledger Holder :=
  { ledger with free := ledger.free + returned, live := ledger.live.erase holder }

/-- A holder joins. -/
def enter : Ledger Holder := { ledger with live := insert holder ledger.live }

/-- Moving units keeps the total, unless the holder is not live. -/
theorem total_move (amount : Int) :
    (ledger.move holder amount).total =
      ledger.total - if holder ∈ ledger.live then 0 else amount := by
  simp only [total, move, Finset.sum_add_distrib, Finset.sum_ite_eq']
  split <;> omega

/-- A departure keeps the total exactly when the holder's units become free, no more and no fewer. -/
theorem total_close (returned : Int) :
    (ledger.close holder returned).total =
      ledger.total + returned - if holder ∈ ledger.live then ledger.held holder else 0 := by
  simp only [total, close]
  split
  · rename_i member
    have split := Finset.add_sum_erase ledger.live ledger.held member
    omega
  · rename_i absent
    rw [Finset.erase_eq_of_notMem absent]
    omega

/-- A holder that joins with nothing keeps the total. -/
theorem total_enter (nothing : ledger.held holder = 0) :
    (ledger.enter holder).total = ledger.total := by
  simp only [total, enter]
  by_cases member : holder ∈ ledger.live
  · rw [Finset.insert_eq_of_mem member]
  · rw [Finset.sum_insert member, nothing, zero_add]

end Ledger
