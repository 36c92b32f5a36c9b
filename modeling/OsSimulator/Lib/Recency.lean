/-
Module: OsSimulator.Lib.Recency
Purpose: Lists of keys in the order in which they were last accessed.  An access takes place at a time of
  its own, after all others, so that a list stays in order when the accessed key comes to its end.
Main exports: Recency.History, Recency.History.access, Recency.InOrder, Recency.InOrder.access,
  Recency.InOrder.head_oldest
-/
import Mathlib.Data.List.Basic
import Mathlib.Logic.Function.Basic

namespace Recency

/-- When each key was last accessed, and when the last access of all was. -/
structure History (Key : Type) where
  lastAccess : Key → Nat
  now : Nat

variable {Key : Type}

/-- The key is accessed after all that was accessed before. -/
def History.access [DecidableEq Key] (history : History Key) (key : Key) : History Key where
  lastAccess := Function.update history.lastAccess key (history.now + 1)
  now := history.now + 1

/-- Every key was accessed before those behind it. -/
structure InOrder (history : History Key) (keys : List Key) : Prop where
  ordered : keys.Pairwise fun earlier later => history.lastAccess earlier < history.lastAccess later
  past : ∀ key ∈ keys, history.lastAccess key ≤ history.now

variable {history : History Key} {keys rest : List Key} {key other : Key}

theorem InOrder.distinct (inOrder : InOrder history keys) : keys.Nodup := by
  apply inOrder.ordered.imp
  rintro earlier later before rfl
  exact Nat.lt_irrefl _ before

/-- The key at the head is the one whose last access is the oldest. -/
theorem InOrder.head_oldest (inOrder : InOrder history (key :: rest)) :
    ∀ later ∈ rest, history.lastAccess key < history.lastAccess later :=
  (List.pairwise_cons.mp inOrder.ordered).1

theorem InOrder.sublist (inOrder : InOrder history keys) (part : rest.Sublist keys) :
    InOrder history rest where
  ordered := inOrder.ordered.sublist part
  past := fun key member => inOrder.past key (part.subset member)

variable [DecidableEq Key]

theorem History.lastAccess_access_self :
    (history.access key).lastAccess key = history.now + 1 := Function.update_self ..

theorem History.lastAccess_access_of_ne (different : other ≠ key) :
    (history.access key).lastAccess other = history.lastAccess other :=
  Function.update_of_ne different ..

/-- A key that is accessed comes behind the others. -/
theorem InOrder.access (inOrder : InOrder history keys) (others : key ∉ keys) :
    InOrder (history.access key) (keys ++ [key]) := by
  have kept : ∀ other ∈ keys,
      (history.access key).lastAccess other = history.lastAccess other := by
    intro other member
    exact History.lastAccess_access_of_ne fun same => others (same ▸ member)
  constructor
  · rw [List.pairwise_append]
    refine ⟨?_, List.pairwise_singleton .., ?_⟩
    · apply inOrder.ordered.imp_of_mem
      intro earlier later inEarlier inLater before
      rw [kept earlier inEarlier, kept later inLater]
      exact before
    · intro other member last isLast
      obtain rfl := List.mem_singleton.mp isLast
      rw [kept other member, History.lastAccess_access_self]
      exact Nat.lt_succ_of_le (inOrder.past other member)
  · intro other member
    rcases List.mem_append.mp member with old | isLast
    · rw [kept other old]
      exact Nat.le_succ_of_le (inOrder.past other old)
    · obtain rfl := List.mem_singleton.mp isLast
      rw [History.lastAccess_access_self]
      exact Nat.le_refl _

end Recency
