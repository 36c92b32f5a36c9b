/-
Module: OsSimulator.Lib.Fifo
Purpose: A waiting line: entries come in at the end, they are served at the front, and any of them may
  give up.  Nobody is overtaken, so an entry is served or has given up after as many services as there
  were entries up to it.
Main exports: Fifo.Move, Fifo.Move.position, Fifo.Move.filter_sublist, Fifo.position_of_run
-/
import OsSimulator.Lib.Transition

namespace Fifo

variable {α State Event : Type} {before after : List α}

/-- What one step does to the line, with the number of entries it serves.  `comes` holds of the entries
    that come in, and `out` of an entry that is served or gives up. -/
inductive Move (comes out : α → Prop) (before after : List α) : Nat → Prop where
  | joins (newcomers : List α) (same : after = before ++ newcomers)
      (fresh : ∀ entry ∈ newcomers, comes entry) : Move comes out before after 0
  | serves (first : α) (rest : List α) (head : before = first :: rest) (same : after = rest)
      (served : out first) : Move comes out before after 1
  | leaves (index : Nat) (newcomers : List α) (same : after = before.eraseIdx index ++ newcomers)
      (fresh : ∀ entry ∈ newcomers, comes entry)
      (left : ∀ entry, before[index]? = some entry → out entry) : Move comes out before after 0

/-- Nothing happens to the line. -/
theorem Move.stays {comes out : α → Prop} (same : after = before) : Move comes out before after 0 :=
  .joins [] (by rw [same, List.append_nil]) (by simp)

/-- What is known of the entries that come and go may be weakened. -/
theorem Move.imp {comes out comes' out' : α → Prop} {count : Nat}
    (weakComes : ∀ entry, comes entry → comes' entry) (weakOut : ∀ entry, out entry → out' entry)
    (move : Move comes out before after count) : Move comes' out' before after count := by
  cases move with
  | joins newcomers same fresh =>
      exact .joins newcomers same fun entry member => weakComes entry (fresh entry member)
  | serves first rest head same served => exact .serves first rest head same (weakOut first served)
  | leaves index newcomers same fresh left =>
      exact .leaves index newcomers same (fun entry member => weakComes entry (fresh entry member))
        fun entry here => weakOut entry (left entry here)

/-- An entry that is still in the line is as many places further to the front as were served. -/
theorem Move.position {comes out : α → Prop} {count position : Nat} {entry : α}
    (move : Move comes out before after count) (at_position : before[position]? = some entry) :
    out entry ∨ ∃ later, later + count ≤ position ∧ after[later]? = some entry := by
  obtain ⟨inside, here⟩ := List.getElem?_eq_some_iff.mp at_position
  cases move with
  | joins newcomers same =>
      refine .inr ⟨position, Nat.le_refl _, ?_⟩
      rw [same, List.getElem?_append_left inside, at_position]
  | serves first rest head same served =>
      subst head
      cases position with
      | zero =>
          obtain rfl : first = entry := by simpa using at_position
          exact .inl served
      | succ position => exact .inr ⟨position, Nat.le_refl _, by simpa [same] using at_position⟩
  | leaves index newcomers same _ left =>
      rcases Nat.lt_trichotomy position index with ahead | rfl | behind
      · refine .inr ⟨position, Nat.le_refl _, ?_⟩
        have still : (before.eraseIdx index)[position]? = some entry := by
          rw [List.getElem?_eraseIdx_of_lt ahead, at_position]
        rw [same, List.getElem?_append_left (List.getElem?_eq_some_iff.mp still).1, still]
      · exact .inl (left entry at_position)
      · refine .inr ⟨position - 1, Nat.sub_le .., ?_⟩
        have still : (before.eraseIdx index)[position - 1]? = some entry := by
          rw [List.getElem?_eraseIdx_of_ge (by omega), Nat.sub_add_cancel (by omega), at_position]
        rw [same, List.getElem?_append_left (List.getElem?_eq_some_iff.mp still).1, still]

/-- Among the entries of a kind that none of the newcomers is of, nobody is added and nobody passes
    anybody. -/
theorem Move.filter_sublist {comes out : α → Prop} {count : Nat} {kind : α → Bool}
    (move : Move comes out before after count) (others : ∀ entry, comes entry → kind entry = false) :
    (after.filter kind).Sublist (before.filter kind) := by
  have none : ∀ newcomers : List α, (∀ entry ∈ newcomers, comes entry) →
      newcomers.filter kind = [] := by
    intro newcomers fresh
    apply List.filter_eq_nil_iff.mpr
    intro entry member
    simp [others entry (fresh entry member)]
  cases move with
  | joins newcomers same fresh =>
      rw [same, List.filter_append, none newcomers fresh, List.append_nil]
  | serves first rest head same _ =>
      rw [head, same]
      exact (List.sublist_cons_self first rest).filter kind
  | leaves index newcomers same fresh _ =>
      rw [same, List.filter_append, none newcomers fresh, List.append_nil]
      exact (List.eraseIdx_sublist before index).filter kind

open Transition

variable {step : State → Event → Option State} {start state : State} {events : List Event}

/-- Along a run an entry gets out, or it moves to the front with every entry that is served. -/
theorem position_of_run (line : State → List α) (served : State → Nat) (out : State → α → Prop)
    (invariant : State → Prop)
    (preserved : ∀ {state event next}, invariant state → step state event = some next →
      invariant next)
    (moves : ∀ {state event next}, invariant state → step state event = some next →
      ∃ count, served next = served state + count ∧
        Move (fun _ => True) (out next) (line state) (line next) count)
    (stays : ∀ {state event next entry}, step state event = some next → out state entry →
      out next entry)
    (initially : invariant start) (reaches : run step start events = some state)
    {position : Nat} {entry : α} (at_position : (line start)[position]? = some entry) :
    out state entry ∨ ∃ later, later + served state ≤ position + served start ∧
      (line state)[later]? = some entry := by
  induction events generalizing start position with
  | nil =>
      obtain rfl : start = state := by simpa using reaches
      exact .inr ⟨position, Nat.le_refl _, at_position⟩
  | cons event events ih =>
      rw [run_cons] at reaches
      obtain ⟨middle, taken, rest⟩ := Option.bind_eq_some_iff.mp reaches
      obtain ⟨count, counted, move⟩ := moves initially taken
      rcases move.position at_position with gone | ⟨place, moved, at_place⟩
      · exact .inl (invariant_of_run (out · entry) (fun holds taken => stays taken holds) gone rest)
      · rcases ih (preserved initially taken) rest at_place with gone | ⟨later, bound, at_later⟩
        · exact .inl gone
        · exact .inr ⟨later, by omega, at_later⟩

end Fifo
