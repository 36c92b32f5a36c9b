/-
Module: OsSimulator.Lib.Sequential
Purpose: A thread that runs for a while without any other.  The program is executed as a whole, its
  execution is one of the interleavings, and rules for sequences, single operations and looks say how
  it simulates an abstract state.
Main exports: Threads.Program.exec, Threads.Pool.exec_advances, Threads.Program.Ends,
  Threads.Program.Simulates, Threads.Program.simulates_bind
-/
import OsSimulator.Lib.Threads
import OsSimulator.Lib.Transition

namespace Threads

variable {Role Op State Abstract α β : Type} {perform : Op → State → Option State}

namespace Program

/-! ### Execution -/

/-- The program from its first operation to its last; `none` where an operation is not enabled. -/
def exec (perform : Op → State → Option State) : Program Op State α → State → Option (α × State)
  | .done result, state => some (result, state)
  | .step op next, state => (perform op state).bind ((next state).exec perform)

theorem exec_perform (op : Op) (state : State) :
    (Program.perform op : Program Op State Unit).exec perform state =
      (perform op state).map fun after => ((), after) := by
  cases enabled : perform op state <;> simp [Program.perform, exec, enabled]

theorem exec_observe (op : Op) (look : State → α) (state : State) :
    (observe op look).exec perform state =
      (perform op state).map fun after => (look state, after) := by
  cases enabled : perform op state <;> simp [observe, exec, enabled]

/-- A sequence executes its parts one after the other. -/
theorem exec_bind (program : Program Op State α) (after : α → Program Op State β) (state : State) :
    (program >>= after).exec perform state =
      (program.exec perform state).bind fun (result, middle) =>
        (after result).exec perform middle := by
  induction program generalizing state with
  | done result => rfl
  | step op next ih =>
      change (perform op state).bind (fun middle => (next state >>= after).exec perform middle) =
        ((perform op state).bind (fun middle => (next state).exec perform middle)).bind _
      cases perform op state with
      | none => rfl
      | some middle => exact ih state middle

theorem bind_pure_unit (program : Program Op State Unit) : (program >>= fun _ => Pure.pure ()) =
    program := by
  induction program with
  | done result => rfl
  | step op next ih => exact congrArg (Program.step op) (funext ih)

theorem bind_assoc {γ : Type} (program : Program Op State α) (first : α → Program Op State β)
    (second : β → Program Op State γ) :
    program >>= first >>= second = program >>= fun result => first result >>= second := by
  induction program with
  | done result => rfl
  | step op next ih => exact congrArg (Program.step op) (funext ih)

end Program

/-! ### Execution as an interleaving -/

namespace Pool

open Transition

variable {pool : Pool Role Op State} {index : Nat} {thread : Thread Role Op State}

/-- If one thread executes the first part of its program and no other thread does anything, then its
    next operations lead to the rest of the program, in the state that the first part ends in. -/
theorem exec_advances {program : Program Op State α} {after : α → Program Op State Unit}
    {result : α} {state : State} (at_index : pool.threads[index]? = some thread)
    (rest : thread.rest = program >>= after)
    (executes : program.exec perform pool.state = some (result, state)) :
    ∃ turns performed, run (fun pool index => Pool.advance perform index pool) pool
        (List.replicate turns index) =
      some { state := state
             threads := pool.threads.set index
               { role := thread.role, performed := performed, rest := after result } } := by
  induction program generalizing pool thread with
  | done value =>
      obtain ⟨rfl, rfl⟩ : value = result ∧ pool.state = state := by
        simpa [Program.exec] using executes
      refine ⟨0, thread.performed, ?_⟩
      have same : { role := thread.role, performed := thread.performed, rest := after value } =
          thread := by
        cases thread
        cases rest
        rfl
      obtain ⟨inside, stored⟩ := List.getElem?_eq_some_iff.mp at_index
      rw [same, ← stored, List.set_getElem_self]
      rfl
  | step op next ih =>
      obtain ⟨middle, performs, remaining⟩ := Option.bind_eq_some_iff.mp executes
      have inside : index < pool.threads.length := (List.getElem?_eq_some_iff.mp at_index).1
      let moved : Thread Role Op State :=
        { thread with performed := op :: thread.performed, rest := next pool.state >>= after }
      have advanced : pool.advance perform index =
          some { state := middle, threads := pool.threads.set index moved } := by
        have program : thread.rest = .step op fun state => next state >>= after := rest
        rw [advance]
        simp [at_index, program, performs, moved]
      have at_moved : (pool.threads.set index moved)[index]? = some moved :=
        List.getElem?_set_self inside
      obtain ⟨turns, performed, reaches⟩ :=
        @ih pool.state { state := middle, threads := _ } moved at_moved rfl remaining
      refine ⟨turns + 1, performed, ?_⟩
      rw [List.replicate_succ, run_cons, advanced, Option.bind_some, reaches]
      rw [List.set_set]

end Pool

/-! ### What an execution ends with -/

namespace Program

/-- The program, executed alone, comes to its end, with a result and a state that satisfy `ending`. -/
def Ends (perform : Op → State → Option State) (program : Program Op State α) (state : State)
    (ending : α → State → Prop) : Prop :=
  ∃ result after, program.exec perform state = some (result, after) ∧ ending result after

section Ends

variable {state after : State}

theorem ends_pure {ending : α → State → Prop} {result : α} (ends : ending result state) :
    (Pure.pure result : Program Op State α).Ends perform state ending :=
  ⟨result, state, rfl, ends⟩

/-- The second part goes on where the first one ends. -/
theorem ends_bind {program : Program Op State α} {rest : α → Program Op State β}
    {ending : β → State → Prop}
    (first : program.Ends perform state fun result middle =>
      (rest result).Ends perform middle ending) :
    (program >>= rest).Ends perform state ending := by
  obtain ⟨result, middle, executes, final, last, goesOn, ends⟩ := first
  refine ⟨final, last, ?_, ends⟩
  rw [exec_bind, executes]
  exact goesOn

theorem ends_perform {op : Op} {ending : Unit → State → Prop} (after : State)
    (enabled : perform op state = some after) (ends : ending () after) :
    (Program.perform op : Program Op State Unit).Ends perform state ending := by
  refine ⟨(), after, ?_, ends⟩
  rw [exec_perform, enabled]
  rfl

theorem ends_observe {op : Op} {look : State → α} {ending : α → State → Prop}
    (enabled : perform op state = some after) (ends : ending (look state) after) :
    (observe op look).Ends perform state ending := by
  refine ⟨look state, after, ?_, ends⟩
  rw [exec_observe, enabled]
  rfl

theorem Ends.imp {program : Program Op State α} {ending weaker : α → State → Prop}
    (ends : program.Ends perform state ending)
    (weakens : ∀ result after, ending result after → weaker result after) :
    program.Ends perform state weaker := by
  obtain ⟨result, after, executes, holds⟩ := ends
  exact ⟨result, after, executes, weakens _ _ holds⟩

end Ends

/-! ### Simulation -/

/-- In every state that shows `abstract`, the program comes to its end, with a result and in a state
    that shows what `ending` allows. -/
def Simulates (perform : Op → State → Option State) (shows : State → Abstract → Prop)
    (program : Program Op State α) (abstract : Abstract) (ending : α → Abstract → Prop) : Prop :=
  ∀ state, shows state abstract →
    program.Ends perform state fun result after => ∃ next, shows after next ∧ ending result next

variable {shows : State → Abstract → Prop} {abstract next : Abstract}
  {ending : α → Abstract → Prop}

theorem simulates_pure (result : α) (ends : ending result abstract) :
    (Pure.pure result : Program Op State α).Simulates perform shows abstract ending :=
  fun _ shown => ends_pure ⟨abstract, shown, ends⟩

theorem simulates_bind {program : Program Op State α} {rest : α → Program Op State β}
    {ending : β → Abstract → Prop}
    (first : program.Simulates perform shows abstract fun result middle =>
      (rest result).Simulates perform shows middle ending) :
    (program >>= rest).Simulates perform shows abstract ending := by
  intro state shown
  refine ends_bind ((first state shown).imp ?_)
  rintro result middle ⟨abstractMiddle, shownMiddle, second⟩
  exact second middle shownMiddle

theorem Simulates.imp {weaker : α → Abstract → Prop} {program : Program Op State α}
    (simulates : program.Simulates perform shows abstract ending)
    (weakens : ∀ result next, ending result next → weaker result next) :
    program.Simulates perform shows abstract weaker := by
  intro state shown
  refine (simulates state shown).imp ?_
  rintro result after ⟨next, shownAfter, ends⟩
  exact ⟨next, shownAfter, weakens _ _ ends⟩

/-- What shows one abstract state may be taken to show another one. -/
theorem Simulates.of_shows {program : Program Op State α}
    (simulates : program.Simulates perform shows next ending)
    (also : ∀ state, shows state abstract → shows state next) :
    program.Simulates perform shows abstract ending :=
  fun state shown => simulates state (also state shown)

theorem simulates_perform {op : Op} {ending : Unit → Abstract → Prop}
    (enabled : ∀ state, shows state abstract →
      ∃ after, perform op state = some after ∧ shows after next)
    (ends : ending () next) :
    (Program.perform op : Program Op State Unit).Simulates perform shows abstract ending := by
  intro state shown
  obtain ⟨after, performs, shownAfter⟩ := enabled state shown
  exact ends_perform after performs ⟨next, shownAfter, ends⟩

theorem simulates_observe {op : Op} {look : State → α}
    (enabled : ∀ state, shows state abstract → ∃ after next, perform op state = some after ∧
      shows after next ∧ ending (look state) next) :
    (observe op look).Simulates perform shows abstract ending := by
  intro state shown
  obtain ⟨after, next, performs, shownAfter, ends⟩ := enabled state shown
  exact ends_observe performs ⟨next, shownAfter, ends⟩

end Program

end Threads
