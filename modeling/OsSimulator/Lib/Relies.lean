/-
Module: OsSimulator.Lib.Relies
Purpose: Threads that rely on one another.  What a thread has seen of the shared state stays true of
  every later state, and of the states themselves an invariant holds as long as every operation is one
  that is allowed; a program relies on both if, whatever the others do in between, its own operations
  are allowed.
  Nothing here depends on the operations.
Main exports: Threads.Rely, Threads.Program.Relies, Threads.Program.Relies.bind, Threads.Program.After,
  Threads.Pool.Relies, Threads.Pool.Relies.advance
-/
import OsSimulator.Lib.Threads

namespace Threads

variable {Role Op State α β : Type}

/-- How the shared state develops: what may be relied on of later states, what holds of all of them,
    what is assumed of an operation when it is performed, and what has to be guaranteed then. -/
structure Rely (Op State : Type) where
  perform : Op → State → Option State
  later : State → State → Prop
  holds : State → Prop
  assumed : State → Op → Prop
  allowed : State → Op → Prop
  refl : ∀ state, later state state
  trans : ∀ {first second third}, later first second → later second third → later first third
  step : ∀ {state after op}, holds state → assumed state op → allowed state op →
    perform op state = some after → later state after ∧ holds after

namespace Program

variable {rely : Rely Op State}

/-- From `state` on, whatever happens in between, all operations of the program are allowed, and its
    result satisfies `ending`. -/
def Relies (rely : Rely Op State) (ending : State → α → Prop) : State → Program Op State α → Prop
  | state, .done result => ending state result
  | state, .step op next =>
      ∀ now, rely.later state now → rely.holds now → rely.assumed now op →
        rely.allowed now op ∧ ∀ after, rely.perform op now = some after →
          (next now).Relies rely ending after

variable {state : State}

@[simp] theorem relies_pure {ending : State → α → Prop} (result : α) :
    (Pure.pure result : Program Op State α).Relies rely ending state ↔ ending state result := Iff.rfl

/-- A sequence relies on the others if its first part does, with the second part as its end. -/
theorem relies_bind {ending : State → β → Prop} (program : Program Op State α)
    (after : α → Program Op State β) :
    (program >>= after).Relies rely ending state ↔
      program.Relies rely (fun state result => (after result).Relies rely ending state) state := by
  induction program generalizing state with
  | done result => exact Iff.rfl
  | step op next ih =>
      constructor
      · intro relies now later holds assumed
        obtain ⟨allowed, rest⟩ := relies now later holds assumed
        exact ⟨allowed, fun last performed => (ih now).mp (rest last performed)⟩
      · intro relies now later holds assumed
        obtain ⟨allowed, rest⟩ := relies now later holds assumed
        exact ⟨allowed, fun last performed => (ih now).mpr (rest last performed)⟩

/-- A single operation. -/
theorem relies_observe {ending : State → α → Prop} {op : Op} {look : State → α}
    (allowed : ∀ now, rely.later state now → rely.holds now → rely.assumed now op →
      rely.allowed now op)
    (ends : ∀ now after, rely.later state now → rely.holds now → rely.perform op now = some after →
      rely.later now after → ending after (look now)) :
    (observe op look).Relies rely ending state := by
  intro now later holds assumed
  have guaranteed := allowed now later holds assumed
  refine ⟨guaranteed, fun after performed => ?_⟩
  exact ends now after later holds performed (rely.step holds assumed guaranteed performed).1

theorem relies_perform {op : Op}
    (allowed : ∀ now, rely.later state now → rely.holds now → rely.assumed now op →
      rely.allowed now op) : (perform op).Relies rely (fun _ _ => True) state :=
  fun now later holds assumed => ⟨allowed now later holds assumed, fun _ _ => trivial⟩

theorem Relies.imp {ending weaker : State → α → Prop} {program : Program Op State α}
    (weakens : ∀ last result, rely.later state last → ending last result → weaker last result)
    (relies : program.Relies rely ending state) : program.Relies rely weaker state := by
  induction program generalizing state with
  | done result => exact weakens state result (rely.refl state) relies
  | step op next ih =>
      intro now later holds assumed
      obtain ⟨allowed, rest⟩ := relies now later holds assumed
      refine ⟨allowed, fun after performed => ih now (fun last result further => ?_)
        (rest after performed)⟩
      have moved := (rely.step holds assumed allowed performed).1
      exact weakens last result (rely.trans later (rely.trans moved further))

/-- A sequence relies on the others if its first part does, and the second one does wherever the first
    one may end. -/
theorem Relies.bind {first : State → α → Prop} {ending : State → β → Prop}
    {program : Program Op State α} {after : α → Program Op State β}
    (relies : program.Relies rely first state)
    (rest : ∀ last result, rely.later state last → first last result →
      (after result).Relies rely ending last) : (program >>= after).Relies rely ending state := by
  rw [relies_bind]
  exact relies.imp rest

/-- What a thread relies on does not go away. -/
theorem Relies.later {ending : State → α → Prop} {program : Program Op State α} {now : State}
    (stable : ∀ {first last result}, rely.later first last → ending first result →
      ending last result)
    (relies : program.Relies rely ending state) (moved : rely.later state now) :
    program.Relies rely ending now := by
  cases program with
  | done result => exact stable moved relies
  | step op next => exact fun last further => relies last (rely.trans moved further)

/-- A program whose operations are allowed in every state. -/
theorem Every.relies {program : Program Op State α}
    (free : program.Every fun op => ∀ now, rely.allowed now op) :
    program.Relies rely (fun _ _ => True) state := by
  induction program generalizing state with
  | done result => trivial
  | step op next ih =>
      intro now _ _ _
      exact ⟨free.1 now, fun after _ => ih now (free.2 now)⟩

/-! ### What is left after an operation -/

/-- Whenever the program has performed a chosen operation, what is left of it is good. -/
def After (chosen : Op → Prop) (good : Program Op State α → Prop) : Program Op State α → Prop
  | .done _ => True
  | .step op next => ∀ state, (chosen op → good (next state)) ∧ (next state).After chosen good

variable {chosen : Op → Prop}

/-- A program that performs no chosen operation. -/
theorem Every.after {good : Program Op State α → Prop} {program : Program Op State α}
    (none : program.Every fun op => ¬ chosen op) : program.After chosen good := by
  induction program with
  | done result => trivial
  | step op next ih => exact fun state => ⟨fun is => absurd is none.1, ih state (none.2 state)⟩

theorem After.bind {good : Program Op State α → Prop} {goodAfter : Program Op State β → Prop}
    {program : Program Op State α} {after : α → Program Op State β}
    (goes : ∀ rest, good rest → goodAfter (rest >>= after)) (first : program.After chosen good)
    (second : ∀ result, (after result).After chosen goodAfter) :
    (program >>= after).After chosen goodAfter := by
  induction program with
  | done result => exact second result
  | step op next ih =>
      exact fun state => ⟨fun is => goes _ ((first state).1 is), ih state (first state).2⟩

/-- A part that performs no chosen operation can be skipped. -/
theorem Every.after_bind {good : Program Op State β → Prop} {program : Program Op State α}
    {after : α → Program Op State β} (none : program.Every fun op => ¬ chosen op)
    (second : ∀ result, (after result).After chosen good) :
    (program >>= after).After chosen good := by
  induction program with
  | done result => exact second result
  | step op next ih => exact fun state => ⟨fun is => absurd is none.1, ih state (none.2 state)⟩

end Program

namespace Pool

variable {rely : Rely Op State} {pool next : Pool Role Op State} {index : Nat}

/-- The invariant holds, and every thread relies on the others. -/
structure Relies (rely : Rely Op State) (pool : Pool Role Op State) : Prop where
  holds : rely.holds pool.state
  threads : ∀ thread ∈ pool.threads, thread.rest.Relies rely (fun _ _ => True) pool.state

/-- What a thread performs next is allowed. -/
theorem Relies.allowed {thread : Thread Role Op State} {op : Op} (relies : pool.Relies rely)
    (at_index : pool.threads[index]? = some thread) (nextOp : thread.nextOp = some op)
    (assumed : rely.assumed pool.state op) : rely.allowed pool.state op := by
  have program := relies.threads thread (List.mem_of_getElem? at_index)
  cases rest : thread.rest with
  | done result => simp [Thread.nextOp, rest, Program.nextOp] at nextOp
  | step first next =>
      obtain rfl : first = op := by simpa [Thread.nextOp, rest, Program.nextOp] using nextOp
      rw [rest] at program
      exact (program pool.state (rely.refl _) relies.holds assumed).1

/-- A thread performs its next operation. -/
theorem Relies.advance (relies : pool.Relies rely)
    (assumed : ∀ op, pool.nextOp index = some op → rely.assumed pool.state op)
    (advanced : pool.advance rely.perform index = some next) : next.Relies rely := by
  obtain ⟨thread, op, rest, after, at_index, program, performed, rfl⟩ := advance_cases advanced
  have nextOp : pool.nextOp index = some op := by
    rw [Pool.nextOp, at_index]
    exact Thread.nextOp_of_rest program
  have programRelies := relies.threads thread (List.mem_of_getElem? at_index)
  rw [program] at programRelies
  obtain ⟨allowed, continues⟩ :=
    programRelies pool.state (rely.refl _) relies.holds (assumed op nextOp)
  obtain ⟨moved, holds⟩ := rely.step relies.holds (assumed op nextOp) allowed performed
  refine ⟨holds, fun other member => ?_⟩
  rcases List.mem_or_eq_of_mem_set member with before | rfl
  · exact (relies.threads other before).later (fun _ => id) moved
  · exact continues after performed

/-- The state changes in a way on which the threads can rely. -/
theorem Relies.environment {state : State} (relies : pool.Relies rely)
    (moved : rely.later pool.state state) (holds : rely.holds state) :
    ({ pool with state := state } : Pool Role Op State).Relies rely where
  holds := holds
  threads thread member := (relies.threads thread member).later (fun _ => id) moved

/-- A thread is given a program that relies on the others. -/
theorem Relies.set {role : Role} {program : Program Op State Unit} (relies : pool.Relies rely)
    (programRelies : program.Relies rely (fun _ _ => True) pool.state) :
    ({ pool with threads := pool.threads.set index (.start role program) } :
      Pool Role Op State).Relies rely where
  holds := relies.holds
  threads thread member := by
    rcases List.mem_or_eq_of_mem_set member with before | rfl
    · exact relies.threads thread before
    · exact programRelies

/-- A thread is created. -/
theorem Relies.spawn {role : Role} {program : Program Op State Unit} (relies : pool.Relies rely)
    (programRelies : program.Relies rely (fun _ _ => True) pool.state) :
    (pool.spawn role program).Relies rely where
  holds := relies.holds
  threads thread member := by
    rcases List.mem_append.mp member with before | created
    · exact relies.threads thread before
    · rw [List.mem_singleton.mp created]
      exact programRelies

end Pool

end Threads
