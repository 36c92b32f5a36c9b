/-
Module: OsSimulator.Lib.Budgets
Purpose: Threads that have tokens in hand.  Every operation gives its thread tokens or costs some, and a
  program affords its operations if it never pays with a token that it does not have; then what all
  threads have in hand together changes by no more than the operation that is performed says.
  Nothing here depends on the operations.
Main exports: Threads.Budget, Threads.Program.Affords, Threads.Thread.inHand, Threads.Pool.Affords,
  Threads.Pool.affords_start, Threads.Pool.Affords.advance, Threads.Pool.Affords.restart,
  Threads.Pool.Affords.spawn
-/
import OsSimulator.Lib.Threads

namespace Threads

variable {Role Op State α β : Type}

/-- What a thread has in hand when it starts in a role, and what each operation then gives it. -/
structure Budget (Role Op : Type) where
  initial : Role → Int
  gain : Role → Op → Int

namespace Program

/-- With so many tokens in hand, the program never pays with one that it does not have, whatever the
    states are; what is left at its end satisfies `ending`. -/
def Affords (gain : Op → Int) (ending : Int → α → Prop) : Int → Program Op State α → Prop
  | tokens, .done result => ending tokens result
  | tokens, .step op next =>
      0 ≤ tokens + gain op ∧ ∀ state, (next state).Affords gain ending (tokens + gain op)

variable {gain : Op → Int} {tokens : Int}

@[simp] theorem affords_pure {ending : Int → α → Prop} (result : α) :
    (Pure.pure result : Program Op State α).Affords gain ending tokens ↔ ending tokens result :=
  Iff.rfl

@[simp] theorem affords_perform [Nonempty State] {ending : Int → Unit → Prop} (op : Op) :
    (perform op : Program Op State Unit).Affords gain ending tokens ↔
      0 ≤ tokens + gain op ∧ ending (tokens + gain op) () := by
  simp [perform, Affords]

@[simp] theorem affords_observe {ending : Int → α → Prop} (op : Op)
    (look : State → α) :
    (observe op look).Affords gain ending tokens ↔
      0 ≤ tokens + gain op ∧ ∀ state, ending (tokens + gain op) (look state) := Iff.rfl

/-- A sequence affords its operations if its first part does, with the second part as its end. -/
@[simp] theorem affords_bind {ending : Int → β → Prop} (program : Program Op State α)
    (after : α → Program Op State β) :
    (program >>= after).Affords gain ending tokens ↔
      program.Affords gain (fun tokens result => (after result).Affords gain ending tokens)
        tokens := by
  induction program generalizing tokens with
  | done result => exact Iff.rfl
  | step op next ih =>
      constructor
      · intro affords
        exact ⟨affords.1, fun state => (ih state).mp (affords.2 state)⟩
      · intro affords
        exact ⟨affords.1, fun state => (ih state).mpr (affords.2 state)⟩

/-- A program whose operations neither give nor cost anything. -/
theorem Every.affords {ending : Int → α → Prop} {program : Program Op State α}
    (free : program.Every fun op => gain op = 0) (nonneg : 0 ≤ tokens)
    (ends : ∀ result, ending tokens result) : program.Affords gain ending tokens := by
  induction program with
  | done result => exact ends result
  | step op next ih =>
      have same : tokens + gain op = tokens := by rw [free.1, add_zero]
      refine ⟨same.symm ▸ nonneg, fun state => ?_⟩
      rw [same]
      exact ih state (free.2 state)

/-- A part whose operations neither give nor cost anything can be skipped. -/
theorem Every.affords_bind {ending : Int → β → Prop} {program : Program Op State α}
    {after : α → Program Op State β} (free : program.Every fun op => gain op = 0)
    (nonneg : 0 ≤ tokens) (rest : ∀ result, (after result).Affords gain ending tokens) :
    (program >>= after).Affords gain ending tokens := by
  rw [Program.affords_bind]
  exact free.affords nonneg rest

end Program

variable {budget : Budget Role Op}

namespace Thread

/-- The tokens that the thread has in hand; those it has left when its program is over are forgotten. -/
def inHand [DecidableEq Op] (budget : Budget Role Op) (thread : Thread Role Op State) : Int :=
  if thread.Idle then 0
  else budget.initial thread.role + (thread.performed.map (budget.gain thread.role)).sum

/-- The thread has at least no debt, and affords the rest of its program. -/
structure Affords [DecidableEq Op] (budget : Budget Role Op) (thread : Thread Role Op State) :
    Prop where
  nonneg : 0 ≤ thread.inHand budget
  rest : thread.rest.Affords (budget.gain thread.role) (fun _ _ => True) (thread.inHand budget)

variable [DecidableEq Op] {thread : Thread Role Op State}

theorem inHand_of_nextOp {op : Op} (next : thread.nextOp = some op) :
    thread.inHand budget =
      budget.initial thread.role + (thread.performed.map (budget.gain thread.role)).sum := by
  apply if_neg
  rw [Idle, next]
  exact Option.some_ne_none op

/-- What the thread performs next is paid for. -/
theorem Affords.pays {op : Op} (affords : thread.Affords budget) (next : thread.nextOp = some op) :
    0 ≤ thread.inHand budget + budget.gain thread.role op := by
  have rest := affords.rest
  cases program : thread.rest with
  | done result => simp [nextOp, program, Program.nextOp] at next
  | step first after =>
      obtain rfl : first = op := by simpa [nextOp, program, Program.nextOp] using next
      rw [program] at rest
      exact rest.1

/-- A thread that starts a program which affords its operations. -/
theorem Affords.start {role : Role} {program : Program Op State Unit}
    (nonneg : 0 ≤ budget.initial role)
    (affords : program.Affords (budget.gain role) (fun _ _ => True) (budget.initial role)) :
    (Thread.start role program).Affords budget ∧
      (Thread.start role program).inHand budget ≤ budget.initial role := by
  cases program with
  | done result => exact ⟨⟨le_refl 0, trivial⟩, nonneg⟩
  | step op next =>
      have all : (Thread.start role (.step op next) : Thread Role Op State).inHand budget =
          budget.initial role := add_zero _
      refine ⟨⟨all.symm ▸ nonneg, ?_⟩, all.le⟩
      rw [all]
      exact affords

end Thread

namespace Pool

/-- Every thread affords the rest of its program. -/
def Affords [DecidableEq Op] (budget : Budget Role Op) (pool : Pool Role Op State) : Prop :=
  ∀ thread ∈ pool.threads, thread.Affords budget

variable [DecidableEq Op] {perform : Op → State → Option State} {pool next : Pool Role Op State}
  {index : Nat}

theorem Affords.total_nonneg (affords : pool.Affords budget) :
    0 ≤ pool.total (Thread.inHand budget) := by
  apply List.sum_nonneg
  intro tokens member
  obtain ⟨thread, inside, rfl⟩ := List.mem_map.mp member
  exact (affords thread inside).nonneg

/-- A thread that is replaced by one which affords the rest of its program. -/
theorem Affords.set {old new : Thread Role Op State} (affords : pool.Affords budget)
    (at_index : pool.threads[index]? = some old) (newAffords : new.Affords budget) (state : State) :
    ({ state := state, threads := pool.threads.set index new } :
        Pool Role Op State).Affords budget ∧
      ({ state := state, threads := pool.threads.set index new } : Pool Role Op State).total
          (Thread.inHand budget) + old.inHand budget =
        pool.total (Thread.inHand budget) + new.inHand budget := by
  refine ⟨?_, total_set _ _ _ at_index⟩
  intro thread member
  rcases List.mem_or_eq_of_mem_set member with before | rfl
  · exact affords thread before
  · exact newAffords

/-- Two different threads have no more in hand than all together. -/
theorem Affords.add_le_total (affords : pool.Affords budget) {first second : Thread Role Op State}
    (firstInside : first ∈ pool.threads) (secondInside : second ∈ pool.threads)
    (different : first ≠ second) :
    first.inHand budget + second.inHand budget ≤ pool.total (Thread.inHand budget) := by
  obtain ⟨index, at_index⟩ := List.getElem?_of_mem firstInside
  obtain ⟨other, at_other⟩ := List.getElem?_of_mem secondInside
  have elsewhere : index ≠ other := by
    rintro rfl
    exact different (Option.some.inj (at_index.symm.trans at_other))
  let finished : Thread Role Op State := { first with rest := .done () }
  have nothing : finished.inHand budget = 0 := if_pos rfl
  have finishedAffords : finished.Affords budget := ⟨nothing.ge, trivial⟩
  obtain ⟨othersAfford, books⟩ := affords.set at_index finishedAffords pool.state
  have still : second ∈ pool.threads.set index finished := by
    apply List.mem_of_getElem?
    rw [List.getElem?_set_ne elsewhere]
    exact at_other
  have atMost := le_total (fun thread inside => (othersAfford thread inside).nonneg) still
  omega

/-- Threads that all start have no more in hand than their roles give them. -/
theorem affords_start {programs : Role → Program Op State Unit}
    (affords : ∀ role, 0 ≤ budget.initial role ∧
      (programs role).Affords (budget.gain role) (fun _ _ => True) (budget.initial role))
    (state : State) (roles : List Role) :
    ({ state := state, threads := roles.map fun role => .start role (programs role) } :
        Pool Role Op State).Affords budget ∧
      ({ state := state, threads := roles.map fun role => .start role (programs role) } :
        Pool Role Op State).total (Thread.inHand budget) ≤ (roles.map budget.initial).sum := by
  induction roles with
  | nil => exact ⟨fun thread member => absurd member List.not_mem_nil, le_refl 0⟩
  | cons role roles ih =>
      obtain ⟨started, atMost⟩ := Thread.Affords.start (affords role).1 (affords role).2
      constructor
      · intro thread member
        rcases List.mem_cons.mp member with rfl | later
        · exact started
        · exact ih.1 thread later
      · have others := ih.2
        simp only [total, List.map_cons, List.sum_cons] at others ⊢
        omega

/-- What all have in hand changes by no more than the operation says, and if it is paid for, somebody had
    a token. -/
theorem Affords.advance (affords : pool.Affords budget)
    (advanced : pool.advance perform index = some next) :
    ∃ thread op, pool.threads[index]? = some thread ∧ thread.nextOp = some op ∧
      perform op pool.state = some next.state ∧ next.Affords budget ∧
      next.total (Thread.inHand budget) ≤
        pool.total (Thread.inHand budget) + budget.gain thread.role op ∧
      0 ≤ thread.inHand budget + budget.gain thread.role op := by
  obtain ⟨thread, op, rest, after, at_index, program, performed, rfl⟩ := advance_cases advanced
  have member := List.mem_of_getElem? at_index
  have nextOp := Thread.nextOp_of_rest program
  have affordsOp := (affords thread member).rest
  rw [program] at affordsOp
  let moved : Thread Role Op State :=
    { thread with performed := op :: thread.performed, rest := rest pool.state }
  have atMost : moved.inHand budget ≤ thread.inHand budget + budget.gain thread.role op := by
    rw [Thread.inHand_of_nextOp nextOp, Thread.inHand]
    split
    · rw [Thread.inHand_of_nextOp nextOp] at affordsOp
      exact affordsOp.1
    · apply le_of_eq
      simp only [moved, List.map_cons, List.sum_cons]
      omega
  have movedAffords : moved.Affords budget := by
    by_cases idle : moved.Idle
    · have nothing : moved.inHand budget = 0 := if_pos idle
      cases ended : rest pool.state with
      | done result =>
          refine ⟨nothing.ge, ?_⟩
          rw [show moved.rest = .done result from ended]
          trivial
      | step other later => simp [moved, Thread.Idle, Thread.nextOp, ended, Program.nextOp] at idle
    · have all : moved.inHand budget = thread.inHand budget + budget.gain thread.role op := by
        rw [Thread.inHand_of_nextOp nextOp, Thread.inHand, if_neg idle]
        simp only [moved, List.map_cons, List.sum_cons]
        omega
      refine ⟨all.symm ▸ affordsOp.1, ?_⟩
      rw [all]
      exact affordsOp.2 pool.state
  obtain ⟨nextAffords, books⟩ := affords.set at_index movedAffords after
  refine ⟨thread, op, at_index, nextOp, performed, nextAffords, ?_, affordsOp.1⟩
  change total _ { state := after, threads := pool.threads.set index moved } ≤ _
  omega

/-- A thread starts again; what it had in hand is forgotten. -/
theorem Affords.restart {old : Thread Role Op State} {role : Role} {program : Program Op State Unit}
    (affords : pool.Affords budget) (at_index : pool.threads[index]? = some old)
    (nonneg : 0 ≤ budget.initial role)
    (programAffords : program.Affords (budget.gain role) (fun _ _ => True) (budget.initial role)) :
    ({ pool with threads := pool.threads.set index (.start role program) } :
        Pool Role Op State).Affords budget ∧
      ({ pool with threads := pool.threads.set index (.start role program) } :
        Pool Role Op State).total (Thread.inHand budget) ≤
        pool.total (Thread.inHand budget) + budget.initial role := by
  obtain ⟨started, atMost⟩ := Thread.Affords.start nonneg programAffords
  obtain ⟨nextAffords, books⟩ := affords.set at_index started pool.state
  have oldNonneg := (affords old (List.mem_of_getElem? at_index)).nonneg
  refine ⟨nextAffords, ?_⟩
  omega

/-- A thread is created. -/
theorem Affords.spawn {role : Role} {program : Program Op State Unit} (affords : pool.Affords budget)
    (nonneg : 0 ≤ budget.initial role)
    (programAffords : program.Affords (budget.gain role) (fun _ _ => True) (budget.initial role)) :
    (pool.spawn role program).Affords budget ∧
      (pool.spawn role program).total (Thread.inHand budget) ≤
        pool.total (Thread.inHand budget) + budget.initial role := by
  obtain ⟨started, atMost⟩ := Thread.Affords.start nonneg programAffords
  constructor
  · intro thread member
    rcases List.mem_append.mp member with before | created
    · exact affords thread before
    · rw [List.mem_singleton.mp created]
      exact started
  · rw [total_spawn]
    omega

end Pool

end Threads
