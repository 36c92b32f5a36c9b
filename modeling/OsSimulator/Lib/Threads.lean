/-
Module: OsSimulator.Lib.Threads
Purpose: Threads that share a state and are interleaved operation by operation.  A program is a tree
  of operations; a discipline says what the threads of a role have done at each point, and one
  theorem per kind of step carries it, and sums over the threads, along every interleaving.
  Nothing here depends on the operations.
Main exports: Threads.Program, Threads.Thread, Threads.Pool, Threads.Discipline,
  Threads.Program.keeps_bind, Threads.Pool.advance_cases, Threads.Pool.total_set
-/
import Mathlib.Data.List.Basic
import Mathlib.Algebra.Order.BigOperators.Group.List
import Mathlib.Algebra.Order.Ring.Int

namespace Threads

variable {Role Op State α β : Type}

/-! ### Programs -/

/-- What a thread has still to do: operations on the shared state, each followed by a rest that may
    depend on the state in which the operation was performed. -/
inductive Program (Op State α : Type) : Type where
  | done (result : α)
  | step (op : Op) (next : State → Program Op State α)

namespace Program

/-- One program after the other. -/
def bind : Program Op State α → (α → Program Op State β) → Program Op State β
  | .done result, after => after result
  | .step op next, after => .step op fun state => (next state).bind after

instance : Monad (Program Op State) where
  pure := .done
  bind := .bind

/-- A single operation. -/
def perform (op : Op) : Program Op State Unit := .step op fun _ => .done ()

/-- A single operation, and what is seen in the state in which it is performed. -/
def observe (op : Op) (look : State → α) : Program Op State α :=
  .step op fun state => .done (look state)

/-- The operation that the program performs next. -/
def nextOp : Program Op State α → Option Op
  | .done _ => none
  | .step op _ => some op

/-- All operations of the program are allowed, whatever the states are. -/
def Every (allowed : Op → Prop) : Program Op State α → Prop
  | .done _ => True
  | .step op next => allowed op ∧ ∀ state, (next state).Every allowed

end Program

/-! ### Disciplines -/

/-- What the threads of each role have to keep to.  Only relevant operations count; `during` holds of
    what a thread has done, the newest operation first, `ending` when its program is over, and
    `guard` is what may be relied on when an operation is performed. -/
structure Discipline (Role Op State : Type) where
  relevant : Op → Bool
  guard : State → List Op → Op → Prop
  during : Role → List Op → Prop
  ending : Role → List Op → Prop

/-- Add an operation to what a thread has done, if it is relevant. -/
def Discipline.record (discipline : Discipline Role Op State) (op : Op) (trace : List Op) :
    List Op :=
  if discipline.relevant op then op :: trace else trace

namespace Program

/-- After `trace`, the program keeps to the discipline and its result satisfies `ending`. -/
def Keeps (discipline : Discipline Role Op State) (role : Role) (ending : List Op → α → Prop) :
    List Op → Program Op State α → Prop
  | trace, .done result => ending trace result
  | trace, .step op next =>
      ∀ state, discipline.guard state trace op →
        discipline.during role (discipline.record op trace) ∧
          (next state).Keeps discipline role ending (discipline.record op trace)

variable {discipline : Discipline Role Op State} {role : Role} {trace : List Op}

@[simp] theorem keeps_pure {ending : List Op → α → Prop} (result : α) :
    (Pure.pure result : Program Op State α).Keeps discipline role ending trace ↔
      ending trace result := Iff.rfl

/-- A sequence keeps to the discipline if its first part does, with the second part as its end. -/
@[simp] theorem keeps_bind {ending : List Op → β → Prop} (program : Program Op State α)
    (after : α → Program Op State β) :
    (program >>= after).Keeps discipline role ending trace ↔
      program.Keeps discipline role
        (fun trace result => (after result).Keeps discipline role ending trace) trace := by
  induction program generalizing trace with
  | done result => exact Iff.rfl
  | step op next ih =>
      constructor
      · intro keeps state guarded
        have rest := keeps state guarded
        exact ⟨rest.1, (ih state).mp rest.2⟩
      · intro keeps state guarded
        have rest := keeps state guarded
        exact ⟨rest.1, (ih state).mpr rest.2⟩

@[simp] theorem keeps_perform {ending : List Op → Unit → Prop} (op : Op) :
    (perform op : Program Op State Unit).Keeps discipline role ending trace ↔
      ∀ state, discipline.guard state trace op →
        discipline.during role (discipline.record op trace) ∧
          ending (discipline.record op trace) () := Iff.rfl

@[simp] theorem keeps_observe {ending : List Op → α → Prop} (op : Op) (look : State → α) :
    (observe op look).Keeps discipline role ending trace ↔
      ∀ state, discipline.guard state trace op →
        discipline.during role (discipline.record op trace) ∧
          ending (discipline.record op trace) (look state) := Iff.rfl

theorem Keeps.imp {ending weaker : List Op → α → Prop} {program : Program Op State α}
    (weakens : ∀ trace result, ending trace result → weaker trace result)
    (keeps : program.Keeps discipline role ending trace) :
    program.Keeps discipline role weaker trace := by
  induction program generalizing trace with
  | done result => exact weakens trace result keeps
  | step op next ih =>
      intro state guarded
      have rest := keeps state guarded
      exact ⟨rest.1, ih state rest.2⟩

/-- Where a role may do anything, every program keeps to the discipline. -/
theorem keeps_of_free {ending : List Op → α → Prop} (program : Program Op State α)
    (during : ∀ trace, discipline.during role trace) (ends : ∀ trace result, ending trace result) :
    program.Keeps discipline role ending trace := by
  induction program generalizing trace with
  | done result => exact ends trace result
  | step op next ih =>
      intro state _
      exact ⟨during _, ih state⟩

/-- A program without relevant operations leaves the trace as it was. -/
theorem Every.keeps {ending : List Op → α → Prop} {program : Program Op State α}
    (silent : program.Every fun op => discipline.relevant op = false)
    (during : discipline.during role trace) (ends : ∀ result, ending trace result) :
    program.Keeps discipline role ending trace := by
  induction program with
  | done result => exact ends result
  | step op next ih =>
      intro state _
      have same : discipline.record op trace = trace := by
        simp [Discipline.record, silent.1]
      rw [same]
      exact ⟨during, ih state (silent.2 state)⟩

/-- A part without relevant operations can be skipped. -/
theorem Every.keeps_bind {ending : List Op → β → Prop} {program : Program Op State α}
    {after : α → Program Op State β}
    (silent : program.Every fun op => discipline.relevant op = false)
    (during : discipline.during role trace)
    (rest : ∀ result, (after result).Keeps discipline role ending trace) :
    (program >>= after).Keeps discipline role ending trace := by
  rw [Program.keeps_bind]
  exact silent.keeps during rest

/-! ### Programs whose operations are all allowed -/

variable {allowed : Op → Prop}

@[simp] theorem every_pure (result : α) :
    (Pure.pure result : Program Op State α).Every allowed ↔ True := Iff.rfl

@[simp] theorem every_perform (op : Op) :
    (perform op : Program Op State Unit).Every allowed ↔ allowed op := by
  simp [perform, Every]

@[simp] theorem every_observe (op : Op) (look : State → α) :
    (observe op look).Every allowed ↔ allowed op := by
  simp [observe, Every]

/-- Of two programs without a result to hand over, both have to be allowed. -/
@[simp] theorem every_unit_bind [Nonempty State] (program : Program Op State Unit)
    (after : Unit → Program Op State β) :
    (program >>= after).Every allowed ↔ program.Every allowed ∧ (after ()).Every allowed := by
  induction program with
  | done result =>
      change (after ()).Every allowed ↔ True ∧ (after ()).Every allowed
      rw [true_and]
  | step op next ih =>
      change (allowed op ∧ ∀ state, (next state >>= after).Every allowed) ↔
        (allowed op ∧ ∀ state, (next state).Every allowed) ∧ (after ()).Every allowed
      simp only [ih, forall_and, forall_const, and_assoc]

@[simp] theorem every_observe_bind (op : Op) (look : State → α) (after : α → Program Op State β) :
    (observe op look >>= after : Program Op State β).Every allowed ↔
      allowed op ∧ ∀ state, (after (look state)).Every allowed := Iff.rfl

theorem Every.imp {weaker : Op → Prop} {program : Program Op State α}
    (weakens : ∀ op, allowed op → weaker op) (every : program.Every allowed) :
    program.Every weaker := by
  induction program with
  | done result => trivial
  | step op next ih => exact ⟨weakens op every.1, fun state => ih state (every.2 state)⟩

/-- A sequence is allowed if both parts are, the second one for every result of the first. -/
theorem Every.bind {program : Program Op State α} {after : α → Program Op State β}
    (first : program.Every allowed) (second : ∀ result, (after result).Every allowed) :
    (program >>= after).Every allowed := by
  induction program with
  | done result => exact second result
  | step op next ih => exact ⟨first.1, fun state => ih state (first.2 state)⟩

end Program

/-! ### Threads and pools -/

/-- A thread: the role it plays, what it has done in it, the newest operation first, and what it has
    still to do. -/
structure Thread (Role Op State : Type) where
  role : Role
  performed : List Op
  rest : Program Op State Unit

namespace Thread

/-- A thread at the start of its program. -/
def start (role : Role) (program : Program Op State Unit) : Thread Role Op State :=
  { role := role, performed := [], rest := program }

/-- The operation that the thread performs next. -/
def nextOp (thread : Thread Role Op State) : Option Op := thread.rest.nextOp

/-- The program of the thread is over. -/
def Idle (thread : Thread Role Op State) : Prop := thread.nextOp = none

instance [DecidableEq Op] (thread : Thread Role Op State) : Decidable thread.Idle :=
  inferInstanceAs (Decidable (thread.nextOp = none))

/-- What the operations of the thread weigh together. -/
def balance (weight : Op → Int) (thread : Thread Role Op State) : Int :=
  (thread.performed.map weight).sum

/-- The thread keeps to the discipline of its role. -/
def Follows (discipline : Discipline Role Op State) (thread : Thread Role Op State) : Prop :=
  discipline.during thread.role (thread.performed.filter discipline.relevant) ∧
    thread.rest.Keeps discipline thread.role (fun trace _ => discipline.ending thread.role trace)
      (thread.performed.filter discipline.relevant)

variable {discipline : Discipline Role Op State} {thread : Thread Role Op State}

theorem Follows.start {role : Role} {program : Program Op State Unit}
    (during : discipline.during role [])
    (keeps : program.Keeps discipline role (fun trace _ => discipline.ending role trace) []) :
    (Thread.start role program).Follows discipline := ⟨during, keeps⟩

theorem nextOp_of_rest {op : Op} {after : State → Program Op State Unit}
    (rest : thread.rest = .step op after) : thread.nextOp = some op := by
  rw [nextOp, rest]
  rfl

/-- What a thread performs next keeps it to the discipline, if the guard allows it. -/
theorem Follows.during_next {op : Op} (state : State) (follows : thread.Follows discipline)
    (next : thread.nextOp = some op)
    (guarded : discipline.guard state (thread.performed.filter discipline.relevant) op) :
    discipline.during thread.role
      (discipline.record op (thread.performed.filter discipline.relevant)) := by
  have keeps := follows.2
  cases rest : thread.rest with
  | done result => simp [nextOp, rest, Program.nextOp] at next
  | step first after =>
      obtain rfl : first = op := by simpa [nextOp, rest, Program.nextOp] using next
      rw [rest] at keeps
      exact (keeps state guarded).1

/-- Only relevant operations weigh something. -/
theorem balance_filter (discipline : Discipline Role Op State) {weight : Op → Int}
    (weightless : ∀ op, discipline.relevant op = false → weight op = 0) :
    thread.balance weight = ((thread.performed.filter discipline.relevant).map weight).sum := by
  unfold balance
  induction thread.performed with
  | nil => rfl
  | cons op performed ih =>
      by_cases relevant : discipline.relevant op = true
      · simp only [List.filter_cons_of_pos relevant, List.map_cons, List.sum_cons, ih]
      · rw [List.filter_cons_of_neg relevant, List.map_cons, List.sum_cons, ih,
          weightless op (by simpa using relevant), zero_add]

/-- When its program is over, a thread has done what the discipline asks for. -/
theorem Follows.ending (follows : thread.Follows discipline) (idle : thread.Idle) :
    discipline.ending thread.role (thread.performed.filter discipline.relevant) := by
  have keeps := follows.2
  cases rest : thread.rest with
  | done result => simpa [rest, Program.Keeps] using keeps
  | step op next => simp [Idle, nextOp, rest, Program.nextOp] at idle

end Thread

/-- A shared state and the threads that work on it. -/
structure Pool (Role Op State : Type) where
  state : State
  threads : List (Thread Role Op State)

namespace Pool

/-- One thread performs its next operation, if it has one and is not suspended on it. -/
def advance (perform : Op → State → Option State) (index : Nat) (pool : Pool Role Op State) :
    Option (Pool Role Op State) :=
  match pool.threads[index]? with
  | none => none
  | some thread =>
      match thread.rest with
      | .done _ => none
      | .step op next =>
          (perform op pool.state).map fun after =>
            { state := after
              threads := pool.threads.set index
                { thread with performed := op :: thread.performed, rest := next pool.state } }

/-- A thread that is idle is given another program; it may change its role. -/
def restart [DecidableEq Op] (index : Nat) (role : Role) (program : Program Op State Unit)
    (pool : Pool Role Op State) : Option (Pool Role Op State) :=
  match pool.threads[index]? with
  | none => none
  | some thread =>
      if thread.Idle then
        some { pool with threads := pool.threads.set index (.start role program) }
      else
        none

/-- A thread is created. -/
def spawn (role : Role) (program : Program Op State Unit) (pool : Pool Role Op State) :
    Pool Role Op State :=
  { pool with threads := pool.threads ++ [.start role program] }

/-- The operation that the thread at `index` performs next. -/
def nextOp (index : Nat) (pool : Pool Role Op State) : Option Op :=
  pool.threads[index]?.bind Thread.nextOp

/-- Every thread keeps to the discipline of its role. -/
def Follows (discipline : Discipline Role Op State) (pool : Pool Role Op State) : Prop :=
  ∀ thread ∈ pool.threads, thread.Follows discipline

/-- A sum over all threads. -/
def total (measure : Thread Role Op State → Int) (pool : Pool Role Op State) : Int :=
  (pool.threads.map measure).sum

variable {perform : Op → State → Option State} {pool next : Pool Role Op State} {index : Nat}
  {discipline : Discipline Role Op State}

/-- The inversion lemma of `advance`. -/
theorem advance_cases (advanced : pool.advance perform index = some next) :
    ∃ thread op rest after, pool.threads[index]? = some thread ∧
      thread.rest = .step op rest ∧ perform op pool.state = some after ∧
      next = { state := after
               threads := pool.threads.set index
                 { thread with performed := op :: thread.performed, rest := rest pool.state } } := by
  unfold advance at advanced
  split at advanced
  · cases advanced
  · rename_i thread at_index
    split at advanced
    · cases advanced
    · rename_i op rest program
      obtain ⟨after, performed, rfl⟩ := Option.map_eq_some_iff.mp advanced
      exact ⟨thread, op, rest, after, at_index, program, performed, rfl⟩

theorem restart_cases [DecidableEq Op] {role : Role} {program : Program Op State Unit}
    (restarted : pool.restart index role program = some next) :
    ∃ thread, pool.threads[index]? = some thread ∧ thread.Idle ∧
      next = { pool with threads := pool.threads.set index (.start role program) } := by
  unfold restart at restarted
  split at restarted
  · cases restarted
  · rename_i thread at_index
    obtain ⟨idle, result⟩ := Option.ite_none_right_eq_some.mp restarted
    exact ⟨thread, at_index, idle, (Option.some.inj result).symm⟩

/-- A thread after another was replaced by a similar one is similar to the one at its place. -/
theorem getElem?_of_set (feature : Thread Role Op State → β)
    {old new thread : Thread Role Op State} {other : Nat}
    (at_index : pool.threads[index]? = some old) (same : feature new = feature old)
    (at_other : (pool.threads.set index new)[other]? = some thread) :
    ∃ before, pool.threads[other]? = some before ∧ feature before = feature thread := by
  by_cases here : index = other
  · subst here
    obtain ⟨inside, _⟩ := List.getElem?_eq_some_iff.mp at_index
    rw [List.getElem?_set_self inside] at at_other
    obtain rfl := Option.some.inj at_other
    exact ⟨old, at_index, same.symm⟩
  · rw [List.getElem?_set_ne here] at at_other
    exact ⟨thread, at_other, rfl⟩

/-- A thread after another was created is an old one or the new one. -/
theorem getElem?_of_spawn {role : Role} {program : Program Op State Unit}
    {thread : Thread Role Op State}
    (at_index : (pool.spawn role program).threads[index]? = some thread) :
    pool.threads[index]? = some thread ∨
      index = pool.threads.length ∧ thread = .start role program := by
  change (pool.threads ++ [Thread.start role program])[index]? = some thread at at_index
  by_cases inside : index < pool.threads.length
  · rw [List.getElem?_append_left inside] at at_index
    exact .inl at_index
  · rw [List.getElem?_append_right (not_lt.mp inside), List.getElem?_singleton] at at_index
    obtain ⟨here, created⟩ := Option.ite_none_right_eq_some.mp at_index
    exact .inr ⟨by omega, (Option.some.inj created).symm⟩

/-! ### Following a discipline -/

theorem Follows.set {thread : Thread Role Op State} (follows : pool.Follows discipline)
    (threadFollows : thread.Follows discipline) (state : State) :
    ({ state := state, threads := pool.threads.set index thread } :
      Pool Role Op State).Follows discipline := by
  intro other member
  rcases List.mem_or_eq_of_mem_set member with old | rfl
  · exact follows other old
  · exact threadFollows

/-- An operation that its guard allows keeps all threads to the discipline. -/
theorem Follows.advance (follows : pool.Follows discipline)
    (guarded : ∀ thread op, pool.threads[index]? = some thread → thread.nextOp = some op →
      discipline.guard pool.state (thread.performed.filter discipline.relevant) op)
    (advanced : pool.advance perform index = some next) : next.Follows discipline := by
  obtain ⟨thread, op, rest, after, at_index, program, _, rfl⟩ := advance_cases advanced
  apply follows.set
  have keeps := (follows thread (List.mem_of_getElem? at_index)).2
  rw [program] at keeps
  have recorded : (op :: thread.performed).filter discipline.relevant =
      discipline.record op (thread.performed.filter discipline.relevant) := by
    rw [List.filter_cons, Discipline.record]
  have moved := keeps pool.state
    (guarded thread op at_index (by simp [Thread.nextOp, program, Program.nextOp]))
  rw [← recorded] at moved
  exact moved

theorem Follows.spawn {role : Role} {program : Program Op State Unit}
    (follows : pool.Follows discipline) (during : discipline.during role [])
    (keeps : program.Keeps discipline role (fun trace _ => discipline.ending role trace) []) :
    (pool.spawn role program).Follows discipline := by
  intro thread member
  rcases List.mem_append.mp member with old | new
  · exact follows thread old
  · rw [List.mem_singleton.mp new]
    exact .start during keeps

/-! ### Sums over the threads -/

theorem sum_map_set (measure : α → Int) {list : List α} {old : α} (new : α)
    (at_index : list[index]? = some old) :
    ((list.set index new).map measure).sum + measure old =
      (list.map measure).sum + measure new := by
  induction list generalizing index with
  | nil => simp at at_index
  | cons head tail ih =>
      cases index with
      | zero =>
          obtain rfl : head = old := by simpa using at_index
          simp only [List.set_cons_zero, List.map_cons, List.sum_cons]
          omega
      | succ index =>
          have rest := ih (by simpa using at_index)
          simp only [List.set_cons_succ, List.map_cons, List.sum_cons]
          omega

/-- Replacing a thread changes the sum by the difference of the two. -/
theorem total_set (measure : Thread Role Op State → Int) {old : Thread Role Op State}
    (new : Thread Role Op State) (state : State) (at_index : pool.threads[index]? = some old) :
    ({ state := state, threads := pool.threads.set index new } : Pool Role Op State).total
        measure + measure old =
      pool.total measure + measure new :=
  sum_map_set measure new at_index

theorem total_spawn (measure : Thread Role Op State → Int) (role : Role)
    (program : Program Op State Unit) :
    (pool.spawn role program).total measure =
      pool.total measure + measure (.start role program) := by
  simp [total, spawn]

theorem total_add (first second : Thread Role Op State → Int) :
    pool.total (fun thread => first thread + second thread) =
      pool.total first + pool.total second :=
  List.sum_map_add

/-- A sum of ones counts. -/
theorem total_ite (property : Thread Role Op State → Prop) [DecidablePred property] :
    pool.total (fun thread => if property thread then 1 else 0) =
      pool.threads.countP fun thread => property thread := by
  unfold total
  induction pool.threads with
  | nil => rfl
  | cons thread threads ih =>
      rw [List.map_cons, List.sum_cons, List.countP_cons, ih]
      by_cases holds : property thread
      · simp only [holds, if_true, decide_true]
        omega
      · simp [holds]

/-- Replacing a thread by one with the same property leaves the count as it was. -/
theorem countP_set {property : Thread Role Op State → Prop} [DecidablePred property]
    {old : Thread Role Op State} {new : Thread Role Op State}
    (at_index : pool.threads[index]? = some old) (same : property new ↔ property old) :
    ((pool.threads.set index new).countP fun thread => property thread) =
      pool.threads.countP fun thread => property thread := by
  have moved := total_set (fun thread => if property thread then 1 else 0) new pool.state at_index
  rw [total_ite, total_ite] at moved
  simp only [same] at moved
  omega

/-- If at most one thread has the property, the count says whether there is one. -/
theorem ite_exists_eq_countP {property : Thread Role Op State → Prop} [DecidablePred property]
    (unique : (pool.threads.countP fun thread => property thread) ≤ 1) :
    (if ∃ thread ∈ pool.threads, property thread then 1 else 0) =
      pool.threads.countP fun thread => property thread := by
  split
  · rename_i some_thread
    have positive := List.countP_pos_iff.mpr
      (by simpa using some_thread : ∃ thread ∈ pool.threads, decide (property thread) = true)
    omega
  · rename_i no_thread
    rw [eq_comm, List.countP_eq_zero]
    intro thread member holds
    exact no_thread ⟨thread, member, by simpa using holds⟩

theorem total_congr {first second : Thread Role Op State → Int}
    (same : ∀ thread ∈ pool.threads, first thread = second thread) :
    pool.total first = pool.total second :=
  congrArg List.sum (List.map_congr_left same)

/-- The measure of one thread is at most the sum, if no measure is negative. -/
theorem le_total {measure : Thread Role Op State → Int} {thread : Thread Role Op State}
    (nonneg : ∀ other ∈ pool.threads, 0 ≤ measure other) (member : thread ∈ pool.threads) :
    measure thread ≤ pool.total measure := by
  apply List.single_le_sum
  · intro value isMeasure
    obtain ⟨other, otherMember, rfl⟩ := List.mem_map.mp isMeasure
    exact nonneg other otherMember
  · exact List.mem_map_of_mem member

/-- If every operation changes a value by as much as it weighs, then the value and the balances of
    all threads have a constant sum. -/
theorem balance_advance {weight : Op → Int} {value : State → Int}
    (changes : ∀ thread op after, pool.threads[index]? = some thread → thread.nextOp = some op →
      perform op pool.state = some after → value after + weight op = value pool.state)
    (advanced : pool.advance perform index = some next) :
    value next.state + next.total (·.balance weight) =
      value pool.state + pool.total (·.balance weight) := by
  obtain ⟨thread, op, rest, after, at_index, program, performed, rfl⟩ := advance_cases advanced
  have change := changes thread op after at_index
    (by simp [Thread.nextOp, program, Program.nextOp]) performed
  have moved := total_set (·.balance weight)
    { thread with performed := op :: thread.performed, rest := rest pool.state } after at_index
  have weighed : Thread.balance weight
      { thread with performed := op :: thread.performed, rest := rest pool.state } =
        weight op + thread.balance weight := List.sum_cons
  rw [weighed] at moved
  change value after + _ = _
  omega

/-- A thread whose balance is zero can be given another program. -/
theorem balance_restart {weight : Op → Int} {thread : Thread Role Op State} (role : Role)
    (program : Program Op State Unit) (at_index : pool.threads[index]? = some thread)
    (zero : thread.balance weight = 0) :
    ({ pool with threads := pool.threads.set index (.start role program) } :
      Pool Role Op State).total (·.balance weight) = pool.total (·.balance weight) := by
  have moved := total_set (·.balance weight) (.start role program) pool.state at_index
  have started : (Thread.start role program).balance weight = 0 := rfl
  omega

theorem balance_spawn (weight : Op → Int) (role : Role) (program : Program Op State Unit) :
    (pool.spawn role program).total (·.balance weight) = pool.total (·.balance weight) := by
  rw [total_spawn]
  exact add_zero _

end Pool

end Threads
