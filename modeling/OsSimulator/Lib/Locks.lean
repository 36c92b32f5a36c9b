/-
Module: OsSimulator.Lib.Locks
Purpose: Threads that take locks in the order of a rank, one after the other and inside each other, and
  wait for nothing else while they hold one.  Such threads exclude each other from what a lock
  protects and never wait for each other in a circle.  Nothing here depends on the operations.
Main exports: Threads.LockUse, Threads.Program.Locks, Threads.Thread.KeepsLocks,
  Threads.LockUse.free_advance, Threads.LockUse.not_circularWait
-/
import OsSimulator.Lib.Threads
import OsSimulator.Lib.WaitFor

namespace Threads

variable {Role Op State Lock α β : Type}

/-- What an operation has to do with the locks.  `suspends` may wait for something that is not a lock;
    `overwrites` stores a value where a lock is. -/
inductive LockEffect (Lock : Type) where
  | acquires (lock : Lock)
  | releases (lock : Lock)
  | suspends
  | overwrites
  | none
deriving DecidableEq

/-- Which operations have to do with the locks, and the rank in which the locks are taken. -/
structure LockUse (Op Lock : Type) where
  effect : Op → LockEffect Lock
  rank : Lock → Nat

namespace LockUse

variable [DecidableEq Lock]

/-- The locks that are held after an operation, the newest first. -/
def after : LockEffect Lock → List Lock → List Lock
  | .acquires lock, held => lock :: held
  | .releases lock, held => held.erase lock
  | .suspends, held | .overwrites, held | .none, held => held

/-- The locks that are held after some operations, the newest operation first. -/
def held (use : LockUse Op Lock) : List Op → List Lock
  | [] => []
  | op :: performed => after (use.effect op) (use.held performed)

/-- What may be done while the locks `held` are held: only locks of a higher rank are taken, only
    locks that are held are released, and nothing else is waited for. -/
def Allows (use : LockUse Op Lock) (held : List Lock) : LockEffect Lock → Prop
  | .acquires lock => ∀ other ∈ held, use.rank other < use.rank lock
  | .releases lock => lock ∈ held
  | .suspends => held = []
  | .overwrites => False
  | .none => True

/-- The rank falls from each lock to those that were taken before it. -/
def Ranked (use : LockUse Op Lock) (held : List Lock) : Prop :=
  held.Pairwise fun newer older => use.rank older < use.rank newer

variable {use : LockUse Op Lock} {held : List Lock} {effect : LockEffect Lock} {lock : Lock}

omit [DecidableEq Lock] in
/-- No lock is held twice. -/
theorem Ranked.nodup (ranked : use.Ranked held) : held.Nodup :=
  ranked.imp fun {newer older} higher same => by
    subst same
    exact Nat.lt_irrefl _ higher

theorem Ranked.after (ranked : use.Ranked held) (allowed : use.Allows held effect) :
    use.Ranked (after effect held) := by
  cases effect with
  | acquires lock => exact List.pairwise_cons.mpr ⟨allowed, ranked⟩
  | releases lock => exact List.Pairwise.sublist List.erase_sublist ranked
  | suspends | overwrites | none => exact ranked

/-- How many times an operation takes a lock, less how many times it gives it back. -/
def taken (lock : Lock) : LockEffect Lock → Int
  | .acquires other => if other = lock then 1 else 0
  | .releases other => if other = lock then -1 else 0
  | .suspends | .overwrites | .none => 0

/-- A lock that is taken was not held, and one that is released was. -/
theorem count_after (ranked : use.Ranked held) (allowed : use.Allows held effect) (lock : Lock) :
    (if lock ∈ LockUse.after effect held then 1 else 0) =
      (if lock ∈ held then 1 else 0) + taken lock effect := by
  cases effect with
  | acquires other =>
      by_cases same : other = lock
      · subst same
        have absent : other ∉ held := fun member => Nat.lt_irrefl _ (allowed other member)
        simp [LockUse.after, taken, absent]
      · simp [LockUse.after, taken, same, Ne.symm same]
  | releases other =>
      have member : other ∈ held := allowed
      by_cases same : other = lock
      · subst same
        simp [LockUse.after, taken, member, ranked.nodup.mem_erase_iff]
      · simp [LockUse.after, taken, same, List.mem_erase_of_ne (Ne.symm same)]
  | suspends | overwrites | none => exact (Int.add_zero _).symm

end LockUse

/-! ### Programs -/

namespace Program

variable [DecidableEq Lock] {use : LockUse Op Lock} {held : List Lock}

/-- Whatever the states are, the program does only what is allowed with the locks it holds, and it ends
    with locks and a result that satisfy `ending`. -/
def Locks (use : LockUse Op Lock) (ending : List Lock → α → Prop) :
    List Lock → Program Op State α → Prop
  | held, .done result => ending held result
  | held, .step op next =>
      use.Allows held (use.effect op) ∧
        ∀ state, (next state).Locks use ending (LockUse.after (use.effect op) held)

@[simp] theorem locks_pure {ending : List Lock → α → Prop} (result : α) :
    (Pure.pure result : Program Op State α).Locks use ending held ↔ ending held result := Iff.rfl

/-- A sequence ends its first part with the locks with which the second part begins. -/
@[simp] theorem locks_bind {ending : List Lock → β → Prop} (program : Program Op State α)
    (after : α → Program Op State β) :
    (program >>= after).Locks use ending held ↔
      program.Locks use (fun held result => (after result).Locks use ending held) held := by
  induction program generalizing held with
  | done result => exact Iff.rfl
  | step op next ih => exact and_congr_right fun _ => forall_congr' fun state => ih state

@[simp] theorem locks_perform {ending : List Lock → Unit → Prop} (op : Op) :
    (perform op : Program Op State Unit).Locks use ending held ↔
      use.Allows held (use.effect op) ∧
        ∀ _ : State, ending (LockUse.after (use.effect op) held) () := Iff.rfl

@[simp] theorem locks_observe {ending : List Lock → α → Prop} (op : Op) (look : State → α) :
    (observe op look).Locks use ending held ↔
      use.Allows held (use.effect op) ∧
        ∀ state, ending (LockUse.after (use.effect op) held) (look state) := Iff.rfl

theorem Locks.imp {ending weaker : List Lock → α → Prop} {program : Program Op State α}
    (weakens : ∀ held result, ending held result → weaker held result)
    (locks : program.Locks use ending held) : program.Locks use weaker held := by
  induction program generalizing held with
  | done result => exact weakens held result locks
  | step op next ih => exact ⟨locks.1, fun state => ih state (locks.2 state)⟩

/-- The program gives back every lock it takes: whatever it returns, it ends with the locks with which
    it began. -/
def Restores (use : LockUse Op Lock) (held : List Lock) (program : Program Op State α) : Prop :=
  program.Locks use (fun after _ => after = held) held

/-- After a part that restores the locks, the rest goes on with them. -/
theorem Restores.locks {ending : List Lock → α → Prop} {program : Program Op State α}
    (restores : program.Restores use held) (ends : ∀ result, ending held result) :
    program.Locks use ending held :=
  restores.imp fun after result same => by
    subst same
    exact ends result

theorem Restores.bind {program : Program Op State α} {after : α → Program Op State β}
    (first : program.Restores use held) (second : ∀ result, (after result).Restores use held) :
    (program >>= after).Restores use held :=
  (locks_bind program after).mpr (first.locks second)

theorem restores_pure (result : α) :
    (Pure.pure result : Program Op State α).Restores use held := rfl

/-- An operation that has nothing to do with the locks. -/
theorem restores_perform {op : Op} (noLock : use.effect op = .none) :
    (perform op : Program Op State Unit).Restores use held := by
  simp [Restores, noLock, LockUse.Allows, LockUse.after]

theorem restores_observe {op : Op} {look : State → α} (noLock : use.effect op = .none) :
    (observe op look).Restores use held := by
  simp [Restores, noLock, LockUse.Allows, LockUse.after]

/-- A wait for something else, while no lock is held. -/
theorem restores_suspending {op : Op} (suspends : use.effect op = .suspends) :
    (perform op : Program Op State Unit).Restores use [] := by
  simp [Restores, suspends, LockUse.Allows, LockUse.after]

/-- A critical section inside the locks that are held, and what follows it. -/
theorem Restores.critical {lock : Lock} {acquire release : Op}
    {body : Program Op State α} {after : α → Program Op State β}
    (acquires : use.effect acquire = .acquires lock)
    (releases : use.effect release = .releases lock)
    (higher : ∀ other ∈ held, use.rank other < use.rank lock)
    (inside : body.Restores use (lock :: held))
    (rest : ∀ result, (after result).Restores use held) :
    (do perform acquire
        let result ← body
        perform release
        after result : Program Op State β).Restores use held := by
  simp only [Restores, locks_bind, locks_perform, acquires]
  refine ⟨higher, fun _ => inside.locks fun result => ?_⟩
  simp only [LockUse.Allows, releases, List.mem_cons_self, true_and]
  intro _
  rw [LockUse.after, List.erase_cons_head]
  exact rest result

end Program

/-! ### Threads -/

namespace Thread

variable [DecidableEq Lock]

/-- The locks that the thread holds. -/
def held (use : LockUse Op Lock) (thread : Thread Role Op State) : List Lock :=
  use.held thread.performed

/-- The thread has taken its locks in the order of their rank, does only what is allowed with them,
    and will have released them all when its program is over. -/
structure KeepsLocks (use : LockUse Op Lock) (thread : Thread Role Op State) : Prop where
  ranked : use.Ranked (thread.held use)
  rest : thread.rest.Locks use (fun held _ => held = []) (thread.held use)

/-- The next thing the thread does is to take the lock. -/
def WaitsOn (use : LockUse Op Lock) (lock : Lock) (thread : Thread Role Op State) : Prop :=
  ∃ op, thread.nextOp = some op ∧ use.effect op = .acquires lock

variable {use : LockUse Op Lock} {thread : Thread Role Op State} {lock : Lock}

theorem KeepsLocks.start {role : Role} {program : Program Op State Unit}
    (restores : program.Restores use []) : (Thread.start role program).KeepsLocks use :=
  ⟨List.Pairwise.nil, restores⟩

/-- What the thread does next is allowed. -/
theorem KeepsLocks.allows {op : Op} (keeps : thread.KeepsLocks use)
    (next : thread.nextOp = some op) : use.Allows (thread.held use) (use.effect op) := by
  have locks := keeps.rest
  cases rest : thread.rest with
  | done result => simp [nextOp, rest, Program.nextOp] at next
  | step first after =>
      obtain rfl : first = op := by simpa [nextOp, rest, Program.nextOp] using next
      rw [rest] at locks
      exact locks.1

theorem KeepsLocks.advance {op : Op} {next : State → Program Op State Unit}
    (keeps : thread.KeepsLocks use) (rest : thread.rest = .step op next) (state : State) :
    ({ thread with performed := op :: thread.performed, rest := next state } :
      Thread Role Op State).KeepsLocks use := by
  have locks := keeps.rest
  rw [rest] at locks
  exact ⟨keeps.ranked.after locks.1, locks.2 state⟩

/-- The thread without its role. -/
def anonymous (thread : Thread Role Op State) : Thread Unit Op State where
  role := ()
  performed := thread.performed
  rest := thread.rest

theorem KeepsLocks.anonymous (keeps : thread.KeepsLocks use) : thread.anonymous.KeepsLocks use :=
  ⟨keeps.ranked, keeps.rest⟩

/-- A thread whose program is over holds nothing. -/
theorem KeepsLocks.idle (keeps : thread.KeepsLocks use) (idle : thread.Idle) :
    thread.held use = [] := by
  have locks := keeps.rest
  cases rest : thread.rest with
  | done result => simpa [rest, Program.Locks] using locks
  | step op next => simp [Idle, nextOp, rest, Program.nextOp] at idle

end Thread

/-! ### All threads together -/

namespace LockUse

variable [DecidableEq Lock] {use : LockUse Op Lock} {pool next : Pool Role Op State} {index : Nat}

/-- `value` says whether a lock is free: taking it takes 1 away, releasing it adds 1, and nothing else
    that is allowed changes it. -/
def Governs (use : LockUse Op Lock) (perform : Op → State → Option State)
    (value : Lock → State → Int) : Prop :=
  ∀ op state after, use.effect op ≠ .overwrites → perform op state = some after →
    ∀ lock, value lock after + taken lock (use.effect op) = value lock state

/-- How many of the threads hold the lock. -/
def holders (use : LockUse Op Lock) (lock : Lock) (threads : List (Thread Role Op State)) : Nat :=
  threads.countP fun thread => lock ∈ thread.held use

/-- The one thread waits on a lock that the other one holds. -/
def CircularWait (use : LockUse Op Lock) (threads : List (Thread Role Op State)) (index : Nat) :
    Prop :=
  WaitFor.CircularWait
    (fun index lock => ∃ thread, threads[index]? = some thread ∧ thread.WaitsOn use lock)
    (fun index lock => ∃ thread, threads[index]? = some thread ∧ lock ∈ thread.held use) index

theorem holders_append (lock : Lock) (first second : List (Thread Role Op State)) :
    use.holders lock (first ++ second) = use.holders lock first + use.holders lock second :=
  List.countP_append

theorem holders_anonymous (lock : Lock) (threads : List (Thread Role Op State)) :
    use.holders lock (threads.map Thread.anonymous) = use.holders lock threads :=
  List.countP_map

theorem keepsLocks_set {thread : Thread Role Op State}
    (keeps : ∀ thread ∈ pool.threads, thread.KeepsLocks use) (fresh : thread.KeepsLocks use) :
    ∀ other ∈ pool.threads.set index thread, other.KeepsLocks use := by
  intro other member
  rcases List.mem_or_eq_of_mem_set member with old | rfl
  · exact keeps other old
  · exact fresh

theorem keepsLocks_advance {perform : Op → State → Option State}
    (keeps : ∀ thread ∈ pool.threads, thread.KeepsLocks use)
    (advanced : pool.advance perform index = some next) :
    ∀ thread ∈ next.threads, thread.KeepsLocks use := by
  obtain ⟨thread, op, rest, after, at_index, program, _, rfl⟩ := Pool.advance_cases advanced
  exact keepsLocks_set keeps
    ((keeps thread (List.mem_of_getElem? at_index)).advance program pool.state)

theorem keepsLocks_spawn {role : Role} {program : Program Op State Unit}
    (keeps : ∀ thread ∈ pool.threads, thread.KeepsLocks use) (restores : program.Restores use []) :
    ∀ thread ∈ (pool.spawn role program).threads, thread.KeepsLocks use := by
  intro thread member
  rcases List.mem_append.mp member with old | new
  · exact keeps thread old
  · rw [List.mem_singleton.mp new]
    exact .start restores

/-- The holders after one thread was replaced by another. -/
theorem holders_set (lock : Lock) {old : Thread Role Op State} (new : Thread Role Op State)
    (at_index : pool.threads[index]? = some old) :
    (use.holders lock (pool.threads.set index new) : Int) +
        (if lock ∈ old.held use then 1 else 0) =
      use.holders lock pool.threads + (if lock ∈ new.held use then 1 else 0) := by
  have moved := Pool.total_set (fun thread => if lock ∈ thread.held use then 1 else 0) new
    pool.state at_index
  rw [Pool.total_ite, Pool.total_ite] at moved
  exact moved

/-- A lock is free or held by one thread: the sum of the two does not change when a thread performs an
    operation. -/
theorem free_advance {perform : Op → State → Option State}
    {value : Lock → State → Int} (governs : use.Governs perform value)
    (keeps : ∀ thread ∈ pool.threads, thread.KeepsLocks use)
    (advanced : pool.advance perform index = some next) (lock : Lock) :
    value lock next.state + use.holders lock next.threads =
      value lock pool.state + use.holders lock pool.threads := by
  obtain ⟨thread, op, rest, after, at_index, program, performed, rfl⟩ := Pool.advance_cases advanced
  have keepsLocks := keeps thread (List.mem_of_getElem? at_index)
  have allowed := keepsLocks.allows (Thread.nextOp_of_rest program)
  have changed : value lock after + taken lock (use.effect op) = value lock pool.state := by
    refine governs op pool.state after (fun overwrites => ?_) performed lock
    rw [overwrites] at allowed
    exact allowed
  have moved : (use.holders lock _ : Int) + _ = _ := holders_set lock
    { thread with performed := op :: thread.performed, rest := rest pool.state } at_index
  have counted := count_after keepsLocks.ranked allowed lock
  change value lock after + use.holders lock (pool.threads.set index _) = _
  change _ + (if lock ∈ thread.held use then 1 else 0) =
    _ + (if lock ∈ LockUse.after (use.effect op) (thread.held use) then 1 else 0) at moved
  omega

/-- A thread that begins another program held nothing and holds nothing. -/
theorem holders_restart {thread : Thread Role Op State} {role : Role}
    {program : Program Op State Unit} (keeps : thread.KeepsLocks use) (idle : thread.Idle)
    (at_index : pool.threads[index]? = some thread) (lock : Lock) :
    use.holders lock (pool.threads.set index (.start role program)) =
      use.holders lock pool.threads := by
  apply Pool.countP_set at_index
  rw [keeps.idle idle]
  exact Iff.rfl

theorem holders_spawn (lock : Lock) (role : Role) (program : Program Op State Unit) :
    use.holders lock (pool.spawn role program).threads = use.holders lock pool.threads := by
  simp [holders, Pool.spawn, Thread.held, Thread.start, LockUse.held]

/-- A thread that waits on a lock holds only locks of a lower rank, so the waits lead nowhere back. -/
theorem not_circularWait {threads : List (Thread Role Op State)}
    (keeps : ∀ thread ∈ threads, thread.KeepsLocks use) (index : Nat) :
    ¬ use.CircularWait threads index := by
  apply WaitFor.not_circularWait_of_rank use.rank
  rintro process wanted held ⟨thread, at_index, op, next, acquires⟩ ⟨same, at_same, member⟩
  obtain rfl : thread = same := Option.some.inj (at_index.symm.trans at_same)
  have allowed := (keeps thread (List.mem_of_getElem? at_index)).allows next
  rw [acquires] at allowed
  exact allowed held member

end LockUse

end Threads
