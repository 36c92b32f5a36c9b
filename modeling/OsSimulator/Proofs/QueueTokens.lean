/-
Module: OsSimulator.Proofs.QueueTokens
Purpose: When the token that a planner has taken still stands for a process in the queue.
  `finish_process` takes its process off `queue_new` or `queue_ready` and asks for the token of that
  process afterwards; in between, and while a planner waits for the CPU with a token in hand, there
  may be one process fewer than tokens.
Main exports: TokenQueue, World.PopsNonEmpty, World.KeepsTokens, run_pops_non_empty,
  run_pops_empty_queue
-/
import OsSimulator.Proofs.Interleavings
import OsSimulator.Proofs.Quiet
import OsSimulator.Proofs.Steps

namespace OsSimulator

open Threads Transition

/-- The queues that a planner takes processes off. -/
inductive TokenQueue where
  | new
  | ready
deriving DecidableEq, Repr

/-- Which of the kernel's queues it is. -/
def TokenQueue.id : TokenQueue → QueueId
  | .new => .new
  | .ready => .ready

/-- The queue whose processes have tokens. -/
def QueueId.token : QueueId → Option TokenQueue
  | .new => some .new
  | .ready => some .ready
  | _ => none

/-- The queue whose tokens are in the semaphore. -/
def Semaphore.token : Semaphore → Option TokenQueue
  | .processNew => some .new
  | .processReady => some .ready
  | _ => none

/-- The token that `update_queue_semaphores` asks for. -/
def ProcessState.token : ProcessState → Option TokenQueue
  | .execution | .blocked => none
  | .ready => some .ready
  | _ => some .new

namespace TokenQueue

/-- The semaphore with one token for each process in the queue. -/
def semaphore : TokenQueue → Semaphore
  | .new => .processNew
  | .ready => .processReady

/-- The planner that takes processes off the queue. -/
def planner : TokenQueue → Role
  | .new => .longTermPlanner
  | .ready => .shortTermPlanner

/-- The planner has taken a token and not yet popped the process. -/
def Holds (queue : TokenQueue) (thread : Thread Role Operation Memory) : Prop :=
  thread.role = queue.planner ∧ .wait queue.semaphore ∈ thread.performed ∧
    .pop queue.id ∉ thread.performed

/-- What an operation that is not the planner's adds to the debt of its thread: a process taken off
    the queue costs a token, which the wait pays. -/
def debt (queue : TokenQueue) (role : Role) (op : Operation) : Int :=
  if role = queue.planner then
    0
  else
    match op with
    | .remove id _ => if id = queue.id then 1 else 0
    | .wait semaphore => if semaphore = queue.semaphore then -1 else 0
    | _ => 0

end TokenQueue

/-- The queue in which the search last looked. -/
def lastSearched (trace : List Operation) : Option QueueId :=
  trace.findSome? fun op =>
    match op with
    | .find id _ => some id
    | _ => none

namespace World

/-- No planner pops an empty queue, or could: a planner with a token in hand finds a process in the
    queue; and whoever else asks for a token is not suspended. -/
def PopsNonEmpty (world : World) : Prop :=
  ∀ queue : TokenQueue, ∀ thread ∈ world.pool.threads,
    (queue.Holds thread ∨ thread.nextOp = some (.pop queue.id) → world.memory.queue queue.id ≠ []) ∧
      (thread.role ≠ queue.planner → thread.nextOp = some (.wait queue.semaphore) →
        0 < world.memory.sem queue.semaphore)

/-- The tokens that those who finish a process of the queue have still to take. -/
def debt (world : World) (queue : TokenQueue) : Int :=
  world.pool.total fun thread => thread.balance (queue.debt thread.role)

/-- One token is left when all debts are paid. -/
def Spare (world : World) (queue : TokenQueue) : Prop :=
  world.debt queue < world.memory.sem queue.semaphore

/-- `finish_process` acts on a process that is where the search found it; and it takes the process
    off the queue, as the planner takes a token, only if there is one that nobody else needs. -/
def Allows (world : World) (thread : Thread Role Operation Memory) : Operation → Prop
  | .readState process =>
      ∀ id ∈ lastSearched thread.performed, (world.memory.pcb process).state.token = id.token
  | .remove id process =>
      ∀ queue ∈ id.token, process ∈ world.memory.queue id ∧ world.Spare queue
  | .wait semaphore =>
      ∀ queue ∈ semaphore.token, thread.role = queue.planner → world.Spare queue
  | _ => True

/-- The step is allowed. -/
def KeepsTokens (world : World) : WorldEvent → Prop
  | .advance index =>
      ∀ thread ∈ world.pool.threads[index]?, ∀ op ∈ thread.nextOp, world.Allows thread op
  | _ => True

instance (world : World) (queue : TokenQueue) : Decidable (world.Spare queue) :=
  inferInstanceAs (Decidable (_ < _))

instance (world : World) (thread : Thread Role Operation Memory) :
    ∀ op, Decidable (world.Allows thread op)
  | .readState process =>
      inferInstanceAs (Decidable (∀ id ∈ lastSearched thread.performed,
        (world.memory.pcb process).state.token = id.token))
  | .remove id process =>
      inferInstanceAs (Decidable (∀ queue ∈ id.token,
        process ∈ world.memory.queue id ∧ world.Spare queue))
  | .wait semaphore =>
      inferInstanceAs (Decidable (∀ queue ∈ semaphore.token,
        thread.role = queue.planner → world.Spare queue))
  | .post _ | .init .. | .read | .allocate _ | .nextId | .push .. | .pop _ | .find .. | .sort
  | .setState .. | .advanceCounter _ | .addResource .. | .removeResource .. | .modifyInstance ..
  | .sendToCpu .. | .sendInterrupt | .sendToMemory _ | .createThread .. | .nullPointer => isTrue trivial

instance (world : World) : ∀ event, Decidable (world.KeepsTokens event)
  | .advance index =>
      inferInstanceAs (Decidable
        (∀ thread ∈ world.pool.threads[index]?, ∀ op ∈ thread.nextOp, world.Allows thread op))
  | .iterate _ | .connect | .command .. | .receive _ | .startSleeper | .cpuExecute ..
  | .cpuReadInterrupt => isTrue trivial

end World

/-! ### The discipline of the tokens -/

namespace TokenQueue

/-- The operations on the queue and on its semaphore, and the searches. -/
@[simp] def isToken (queue : TokenQueue) : Operation → Bool
  | .wait semaphore | .post semaphore | .init semaphore _ => semaphore = queue.semaphore
  | .push id _ | .pop id | .remove id _ => id = queue.id
  | .find _ _ => true
  | _ => false

/-- How many processes the operation adds to the queue. -/
def adds (queue : TokenQueue) : Operation → Int
  | .push id _ => if id = queue.id then 1 else 0
  | .pop id | .remove id _ => if id = queue.id then -1 else 0
  | _ => 0

/-- What an operation adds to the processes of the queue and takes of its tokens. -/
def weight (queue : TokenQueue) (op : Operation) : Int := queue.adds op + op.takes queue.semaphore

/-- After `trace`, a thread is `debt` tokens in debt, and otherwise has put `surplus` more processes
    into the queue than tokens into its semaphore.  A planner has taken at most one token, and one
    process for it. -/
structure Stands (queue : TokenQueue) (role : Role) (trace : List Operation) (surplus debt : Nat) :
    Prop where
  debt_eq : (trace.map (queue.debt role)).sum = debt
  surplus_eq : (trace.map queue.weight).sum + (trace.map (queue.debt role)).sum = surplus
  noInit : ∀ value, .init queue.semaphore value ∉ trace
  own : role = queue.planner → trace <:+ [.pop queue.id, .wait queue.semaphore]

end TokenQueue

/-- Every thread returns what it takes: when its program is over, it has no surplus and no debt. -/
def tokens (queue : TokenQueue) : Discipline Role Operation Memory where
  relevant := queue.isToken
  guard memory trace
    | .readState process =>
        ∀ id ∈ lastSearched trace, (memory.pcb process).state.token = id.token
    | _ => True
  during role trace := ∃ surplus debt, queue.Stands role trace surplus debt
  ending role trace := queue.Stands role trace 0 0

namespace TokenQueue

variable {queue : TokenQueue} {role : Role} {trace : List Operation} {surplus debt : Nat}

theorem Stands.nil : queue.Stands role [] 0 0 where
  debt_eq := rfl
  surplus_eq := rfl
  noInit := by simp
  own _ := List.nil_suffix

/-- An operation of a thread that is not the planner of the queue. -/
theorem Stands.cons {op : Operation} {surplus' debt' : Nat} (other : role ≠ queue.planner)
    (notInit : ∀ value, op ≠ .init queue.semaphore value)
    (debt_op : (debt' : Int) = queue.debt role op + debt)
    (surplus_op : (surplus' : Int) = queue.weight op + queue.debt role op + surplus)
    (stands : queue.Stands role trace surplus debt) :
    queue.Stands role (op :: trace) surplus' debt' where
  debt_eq := by
    rw [List.map_cons, List.sum_cons, stands.debt_eq, debt_op]
  surplus_eq := by
    have before := stands.surplus_eq
    simp only [List.map_cons, List.sum_cons]
    omega
  noInit value member := by
    rcases List.mem_cons.mp member with rfl | before
    · exact notInit value rfl
    · exact stands.noInit value before
  own planner := absurd planner other

theorem Stands.during (stands : queue.Stands role trace surplus debt) :
    (tokens queue).during role trace := ⟨surplus, debt, stands⟩

/-- The operation has nothing to do with the queue. -/
@[simp] def Silent (queue : TokenQueue) (op : Operation) : Prop := queue.isToken op = false

/-- Irrelevant operations weigh nothing. -/
theorem adds_of_not_isToken {op : Operation} (irrelevant : queue.isToken op = false) :
    queue.adds op = 0 := by
  cases op <;> simp_all [isToken, adds]

theorem weight_of_not_isToken {op : Operation} (irrelevant : queue.isToken op = false) :
    queue.weight op = 0 := by
  rw [weight, adds_of_not_isToken irrelevant]
  cases op <;> simp_all [isToken, Operation.takes]

theorem debt_of_not_isToken {op : Operation} (irrelevant : queue.isToken op = false) :
    queue.debt role op = 0 := by
  unfold TokenQueue.debt
  split
  · rfl
  · cases op <;> simp_all [isToken]

end TokenQueue

namespace Code

/-- The code takes a thread from one standing to another one. -/
def Brings {α : Type} (queue : TokenQueue) (role : Role) (surplus debt surplus' debt' : Nat)
    (code : Code α) : Prop :=
  ∀ trace, queue.Stands role trace surplus debt →
    code.Keeps (tokens queue) role (fun trace _ => queue.Stands role trace surplus' debt') trace

/-- The code leaves the standing of a thread as it was. -/
def Neutral {α : Type} (queue : TokenQueue) (role : Role) (code : Code α) : Prop :=
  ∀ surplus debt, code.Brings queue role surplus debt surplus debt

/-- The code has nothing to do with the queue. -/
abbrev Silent {α : Type} (queue : TokenQueue) (code : Code α) : Prop := code.Every queue.Silent

variable {α β : Type} {queue : TokenQueue} {role : Role}
  {surplus debt surplus' debt' surplus'' debt'' : Nat}

@[simp] theorem Quiet.silent {code : Code α} (quiet : code.Quiet) : code.Silent queue := by
  apply Program.Every.imp _ quiet
  intro op quietOp
  cases queue <;> cases op <;>
    simp_all [Operation.isQuiet, TokenQueue.isToken, TokenQueue.semaphore, TokenQueue.id]

theorem Brings.bind {code : Code α} {rest : α → Code β}
    (first : code.Brings queue role surplus debt surplus' debt')
    (second : ∀ result, (rest result).Brings queue role surplus' debt' surplus'' debt'') :
    (code >>= rest).Brings queue role surplus debt surplus'' debt'' := by
  intro trace stands
  rw [Program.keeps_bind]
  apply (first trace stands).imp
  intro trace result stands
  exact second result trace stands

theorem Silent.neutral {code : Code α} (silent : code.Silent queue) : code.Neutral queue role :=
  fun _ _ _ stands => silent.keeps stands.during fun _ => stands

/-- Neutral code can be skipped. -/
theorem Brings.skip {code : Code α} {rest : α → Code β} (neutral : code.Neutral queue role)
    (second : ∀ result, (rest result).Brings queue role surplus debt surplus' debt') :
    (code >>= rest).Brings queue role surplus debt surplus' debt' :=
  (neutral surplus debt).bind second

theorem Neutral.bind {code : Code α} {rest : α → Code β} (first : code.Neutral queue role)
    (second : ∀ result, (rest result).Neutral queue role) : (code >>= rest).Neutral queue role :=
  fun surplus debt => (first surplus debt).bind fun result => second result surplus debt

theorem Neutral.pure (result : α) : (Pure.pure result : Code α).Neutral queue role :=
  fun _ _ _ stands => stands

/-- One operation on the tokens of a queue, by a thread that is not the planner. -/
theorem brings_perform {op : Operation} (relevant : queue.isToken op = true)
    (other : role ≠ queue.planner) (notInit : ∀ value, op ≠ .init queue.semaphore value)
    (debt_op : (debt' : Int) = queue.debt role op + debt)
    (surplus_op : (surplus' : Int) = queue.weight op + queue.debt role op + surplus) :
    Brings queue role surplus debt surplus' debt' (Program.perform op) := by
  intro trace stands memory _
  have recorded : (tokens queue).record op trace = op :: trace := if_pos relevant
  rw [recorded]
  have after := stands.cons other notInit debt_op surplus_op
  exact ⟨after.during, after⟩

theorem brings_pushLocked (other : role ≠ queue.planner) (process : PcbPointer) :
    (pushLocked queue.id process).Brings queue role surplus debt (surplus + 1) debt := by
  apply Brings.skip (Silent.neutral (Quiet.silent (quiet_semWait_mutex queue.id)))
  intro _
  have pushed : Brings queue role surplus debt (surplus + 1) debt
      (Program.perform (.push queue.id process)) := by
    apply brings_perform _ other
    · simp
    · simp [TokenQueue.debt]
    · simp [TokenQueue.weight, TokenQueue.adds, Operation.takes, TokenQueue.debt, other]
      omega
    · simp [TokenQueue.isToken]
  apply Brings.bind pushed
  intro _
  exact Silent.neutral (Quiet.silent (quiet_semPost_mutex queue.id)) _ _

theorem brings_removeLocked (other : role ≠ queue.planner) (process : PcbPointer) :
    (removeLocked queue.id process).Brings queue role surplus debt surplus (debt + 1) := by
  apply Brings.skip (Silent.neutral (Quiet.silent (quiet_semWait_mutex queue.id)))
  intro _
  have removed : Brings queue role surplus debt surplus (debt + 1)
      (Program.perform (.remove queue.id process)) := by
    apply brings_perform _ other
    · simp
    · simp [TokenQueue.debt, other]
      omega
    · simp [TokenQueue.weight, TokenQueue.adds, Operation.takes, TokenQueue.debt, other]
    · simp [TokenQueue.isToken]
  apply Brings.bind removed
  intro _
  exact Silent.neutral (Quiet.silent (quiet_semPost_mutex queue.id)) _ _

theorem brings_semPost (other : role ≠ queue.planner) :
    (semPost queue.semaphore).Brings queue role (surplus + 1) debt surplus debt := by
  apply brings_perform _ other
  · simp
  · simp [TokenQueue.debt]
  · simp [TokenQueue.weight, TokenQueue.adds, Operation.takes, TokenQueue.debt]
  · simp [TokenQueue.isToken]

theorem brings_semWait (other : role ≠ queue.planner) :
    (semWait queue.semaphore).Brings queue role surplus (debt + 1) surplus debt := by
  apply brings_perform _ other
  · simp
  · simp [TokenQueue.debt, other]
  · simp [TokenQueue.weight, TokenQueue.adds, Operation.takes, TokenQueue.debt, other]
  · simp [TokenQueue.isToken]

/-- A process put into the queue, and the token for it. -/
theorem neutral_pushLocked_semPost (other : role ≠ queue.planner) (process : PcbPointer) :
    (pushLocked queue.id process >>= fun _ => semPost queue.semaphore).Neutral queue role := by
  intro surplus debt
  apply Brings.bind (brings_pushLocked other process)
  intro _
  exact brings_semPost other

theorem neutral_look_bind {value : Memory → α} {rest : α → Code β}
    (neutral : ∀ result, (rest result).Neutral queue role) :
    (look value >>= rest).Neutral queue role :=
  Neutral.bind (Silent.neutral (by simp [look, TokenQueue.isToken])) neutral

/-! ### Code outside the planners -/

theorem silent_pushLocked {id : QueueId} (elsewhere : id ≠ queue.id) (process : PcbPointer) :
    (pushLocked id process).Silent queue := by
  simp [pushLocked, TokenQueue.isToken, elsewhere]

theorem silent_removeLocked {id : QueueId} (elsewhere : id ≠ queue.id) (process : PcbPointer) :
    (removeLocked id process).Silent queue := by
  simp [removeLocked, TokenQueue.isToken, elsewhere]

theorem neutral_moveProcessFromBlockToReady (other : role ≠ queue.planner) (process : PcbPointer)
    (index : Nat) : (moveProcessFromBlockToReady process index).Neutral queue role := by
  apply Neutral.bind (Silent.neutral (by simp [TokenQueue.isToken]))
  intro _
  cases queue with
  | new =>
      have pushed : (pushLocked .ready process).Silent .new := silent_pushLocked (by decide) process
      apply Silent.neutral
      simp [pushed, semWait, semPost, TokenQueue.isToken, TokenQueue.semaphore]
  | ready =>
      intro surplus debt
      apply Brings.bind (brings_pushLocked other process)
      intro _
      apply Brings.skip (Silent.neutral (Quiet.silent (quiet_removeLocked_blocked index process)))
      intro _
      apply Brings.skip (Silent.neutral (Quiet.silent (quiet_semWait rfl)))
      intro _
      exact brings_semPost other

theorem neutral_wakeLoop (other : role ≠ queue.planner) (index : Nat) (available : Int)
    (turns position : Nat) : (wakeLoop index available turns position).Neutral queue role := by
  induction turns generalizing position with
  | zero => exact Neutral.pure ()
  | succ turns ih =>
      apply neutral_look_bind
      intro size
      split
      · apply Neutral.bind (Silent.neutral (Quiet.silent (quiet_semWait_mutex (.blocked index))))
        intro _
        apply neutral_look_bind
        intro element
        apply Neutral.bind (Silent.neutral (Quiet.silent (quiet_semPost_mutex (.blocked index))))
        intro _
        apply Neutral.bind (Silent.neutral (Quiet.silent (quiet_dereference element)))
        intro process
        apply Neutral.bind (neutral_moveProcessFromBlockToReady other process index)
        intro _
        exact ih (position + 1)
      · exact Neutral.pure ()

theorem neutral_wakeQueue (other : role ≠ queue.planner) (index : Nat) :
    (wakeQueue index).Neutral queue role := by
  apply neutral_look_bind
  intro size
  split
  · apply neutral_look_bind
    intro available
    split
    · exact neutral_wakeLoop other index available _ _
    · exact Neutral.pure ()
  · exact Neutral.pure ()

theorem neutral_wakeQueues (other : role ≠ queue.planner) (indices : List Nat) :
    (wakeQueues indices).Neutral queue role := by
  induction indices with
  | nil => exact Neutral.pure ()
  | cons index indices ih =>
      apply Neutral.bind (neutral_wakeQueue other index)
      intro _
      exact ih

theorem neutral_checkProcessInBlockedAndSendToReady (other : role ≠ queue.planner) :
    checkProcessInBlockedAndSendToReady.Neutral queue role := by
  apply neutral_look_bind
  intro queues
  exact neutral_wakeQueues other _

/-- `update_queue_semaphores` pays for the process that was taken off the queue of its state. -/
theorem brings_updateQueueSemaphores (other : role ≠ queue.planner) {state : ProcessState}
    (owes : state.token = some queue) :
    (updateQueueSemaphores state).Brings queue role surplus (debt + 1) surplus debt := by
  cases state with
  | new | exit =>
      obtain rfl : .new = queue := Option.some.inj owes
      exact brings_semWait other
  | ready =>
      obtain rfl : .ready = queue := Option.some.inj owes
      apply Brings.bind (brings_semWait other)
      intro _
      exact Silent.neutral (Quiet.silent (quiet_semPost rfl)) _ _
  | execution | blocked => cases owes

theorem silent_updateQueueSemaphores {state : ProcessState} (elsewhere : state.token ≠ some queue) :
    (updateQueueSemaphores state).Silent queue := by
  cases queue <;> cases state <;>
    simp_all [ProcessState.token, updateQueueSemaphores, semWait, semPost, TokenQueue.isToken,
      TokenQueue.semaphore]

/-- Finishing a process that is where the search found it is neutral. -/
theorem keeps_finishFound (other : role ≠ queue.planner) {id : QueueId} (process : PcbPointer)
    {trace : List Operation} (stands : queue.Stands role trace surplus debt)
    (searched : lastSearched trace = some id) :
    (finishFound id process).Keeps (tokens queue) role
      (fun trace _ => queue.Stands role trace surplus debt) trace := by
  rw [finishFound, Program.keeps_bind, Program.keeps_observe]
  intro memory guarded
  have agrees : (memory.pcb process).state.token = id.token := guarded id searched
  have recorded : (tokens queue).record (.readState process) trace = trace := rfl
  rw [recorded]
  refine ⟨stands.during, ?_⟩
  generalize (memory.pcb process).state = previousState at agrees
  have rest : Brings queue role surplus debt surplus debt (do
      Program.perform (.setState process .exit)
      freeResourcesRetained process
      removeLocked id process
      checkProcessInBlockedAndSendToReady
      sendPcbToMemory .finishProcess process
      updateQueueSemaphores previousState) := by
    apply Brings.skip (Silent.neutral (by simp [TokenQueue.isToken]))
    intro _
    apply Brings.skip (Silent.neutral (by simp))
    intro _
    by_cases owes : id.token = some queue
    · obtain rfl : queue.id = id := by
        cases queue <;> cases id <;> simp_all [QueueId.token, TokenQueue.id]
      apply Brings.bind (brings_removeLocked other process)
      intro _
      apply Brings.skip (neutral_checkProcessInBlockedAndSendToReady other)
      intro _
      apply Brings.skip (Silent.neutral (by simp))
      intro _
      exact brings_updateQueueSemaphores other (agrees.trans owes)
    · have elsewhere : id ≠ queue.id := by
        rintro rfl
        cases queue <;> exact owes rfl
      apply Brings.skip (Silent.neutral (silent_removeLocked elsewhere process))
      intro _
      apply Brings.skip (neutral_checkProcessInBlockedAndSendToReady other)
      intro _
      apply Brings.skip (Silent.neutral (by simp))
      intro _
      exact Silent.neutral (silent_updateQueueSemaphores (agrees ▸ owes)) _ _
  exact rest trace stands

/-- A search changes no standing, and the queue it ends with is the one it looked in last. -/
theorem keeps_searchQueues (other : role ≠ queue.planner) (pid : UInt32) (ids : List QueueId)
    {trace : List Operation} (stands : queue.Stands role trace surplus debt) :
    (searchQueues pid ids).Keeps (tokens queue) role
      (fun trace found => queue.Stands role trace surplus debt ∧
        ∀ place ∈ found, lastSearched trace = some place.1) trace := by
  induction ids generalizing trace with
  | nil =>
      refine ⟨stands, ?_⟩
      rintro place ⟨⟩
  | cons id ids ih =>
      apply Program.Every.keeps_bind (Quiet.silent (quiet_semWait_mutex id)) stands.during
      intro _
      rw [Program.keeps_bind, Program.keeps_observe]
      intro memory _
      have searched : queue.Stands role (.find id pid :: trace) surplus debt := by
        apply stands.cons other
        · simp
        · simp [TokenQueue.debt]
        · simp [TokenQueue.debt, TokenQueue.weight, TokenQueue.adds, Operation.takes]
      refine ⟨searched.during, ?_⟩
      apply Program.Every.keeps_bind (Quiet.silent (quiet_semPost_mutex id)) searched.during
      intro _
      cases memory.findProcessFromQueue id pid with
      | none => exact ih searched
      | some process =>
          refine ⟨searched, ?_⟩
          rintro place ⟨⟩
          rfl

theorem neutral_finishProcess (other : role ≠ queue.planner) (pid : UInt32) :
    (finishProcess pid).Neutral queue role := by
  apply Neutral.bind (Silent.neutral (Quiet.silent quiet_buildAllQueuesInList))
  intro queues surplus debt trace stands
  rw [Program.keeps_bind]
  apply (keeps_searchQueues other pid queues stands).imp
  rintro trace found ⟨stands, searched⟩
  cases found with
  | none => exact stands
  | some place => exact keeps_finishFound other place.2 stands (searched place rfl)

theorem neutral_moveProcessToNew (other : role ≠ queue.planner) (process : PcbPointer) :
    (moveProcessToNew process).Neutral queue role := by
  apply Neutral.bind (Silent.neutral (by simp))
  intro _
  cases queue with
  | new => exact neutral_pushLocked_semPost other process
  | ready =>
      have pushed : (pushLocked .new process).Silent .ready :=
        silent_pushLocked (by decide) process
      apply Silent.neutral
      simp [pushed, semPost, TokenQueue.isToken, TokenQueue.semaphore]

/-- Putting a process into `queue_ready`, with its token. -/
theorem neutral_pushLocked_ready (other : role ≠ queue.planner) (process : PcbPointer) :
    (pushLocked .ready process >>= fun _ => semPost .processReady).Neutral queue role := by
  cases queue with
  | new =>
      have pushed : (pushLocked .ready process).Silent .new :=
        silent_pushLocked (by decide) process
      apply Silent.neutral
      simp [pushed, semPost, TokenQueue.isToken, TokenQueue.semaphore]
  | ready => exact neutral_pushLocked_semPost other process

theorem neutral_handleInterrupt (other : role ≠ queue.planner) (process : PcbPointer) :
    (handleInterrupt process).Neutral queue role := by
  apply Neutral.bind (Silent.neutral (by simp))
  intro popped
  apply Neutral.bind (Silent.neutral (Quiet.silent (quiet_semPost rfl)))
  intro _
  apply Neutral.bind (Silent.neutral (by simp [TokenQueue.isToken]))
  intro _
  exact neutral_pushLocked_ready other process

theorem neutral_threadSleepProcess (other : role ≠ queue.planner) (process : PcbPointer) :
    (threadSleepProcess process).Neutral queue role := by
  apply Neutral.bind (Silent.neutral (by simp))
  intro popped
  apply Neutral.bind (Silent.neutral (by simp [TokenQueue.isToken]))
  intro _
  apply Neutral.bind (Silent.neutral (by simp [TokenQueue.isToken]))
  intro _
  exact neutral_pushLocked_ready other process

theorem neutral_handleWaitInterruption (other : role ≠ queue.planner) (process : PcbPointer)
    (resource : String) : (handleWaitInterruption process resource).Neutral queue role := by
  apply neutral_look_bind
  intro valid
  split
  · apply neutral_look_bind
    intro available
    split
    · exact Silent.neutral (by simp [TokenQueue.isToken])
    · apply neutral_look_bind
      intro index
      exact Silent.neutral (by simp)
  · apply neutral_look_bind
    exact neutral_finishProcess other

theorem neutral_handleSignalInterruption (other : role ≠ queue.planner) (process : PcbPointer)
    (resource : String) : (handleSignalInterruption process resource).Neutral queue role := by
  apply neutral_look_bind
  intro valid
  split
  · apply neutral_look_bind
    intro held
    split
    · exact Silent.neutral (by simp [TokenQueue.isToken])
    · apply neutral_look_bind
      exact neutral_finishProcess other
  · apply neutral_look_bind
    exact neutral_finishProcess other

theorem neutral_handleDispatchConnection (other : role ≠ queue.planner) (message : Message) :
    (handleDispatchConnection message).Neutral queue role := by
  apply Neutral.bind (Silent.neutral (Quiet.silent (quiet_semWait rfl)))
  intro _
  apply Neutral.bind (Silent.neutral (Quiet.silent (quiet_semPost rfl)))
  intro _
  apply Neutral.bind (Silent.neutral (by simp [allocate, TokenQueue.isToken]))
  intro process
  cases message.request with
  | finish => exact neutral_finishProcess other _
  | interrupt => exact neutral_handleInterrupt other process
  | wait resource => exact neutral_handleWaitInterruption other process resource
  | signal resource => exact neutral_handleSignalInterruption other process resource
  | sleep time => exact Silent.neutral (by simp)

theorem neutral_handlerConnection (other : role ≠ queue.planner) (command : Command) :
    (handlerConnection command).Neutral queue role := by
  cases command with
  | createProcess path quantum clientSocket =>
      apply Neutral.bind (Silent.neutral (by simp))
      intro process
      exact neutral_moveProcessToNew other process
  | finishProcess pid => exact neutral_finishProcess other pid
  | startPlanning | stopPlanning =>
      apply Silent.neutral
      cases queue <;>
        simp [handlerConnection, semWait, semPost, TokenQueue.isToken, TokenQueue.semaphore]
  | modifyMultiprogrammingDegree newDegree => exact Silent.neutral (by simp [handlerConnection])
  | showAllProcesses =>
      apply Neutral.bind (Silent.neutral (by simp))
      intro queues
      exact Neutral.pure ()

end Code

/-! ### The planners -/

namespace TokenQueue

variable {queue : TokenQueue}

/-- The tokens in the planner's hand at each point of an iteration. -/
theorem stands_taken : queue.Stands queue.planner [.wait queue.semaphore] 1 0 := by
  cases queue <;> exact
    { debt_eq := by decide, surplus_eq := by decide, noInit := by simp, own := by decide }

theorem stands_popped :
    queue.Stands queue.planner [.pop queue.id, .wait queue.semaphore] 0 0 := by
  cases queue <;> exact
    { debt_eq := by decide, surplus_eq := by decide, noInit := by simp, own := by decide }

end TokenQueue

namespace Code

variable {α β : Type} {queue : TokenQueue} {before middle after : List Operation}

/-- The code takes the planner of the queue from `before` to `after`. -/
def Draws {α : Type} (queue : TokenQueue) (before after : List Operation) (code : Code α) : Prop :=
  code.Keeps (tokens queue) queue.planner (fun trace _ => trace = after) before

theorem Draws.bind {code : Code α} {rest : α → Code β} (first : code.Draws queue before middle)
    (second : ∀ result, (rest result).Draws queue middle after) :
    (code >>= rest).Draws queue before after := by
  rw [Draws, Program.keeps_bind]
  apply first.imp
  rintro trace result rfl
  exact second result

theorem Silent.draws {code : Code α} (silent : code.Silent queue)
    (during : (tokens queue).during queue.planner before) : code.Draws queue before before :=
  silent.keeps during fun _ => rfl

/-- Code without operations on the queue and its tokens can be skipped. -/
theorem Draws.skip {code : Code α} {rest : α → Code β} (silent : code.Silent queue)
    (during : (tokens queue).during queue.planner before)
    (second : ∀ result, (rest result).Draws queue before after) :
    (code >>= rest).Draws queue before after := by
  apply Draws.bind (Silent.draws silent during)
  exact second

theorem draws_semWait : (semWait queue.semaphore).Draws queue [] [.wait queue.semaphore] := by
  intro memory _
  have recorded : (tokens queue).record (.wait queue.semaphore) [] = [.wait queue.semaphore] :=
    if_pos (by simp [tokens, TokenQueue.isToken])
  rw [recorded]
  exact ⟨TokenQueue.stands_taken.during, rfl⟩

theorem draws_popLocked :
    (popLocked queue.id).Draws queue [.wait queue.semaphore]
      [.pop queue.id, .wait queue.semaphore] := by
  apply Draws.skip (Quiet.silent (quiet_semWait_mutex queue.id)) TokenQueue.stands_taken.during
  intro _
  rw [Draws, Program.keeps_bind]
  intro memory _
  have recorded : (tokens queue).record (.pop queue.id) [.wait queue.semaphore] =
      [.pop queue.id, .wait queue.semaphore] := if_pos (by simp [tokens, TokenQueue.isToken])
  rw [recorded]
  refine ⟨TokenQueue.stands_popped.during, ?_⟩
  apply Draws.skip (Quiet.silent (quiet_semPost_mutex queue.id)) TokenQueue.stands_popped.during
  intro _
  rfl

/-- A planner that moves a process pops it once, whatever is done with the process then. -/
theorem draws_moved (queue : TokenQueue) {move : PcbPointer → Code Unit}
    (silent : ∀ process, (move process).Silent queue) :
    (do let element ← popLocked queue.id
        let processToMove ← dereference element
        move processToMove : Code Unit).Draws queue [.wait queue.semaphore]
      [.pop queue.id, .wait queue.semaphore] := by
  apply Draws.bind draws_popLocked
  intro element
  apply Draws.skip (Quiet.silent (quiet_dereference element)) TokenQueue.stands_popped.during
  intro process
  exact Silent.draws (silent process) TokenQueue.stands_popped.during

theorem draws_moveProcessToReady :
    moveProcessToReady.Draws .new [.wait .processNew] [.pop .new, .wait .processNew] := by
  apply draws_moved .new
  intro process
  have pushed : (pushLocked .ready process).Silent .new := silent_pushLocked (by decide) process
  simp [pushed, TokenQueue.isToken]

theorem draws_moveProcessToExec :
    moveProcessToExec.Draws .ready [.wait .processReady] [.pop .ready, .wait .processReady] := by
  apply draws_moved .ready
  intro process
  have pushed : (pushLocked .exec process).Silent .ready := silent_pushLocked (by decide) process
  simp [pushed, TokenQueue.isToken]

/-- What the planner of the queue does in one iteration. -/
theorem draws_longTermPlanner :
    longTermPlanner.Draws .new [] [.pop .new, .wait .processNew] := by
  have nothing : (tokens .new).during TokenQueue.new.planner [] := TokenQueue.Stands.nil.during
  have popped : (tokens .new).during TokenQueue.new.planner [.pop .new, .wait .processNew] :=
    TokenQueue.stands_popped.during
  apply Draws.skip (by simp [semWait, TokenQueue.isToken, TokenQueue.semaphore]) nothing
  intro _
  apply Draws.skip (Quiet.silent (quiet_semWait rfl)) nothing
  intro _
  apply Draws.bind draws_semWait
  intro _
  apply Draws.bind draws_moveProcessToReady
  intro _
  exact Silent.draws (by simp [semPost, TokenQueue.isToken, TokenQueue.semaphore]) popped

/-- All three short-term planners begin alike: they take the token of a process, and wait for the
    CPU. -/
theorem draws_shortTermIteration {rest : Unit → Code Unit}
    (later : ∀ result, (rest result).Draws .ready [.wait .processReady]
      [.pop .ready, .wait .processReady]) :
    (semWait .shortTermPlanner >>= fun _ => semWait .processReady >>= fun _ =>
      semWait .cpuAvailable >>= rest).Draws .ready [] [.pop .ready, .wait .processReady] := by
  apply Draws.skip (by simp [semWait, TokenQueue.isToken, TokenQueue.semaphore])
    TokenQueue.Stands.nil.during
  intro _
  apply Draws.bind draws_semWait
  intro _
  apply Draws.skip (Quiet.silent (quiet_semWait rfl)) TokenQueue.stands_taken.during
  exact later

/-- All three dispatch the process under `mutex_process_exec`. -/
theorem draws_dispatch {rest : Unit → Code Unit} (silent : ∀ result, (rest result).Silent .ready) :
    (semWait .mutexProcessExec >>= fun _ => moveProcessToExec >>= rest).Draws .ready
      [.wait .processReady] [.pop .ready, .wait .processReady] := by
  apply Draws.skip (Quiet.silent (quiet_semWait rfl)) TokenQueue.stands_taken.during
  intro _
  apply Draws.bind draws_moveProcessToExec
  intro result
  exact Silent.draws (silent result) TokenQueue.stands_popped.during

theorem draws_shortTermPlanner (config : KernelConfig) :
    shortTermPlanner config = pure () ∨
      (shortTermPlanner config).Draws .ready [] [.pop .ready, .wait .processReady] := by
  rcases shortTermPlanner_cases config with fifo | roundRobin | priorities | unknown
  · right
    rw [fifo]
    apply draws_shortTermIteration
    intro _
    apply draws_dispatch
    simp [semPost, TokenQueue.isToken, TokenQueue.semaphore]
  · right
    rw [roundRobin]
    apply draws_shortTermIteration
    intro _
    apply draws_dispatch
    simp [semWait, semPost, TokenQueue.isToken, TokenQueue.semaphore]
  · right
    rw [priorities]
    apply draws_shortTermIteration
    intro _
    apply Draws.skip (Quiet.silent quiet_sortQueue) TokenQueue.stands_taken.during
    intro _
    apply draws_dispatch
    simp [semPost, TokenQueue.isToken, TokenQueue.semaphore]
  · exact .inl unknown

/-- To the other queue, the long-term planner is a thread that puts processes in. -/
theorem neutral_longTermPlanner : longTermPlanner.Neutral .ready .longTermPlanner := by
  have other : Role.longTermPlanner ≠ TokenQueue.ready.planner := by simp [TokenQueue.planner]
  intro surplus debt
  have moved : moveProcessToReady.Brings .ready .longTermPlanner surplus debt (surplus + 1) debt := by
    apply Brings.skip
      (Silent.neutral (by simp [popLocked, TokenQueue.isToken, TokenQueue.id]))
    intro element
    apply Brings.skip (Silent.neutral (Quiet.silent (quiet_dereference element)))
    intro process
    apply Brings.skip (Silent.neutral (by simp [TokenQueue.isToken]))
    intro _
    exact brings_pushLocked other process
  apply Brings.skip
    (Silent.neutral (by simp [semWait, TokenQueue.isToken, TokenQueue.semaphore]))
  intro _
  apply Brings.skip (Silent.neutral (Quiet.silent (quiet_semWait rfl)))
  intro _
  apply Brings.skip
    (Silent.neutral (by simp [semWait, TokenQueue.isToken, TokenQueue.semaphore]))
  intro _
  apply Brings.bind moved
  intro _
  apply Brings.bind (brings_semPost other)
  intro _
  exact Silent.neutral (by simp [semPost, TokenQueue.isToken, TokenQueue.semaphore]) _ _

theorem silent_shortTermPlanner (config : KernelConfig) :
    (shortTermPlanner config).Silent .new := by
  have popped : (popLocked .ready).Silent .new := by
    simp [popLocked, TokenQueue.isToken, TokenQueue.id]
  have moved : moveProcessToExec.Silent .new := by
    apply Program.Every.bind popped
    intro element
    apply Program.Every.bind (Quiet.silent (quiet_dereference element))
    intro process
    have pushed : (pushLocked .exec process).Silent .new := silent_pushLocked (by decide) process
    simp [pushed, TokenQueue.isToken]
  rcases shortTermPlanner_cases config with fifo | roundRobin | priorities | unknown
  · rw [fifo]
    simp [planingWithFifo, moved, semWait, semPost, TokenQueue.isToken, TokenQueue.semaphore]
  · rw [roundRobin]
    simp [planningWithRoundRobin, moved, semWait, semPost, TokenQueue.isToken, TokenQueue.semaphore]
  · rw [priorities]
    simp [planningWithPriorities, moved, semWait, semPost, TokenQueue.isToken, TokenQueue.semaphore]
  · rw [unknown]
    trivial

theorem Neutral.keeps {role : Role} {code : Code Unit} (neutral : code.Neutral queue role) :
    code.Keeps (tokens queue) role (fun trace _ => (tokens queue).ending role trace) [] :=
  neutral 0 0 [] TokenQueue.Stands.nil

theorem Draws.keeps {code : Code Unit}
    (draws : code.Draws queue [] [.pop queue.id, .wait queue.semaphore]) :
    code.Keeps (tokens queue) queue.planner
      (fun trace _ => (tokens queue).ending queue.planner trace) [] := by
  apply Program.Keeps.imp _ draws
  rintro trace _ rfl
  exact TokenQueue.stands_popped

end Code

/-- Every program keeps to the discipline. -/
theorem tokens_programs (config : KernelConfig) (queue : TokenQueue) (role : Role) :
    (tokens queue).during role [] ∧ (role.code config).Keeps (tokens queue) role
      (fun trace _ => (tokens queue).ending role trace) [] := by
  refine ⟨TokenQueue.Stands.nil.during, ?_⟩
  cases role with
  | longTermPlanner =>
      cases queue with
      | new => exact Code.draws_longTermPlanner.keeps
      | ready => exact Code.neutral_longTermPlanner.keeps
  | shortTermPlanner =>
      cases queue with
      | new => exact (Code.Silent.neutral (Code.silent_shortTermPlanner config)).keeps
      | ready =>
          rcases Code.draws_shortTermPlanner config with unknown | draws
          · rw [Role.code, unknown]
            exact TokenQueue.Stands.nil
          · exact draws.keeps
  | dispatchHandler message =>
      have other : Role.dispatchHandler message ≠ queue.planner := by
        cases queue <;> simp [TokenQueue.planner]
      cases message with
      | none => exact TokenQueue.Stands.nil
      | some message => exact (Code.neutral_handleDispatchConnection other message).keeps
  | console command =>
      have other : Role.console command ≠ queue.planner := by
        cases queue <;> simp [TokenQueue.planner]
      cases command with
      | none => exact TokenQueue.Stands.nil
      | some command => exact (Code.neutral_handlerConnection other command).keeps
  | sleeper process sleepTime =>
      have other : Role.sleeper process sleepTime ≠ queue.planner := by
        cases queue <;> simp [TokenQueue.planner]
      exact (Code.neutral_threadSleepProcess other process).keeps

/-! ### Processes and tokens -/

namespace TokenQueue

variable {queue : TokenQueue} {config : KernelConfig} {memory after : Memory} {op : Operation}

theorem queue_setQueue (elements : List PcbPointer) (id : QueueId) :
    (memory.setQueue elements id).queue queue.id =
      if id = queue.id then elements else memory.queue queue.id := by
  cases queue <;> cases id <;> rfl

/-- What the operations do to the length of the queue, if nothing is missing in it. -/
theorem length_perform (queue : TokenQueue) (popsOne : op = .pop queue.id → memory.queue queue.id ≠ [])
    (removesOne : ∀ process, op = .remove queue.id process → process ∈ memory.queue queue.id)
    (performed : op.perform config memory = some after) :
    ((after.queue queue.id).length : Int) = (memory.queue queue.id).length + queue.adds op := by
  cases op with
  | push id process =>
      obtain rfl := Option.some.inj performed
      rw [queue_setQueue]
      by_cases same : id = queue.id
      · simp [adds, same]
      · simp [adds, same]
  | pop id =>
      obtain rfl := Option.some.inj performed
      rw [queue_setQueue]
      by_cases same : id = queue.id
      · subst same
        have nonempty := List.length_pos_iff.mpr (popsOne rfl)
        simp only [if_true, adds, List.length_tail]
        omega
      · simp [adds, same]
  | remove id process =>
      obtain rfl := Option.some.inj performed
      rw [queue_setQueue]
      by_cases same : id = queue.id
      · subst same
        have member := removesOne process rfl
        have nonempty := List.length_pos_of_mem member
        simp only [if_true, adds, List.length_erase_of_mem member]
        omega
      · simp [adds, same]
  | sort =>
      obtain rfl := Option.some.inj performed
      rw [queue_setQueue]
      cases queue <;> simp [adds, id, Memory.queue]
  | wait semaphore =>
      obtain ⟨_, result⟩ := Option.ite_none_right_eq_some.mp performed
      obtain rfl := Option.some.inj result
      simp [adds]
  | post semaphore | init semaphore value =>
      obtain rfl := Option.some.inj performed
      simp [adds]
  | setState process state | advanceCounter process | addResource process resource
  | removeResource process resource =>
      obtain rfl := Option.some.inj performed
      simp [adds]
  | modifyInstance resource value =>
      simp only [Operation.perform] at performed
      split at performed <;> obtain rfl := Option.some.inj performed <;> cases queue <;>
        exact (add_zero _).symm
  | nullPointer => cases performed
  | read | readState process | allocate pcb | nextId | find id pid | sendToCpu header process
  | sendInterrupt | sendToMemory chunk | createThread process sleepTime =>
      obtain rfl := Option.some.inj performed
      cases queue <;> exact (add_zero _).symm

variable {thread : Thread Role Operation Memory}

/-- Debt and surplus of a thread are what its operations weigh. -/
theorem Stands.balances {surplus debt : Nat}
    (stands : queue.Stands thread.role (thread.performed.filter queue.isToken) surplus debt) :
    thread.balance (queue.debt thread.role) = debt ∧
      thread.balance queue.weight + thread.balance (queue.debt thread.role) = surplus := by
  rw [Thread.balance_filter (tokens queue) fun _ => weight_of_not_isToken,
    Thread.balance_filter (tokens queue) fun _ => debt_of_not_isToken]
  exact ⟨stands.debt_eq, stands.surplus_eq⟩

/-- What the thread has in surplus: a planner, tokens in hand; others, processes put in. -/
def surplus (queue : TokenQueue) (thread : Thread Role Operation Memory) : Int :=
  thread.balance queue.weight + thread.balance (queue.debt thread.role)

theorem balances_nonneg (follows : thread.Follows (tokens queue)) :
    0 ≤ thread.balance (queue.debt thread.role) ∧ 0 ≤ queue.surplus thread := by
  obtain ⟨_, _, stands⟩ := follows.1
  have balances := stands.balances
  rw [surplus]
  omega

theorem balances_of_idle (follows : thread.Follows (tokens queue)) (idle : thread.Idle) :
    thread.balance (queue.debt thread.role) = 0 ∧ thread.balance queue.weight = 0 := by
  have stands : queue.Stands thread.role (thread.performed.filter queue.isToken) 0 0 :=
    follows.ending idle
  have balances := stands.balances
  omega

/-- A planner with a token in hand has one in surplus. -/
theorem surplus_of_holds (follows : thread.Follows (tokens queue)) (holds : queue.Holds thread) :
    queue.surplus thread = 1 := by
  obtain ⟨role, waited, notPopped⟩ := holds
  obtain ⟨_, _, stands⟩ := follows.1
  have trace : thread.performed.filter queue.isToken = [.wait queue.semaphore] := by
    have waitedToken : .wait queue.semaphore ∈ thread.performed.filter queue.isToken :=
      List.mem_filter.mpr ⟨waited, by simp [isToken]⟩
    have notPoppedToken : .pop queue.id ∉ thread.performed.filter queue.isToken :=
      fun member => notPopped (List.mem_filter.mp member).1
    have own : thread.performed.filter queue.isToken <:+ [.pop queue.id, .wait queue.semaphore] :=
      stands.own role
    generalize thread.performed.filter queue.isToken = ops at own waitedToken notPoppedToken ⊢
    simp only [List.suffix_cons_iff, List.suffix_nil] at own
    rcases own with rfl | rfl | rfl
    · exact absurd List.mem_cons_self notPoppedToken
    · rfl
    · cases waitedToken
  have standsTaken : queue.Stands queue.planner [.wait queue.semaphore] 1 0 := stands_taken
  rw [← trace, ← role] at standsTaken
  exact standsTaken.balances.2

/-- What a thread performs next leaves it with no negative debt or surplus. -/
theorem next_stands (follows : thread.Follows (tokens queue)) (next : thread.nextOp = some op)
    (relevant : queue.isToken op = true) :
    0 ≤ queue.debt thread.role op + thread.balance (queue.debt thread.role) ∧
      0 ≤ queue.weight op + queue.debt thread.role op + queue.surplus thread ∧
      ∀ value, op ≠ .init queue.semaphore value := by
  have guarded : (tokens queue).guard (Classical.arbitrary Memory)
      (thread.performed.filter queue.isToken) op := by
    cases op <;> trivial
  obtain ⟨surplus, debt, stands⟩ := follows.during_next _ next guarded
  have recorded : (tokens queue).record op (thread.performed.filter queue.isToken) =
      op :: thread.performed.filter queue.isToken := if_pos relevant
  change queue.Stands _ ((tokens queue).record op (thread.performed.filter queue.isToken)) _ _
    at stands
  rw [recorded] at stands
  have debt_eq := stands.debt_eq
  have surplus_eq := stands.surplus_eq
  simp only [List.map_cons, List.sum_cons] at debt_eq surplus_eq
  rw [TokenQueue.surplus, Thread.balance_filter (tokens queue) fun _ => weight_of_not_isToken,
    Thread.balance_filter (tokens queue) fun _ => debt_of_not_isToken]
  change 0 ≤ _ + ((thread.performed.filter queue.isToken).map (queue.debt thread.role)).sum ∧
    0 ≤ _ + (((thread.performed.filter queue.isToken).map queue.weight).sum +
      ((thread.performed.filter queue.isToken).map (queue.debt thread.role)).sum) ∧ _
  refine ⟨by omega, by omega, ?_⟩
  rintro value rfl
  exact stands.noInit value List.mem_cons_self

end TokenQueue

/-! ### The invariant -/

/-- The tokens of the queue beyond its processes. -/
def TokenQueue.value (queue : TokenQueue) (memory : Memory) : Int :=
  memory.sem queue.semaphore - (memory.queue queue.id).length

/-- What holds of a queue and its tokens in every state: processes and tokens differ by what the
    threads have in hand, and there are tokens for all debts. -/
structure World.Covered (world : World) (queue : TokenQueue) : Prop where
  follows : world.pool.Follows (tokens queue)
  law : queue.value world.memory + world.pool.total (·.balance queue.weight) = 0
  paid : world.debt queue ≤ world.memory.sem queue.semaphore

namespace World.Covered

variable {config : KernelConfig} {world next : World} {event : WorldEvent} {queue : TokenQueue}
  {thread : Thread Role Operation Memory}

/-- A surplus is in the queue. -/
theorem surplus_le (covered : world.Covered queue) (member : thread ∈ world.pool.threads) :
    queue.surplus thread ≤ (world.memory.queue queue.id).length := by
  have below : queue.surplus thread ≤ world.pool.total queue.surplus :=
    Pool.le_total (fun other isThread =>
      (TokenQueue.balances_nonneg (covered.follows other isThread)).2) member
  have split : world.pool.total queue.surplus =
      world.pool.total (Thread.balance queue.weight) + world.debt queue :=
    Pool.total_add _ _
  have law : queue.value world.memory + world.pool.total (Thread.balance queue.weight) = 0 :=
    covered.law
  rw [TokenQueue.value] at law
  have paid := covered.paid
  omega

/-- A debt can be paid. -/
theorem debt_le (covered : world.Covered queue) (member : thread ∈ world.pool.threads) :
    thread.balance (queue.debt thread.role) ≤ world.memory.sem queue.semaphore := by
  have nonneg : ∀ other ∈ world.pool.threads, 0 ≤ other.balance (queue.debt other.role) :=
    fun other isThread => (TokenQueue.balances_nonneg (covered.follows other isThread)).1
  have below := Pool.le_total nonneg member
  exact below.trans covered.paid

/-- Whoever pops next finds a process. -/
theorem pops_nonempty (covered : world.Covered queue) (member : thread ∈ world.pool.threads)
    (pops : thread.nextOp = some (.pop queue.id)) : world.memory.queue queue.id ≠ [] := by
  have stands := TokenQueue.next_stands (covered.follows thread member) pops
    (by simp [TokenQueue.isToken])
  have weight : queue.weight (.pop queue.id) = -1 := by
    simp [TokenQueue.weight, TokenQueue.adds, Operation.takes]
  have debt : queue.debt thread.role (.pop queue.id) = 0 := by simp [TokenQueue.debt]
  have below := covered.surplus_le member
  apply List.ne_nil_of_length_pos
  omega

/-- Whoever waits for a token and is not the planner is not suspended. -/
theorem waits_paid (covered : world.Covered queue) (member : thread ∈ world.pool.threads)
    (other : thread.role ≠ queue.planner) (waits : thread.nextOp = some (.wait queue.semaphore)) :
    0 < world.memory.sem queue.semaphore := by
  have stands := TokenQueue.next_stands (covered.follows thread member) waits
    (by simp [TokenQueue.isToken])
  have debt : queue.debt thread.role (.wait queue.semaphore) = -1 := by
    simp [TokenQueue.debt, other]
  have below := covered.debt_le member
  omega

theorem init (config : KernelConfig) : (World.init config).Covered queue where
  follows := by
    intro thread member
    simp only [World.init, List.mem_cons, List.not_mem_nil, or_false] at member
    rcases member with rfl | rfl | rfl
    · exact .start (tokens_programs config queue _).1 (tokens_programs config queue .longTermPlanner).2
    · exact .start (tokens_programs config queue _).1
        (tokens_programs config queue .shortTermPlanner).2
    · exact .start (tokens_programs config queue _).1
        (tokens_programs config queue (.dispatchHandler none)).2
  law := by cases queue <;> rfl
  paid := by cases queue <;> exact le_refl (0 : Int)

/-- An allowed operation leaves tokens for all debts. -/
theorem debt_add_takes_le (queue : TokenQueue) {op : Operation} (allowed : world.Allows thread op) :
    queue.debt thread.role op + op.takes queue.semaphore ≤ 0 ∨
      queue.debt thread.role op + op.takes queue.semaphore ≤ 1 ∧ world.Spare queue := by
  unfold TokenQueue.debt
  by_cases role : thread.role = queue.planner
  · rw [if_pos role]
    cases op with
    | wait semaphore =>
        by_cases same : semaphore = queue.semaphore
        · right
          subst same
          refine ⟨by simp [Operation.takes], allowed queue ?_ role⟩
          cases queue <;> rfl
        · left
          simp [Operation.takes, same]
    | post semaphore =>
        left
        simp only [Operation.takes]
        split <;> omega
    | _ => exact .inl (le_refl 0)
  · rw [if_neg role]
    cases op with
    | wait semaphore =>
        left
        simp only [Operation.takes]
        split <;> omega
    | post semaphore =>
        left
        simp only [Operation.takes]
        split <;> omega
    | remove id process =>
        by_cases same : id = queue.id
        · right
          subst same
          refine ⟨by simp [Operation.takes], (allowed queue ?_).2⟩
          cases queue <;> rfl
        · left
          simp [Operation.takes, same]
    | _ => exact .inl (le_refl 0)

theorem lastSearched_filter (trace : List Operation) :
    lastSearched (trace.filter queue.isToken) = lastSearched trace := by
  induction trace with
  | nil => rfl
  | cons op trace ih =>
      by_cases relevant : queue.isToken op = true
      · rw [List.filter_cons_of_pos relevant]
        unfold lastSearched at ih ⊢
        rw [List.findSome?_cons, List.findSome?_cons, ih]
      · rw [List.filter_cons_of_neg relevant, ih]
        cases op with
        | find id pid => exact absurd rfl relevant
        | _ => rfl

/-- The guards of the discipline are among the conditions. -/
theorem guarded {op : Operation} (allowed : world.Allows thread op) :
    (tokens queue).guard world.memory (thread.performed.filter queue.isToken) op := by
  cases op with
  | readState process =>
      intro id searched
      rw [lastSearched_filter] at searched
      exact allowed id searched
  | _ => trivial

/-- No thread initializes the semaphore. -/
theorem next_not_init (covered : world.Covered queue) (member : thread ∈ world.pool.threads)
    {value : Nat} : thread.nextOp ≠ some (.init queue.semaphore value) := by
  intro nextOp
  have relevant : queue.isToken (.init queue.semaphore value) = true := by
    simp [TokenQueue.isToken]
  exact (TokenQueue.next_stands (covered.follows thread member) nextOp relevant).2.2 value rfl

/-- An allowed step keeps the books of the queue. -/
theorem law_step (covered : world.Covered queue) (keeps : world.KeepsTokens event)
    (stepped : world.step config event = some next) :
    queue.value next.memory + next.pool.total (·.balance queue.weight) = 0 := by
  rw [← covered.law]
  apply (World.poolStep stepped).balance
  · intro before after same
    rw [TokenQueue.value, same.sem, same.queue, TokenQueue.value]
  · intro thread member idle
    exact (TokenQueue.balances_of_idle (covered.follows thread member) idle).2
  · rintro index thread op after rfl at_index nextOp performed
    have member := List.mem_of_getElem? at_index
    have allowed := keeps thread at_index op nextOp
    have length := TokenQueue.length_perform queue
      (by rintro rfl; exact covered.pops_nonempty member nextOp)
      (by
        rintro process rfl
        refine (allowed queue ?_).1
        cases queue <;> rfl)
      performed
    have sem := Operation.sem_perform queue.semaphore (by
      rintro value rfl
      exact covered.next_not_init member nextOp) performed
    simp only [TokenQueue.value, TokenQueue.weight]
    omega

/-- An allowed step leaves tokens for all debts. -/
theorem paid_step (covered : world.Covered queue) (keeps : world.KeepsTokens event)
    (stepped : world.step config event = some next) :
    next.debt queue ≤ next.memory.sem queue.semaphore := by
  have paid := covered.paid
  have step := World.poolStep stepped
  simp only [World.debt, World.memory] at paid ⊢
  generalize next.pool = pool at step ⊢
  cases step with
  | advance advanced =>
      obtain ⟨thread, op, rest, after, at_index, program, performed, rfl⟩ :=
        Pool.advance_cases advanced
      have member := List.mem_of_getElem? at_index
      have nextOp := Thread.nextOp_of_rest program
      have moved := Pool.total_set (fun thread => thread.balance (queue.debt thread.role))
        { thread with performed := op :: thread.performed, rest := rest world.pool.state } after
        at_index
      have weighed : Thread.balance (queue.debt thread.role)
          { thread with performed := op :: thread.performed, rest := rest world.pool.state } =
            queue.debt thread.role op + thread.balance (queue.debt thread.role) := List.sum_cons
      have sem := Operation.sem_perform queue.semaphore (by
        rintro value rfl
        exact covered.next_not_init member nextOp) performed
      rw [weighed] at moved
      change _ ≤ (after.sem queue.semaphore : Int)
      rcases debt_add_takes_le queue (keeps thread at_index op nextOp) with
        unchanged | ⟨one, spare⟩
      · omega
      · simp only [World.Spare, World.debt, World.memory] at spare
        omega
  | @restart _ _ thread role _ at_index idle _ =>
      have member := List.mem_of_getElem? at_index
      have zero := (TokenQueue.balances_of_idle (covered.follows thread member) idle).1
      have moved := Pool.total_set (fun thread => thread.balance (queue.debt thread.role))
        (.start role (role.code config)) world.pool.state at_index
      have started : (Thread.start role (role.code config)).balance (queue.debt role) = 0 := rfl
      have unchanged := moved.trans (congrArg _ started)
      rw [zero, add_zero, add_zero] at unchanged
      rw [unchanged]
      exact paid
  | @spawn _ role _ _ _ same =>
      rw [Pool.total_spawn, Pool.spawn, same.sem]
      exact (add_zero _).trans_le paid
  | environment same =>
      rw [same.sem]
      exact paid

theorem step (covered : world.Covered queue) (keeps : world.KeepsTokens event)
    (stepped : world.step config event = some next) : next.Covered queue where
  follows := by
    apply (World.poolStep stepped).follows (tokens_programs config queue) _ covered.follows
    rintro index thread op rfl at_index nextOp
    exact guarded (keeps thread at_index op nextOp)
  law := covered.law_step keeps stepped
  paid := covered.paid_step keeps stepped

end World.Covered

/-- If every debt and surplus is covered, no planner pops an empty queue. -/
theorem World.popsNonEmpty_of_covered {world : World} (covered : ∀ queue, world.Covered queue) :
    world.PopsNonEmpty := by
  intro queue thread member
  refine ⟨?_, (covered queue).waits_paid member⟩
  rintro (holds | pops)
  · have surplus := TokenQueue.surplus_of_holds ((covered queue).follows thread member) holds
    have below := (covered queue).surplus_le member
    apply List.ne_nil_of_length_pos
    omega
  · exact (covered queue).pops_nonempty member pops

/-- No planner pops an empty queue, and no finish waits for the token of its process, in any run in
    which finishing a process is never interleaved with what moves that process, and nobody takes
    the last token or process from under somebody else. -/
theorem run_pops_non_empty (config : KernelConfig) (events : List WorldEvent)
    (keeps : Meets (World.step config) World.KeepsTokens (World.init config) events) :
    Throughout (World.step config) World.PopsNonEmpty (World.init config) events := by
  have preserved : ∀ {world : World} {event next}, (∀ queue, world.Covered queue) →
      world.KeepsTokens event → world.step config event = some next →
      ∀ queue, next.Covered queue :=
    fun covered keeps stepped queue => (covered queue).step keeps stepped
  have covered := throughout_of_guarded_run preserved (fun _ => World.Covered.init config) keeps
  apply covered.imp
  intro world covered
  exact World.popsNonEmpty_of_covered covered

/-- A console creates two processes and starts the planners, and both processes are admitted. -/
def admitTwo : List WorldEvent :=
  [.connect, .command 3 (.createProcess "A" 0 5)] ++ List.replicate 11 (.advance 3) ++
    [.command 3 (.createProcess "B" 0 5)] ++ List.replicate 11 (.advance 3) ++
    [.command 3 .startPlanning] ++ List.replicate 3 (.advance 3) ++
    List.replicate 12 (.advance 0) ++ [.iterate 0] ++ List.replicate 12 (.advance 0)

/-- The second process is finished while it is READY; then the first one is executed and ends. -/
def finishBeforePlanner : List WorldEvent :=
  admitTwo ++ [.command 3 (.finishProcess 1)] ++ List.replicate 29 (.advance 3) ++
    List.replicate 16 (.advance 1) ++
    [.cpuExecute .finish [0, 0, 0, 0] 1, .receive 2] ++ List.replicate 35 (.advance 2)

theorem run_pops_non_empty_witness :
    (∃ final, run (World.step fifoConfig) (World.init fifoConfig) finishBeforePlanner = some final) ∧
      Throughout (World.step fifoConfig) World.PopsNonEmpty (World.init fifoConfig)
        finishBeforePlanner :=
  ⟨Option.isSome_iff_exists.mp (by decide +kernel),
    run_pops_non_empty fifoConfig finishBeforePlanner (by decide +kernel)⟩

/-- The first process is executed, and the planner takes the token of the second one and waits for
    the CPU; the console finishes the second process; the first one ends. -/
def finishUnderPlanner : List WorldEvent :=
  admitTwo ++ List.replicate 16 (.advance 1) ++ [.iterate 1] ++ List.replicate 2 (.advance 1) ++
    [.command 3 (.finishProcess 1)] ++ List.replicate 27 (.advance 3) ++
    [.cpuExecute .finish [0, 0, 0, 0] 1, .receive 2] ++ List.replicate 35 (.advance 2) ++
    List.replicate 3 (.advance 1)

/-- The planner is in `move_process_to_exec` and pops the empty `queue_ready`, and the console is
    suspended on the token that the planner took. -/
theorem run_pops_empty_queue :
    ∃ world, run (World.step fifoConfig) (World.init fifoConfig) finishUnderPlanner = some world ∧
      world.roleAt 1 = some .shortTermPlanner ∧ world.pool.nextOp 1 = some (.pop .ready) ∧
      world.memory.queue .ready = [] ∧
      world.roleAt 3 = some (.console (some (.finishProcess 1))) ∧
      world.pool.nextOp 3 = some (.wait .processReady) ∧ world.memory.sem .processReady = 0 := by
  have reaches : (run (World.step fifoConfig) (World.init fifoConfig) finishUnderPlanner).map
      (fun world => ((world.roleAt 1, world.pool.nextOp 1, world.memory.queue .ready),
        world.roleAt 3, world.pool.nextOp 3, world.memory.sem .processReady)) =
      some ((some .shortTermPlanner, some (.pop .ready), []),
        some (.console (some (.finishProcess 1))), some (.wait .processReady), 0) := by
    decide +kernel
  obtain ⟨world, reaches, facts⟩ := Option.map_eq_some_iff.mp reaches
  simp only [Prod.mk.injEq] at facts
  obtain ⟨⟨planner, pops, empty⟩, console, waits, zero⟩ := facts
  exact ⟨world, reaches, planner, pops, empty, console, waits, zero⟩

end OsSimulator
