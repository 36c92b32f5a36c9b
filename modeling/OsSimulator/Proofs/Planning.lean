/-
Module: OsSimulator.Proofs.Planning
Purpose: The planning tokens.  `mutex_stopping_planner` and the semaphore of a planner hold one token
  between them, which START and STOP move from one to the other and the planner takes for the time
  of an iteration; so a stopped planner stays parked until the next START.
Main exports: Planner, World.Parked, World.Moves, planning_tokens_conserved
-/
import OsSimulator.Proofs.Interleavings
import OsSimulator.Proofs.Quiet
import OsSimulator.Proofs.Steps

namespace OsSimulator

open Threads Transition

/-- The two planners. -/
inductive Planner where
  | shortTerm
  | longTerm
deriving DecidableEq, Repr

namespace Planner

/-- The semaphore that stops the planner. -/
def semaphore : Planner → Semaphore
  | .shortTerm => .shortTermPlanner
  | .longTerm => .longTermPlanner

/-- The role of the planner's thread. -/
def role : Planner → Role
  | .shortTerm => .shortTermPlanner
  | .longTerm => .longTermPlanner

/-- The planner is inside its loop body: it has the token of its semaphore. -/
def Inside (planner : Planner) (thread : Thread Role Operation Memory) : Prop :=
  thread.role = planner.role ∧ .wait planner.semaphore ∈ thread.performed ∧
    .post planner.semaphore ∉ thread.performed

/-- A STOP handler that has posted `mutex_stopping_planner` and not yet obtained the planner's
    semaphore. -/
def Stopping (planner : Planner) (thread : Thread Role Operation Memory) : Prop :=
  thread.role = .console (some .stopPlanning) ∧ .post .mutexStoppingPlanner ∈ thread.performed ∧
    .wait planner.semaphore ∉ thread.performed

/-- A START handler that has passed `mutex_stopping_planner` and not yet posted the planner's
    semaphore. -/
def Starting (planner : Planner) (thread : Thread Role Operation Memory) : Prop :=
  thread.role = .console (some .startPlanning) ∧ .wait .mutexStoppingPlanner ∈ thread.performed ∧
    .post planner.semaphore ∉ thread.performed

instance (planner : Planner) (thread : Thread Role Operation Memory) :
    Decidable (planner.Inside thread) :=
  inferInstanceAs (Decidable (_ ∧ _ ∧ _ ∉ _))

instance (planner : Planner) (thread : Thread Role Operation Memory) :
    Decidable (planner.Stopping thread) :=
  inferInstanceAs (Decidable (_ ∧ _ ∧ _ ∉ _))

instance (planner : Planner) (thread : Thread Role Operation Memory) :
    Decidable (planner.Starting thread) :=
  inferInstanceAs (Decidable (_ ∧ _ ∧ _ ∉ _))

end Planner

namespace World

/-- The planner's token: the value of its semaphore, and one more while it is inside its loop
    body. -/
def plannerToken (world : World) (planner : Planner) : Nat :=
  world.memory.sem planner.semaphore +
    if ∃ thread ∈ world.pool.threads, planner.Inside thread then 1 else 0

/-- The STOP handlers that wait for the planner. -/
def stopping (world : World) (planner : Planner) : Nat :=
  world.pool.threads.countP fun thread => planner.Stopping thread

/-- The START handlers that have still to post the planner's semaphore. -/
def starting (world : World) (planner : Planner) : Nat :=
  world.pool.threads.countP fun thread => planner.Starting thread

/-- No START_PLANNING and no STOP_PLANNING is in progress. -/
def NoneInProgress (world : World) : Prop :=
  ∀ thread ∈ world.pool.threads,
    thread.role = .console (some .startPlanning) ∨ thread.role = .console (some .stopPlanning) →
      thread.Idle

/-- Both planners are at their semaphores, which are zero. -/
def Parked (world : World) : Prop :=
  ∀ planner : Planner, world.memory.sem planner.semaphore = 0 ∧
    ∀ thread ∈ world.pool.threads, ¬ planner.Inside thread

/-- The step takes a process off `queue_new`, to admit it, or off `queue_ready`, to execute it, or
    puts it into `queue_exec`. -/
def Moves (world : World) : WorldEvent → Prop
  | .advance index =>
      world.pool.nextOp index = some (.pop .new) ∨ world.pool.nextOp index = some (.pop .ready) ∨
        ∃ process, world.pool.nextOp index = some (.push .exec process)
  | _ => False

end World

/-! ### The discipline of planning -/

/-- The operations on planning tokens, and those that admit a process or move it to EXEC. -/
@[simp] def Operation.isPlanning : Operation → Bool
  | .wait semaphore | .post semaphore | .init semaphore _ =>
      semaphore = .shortTermPlanner ∨ semaphore = .longTermPlanner ∨
        semaphore = .mutexStoppingPlanner
  | .pop id => id = .new ∨ id = .ready
  | .push id _ => id = .exec
  | _ => false

/-- The operation is not a planning operation. -/
@[simp] def Operation.NotPlanning (op : Operation) : Prop := op.isPlanning = false

/-- The operation, whichever process it pushes. -/
def Operation.anonymous : Operation → Operation
  | .push id _ => .push id 0
  | op => op

/-- All planning operations of a role, the last one first. -/
def Role.planningOps : Role → List Operation
  | .longTermPlanner => [.post .longTermPlanner, .pop .new, .wait .longTermPlanner]
  | .shortTermPlanner =>
      [.post .shortTermPlanner, .push .exec 0, .pop .ready, .wait .shortTermPlanner]
  | .console (some .startPlanning) =>
      [.post .longTermPlanner, .post .shortTermPlanner, .wait .mutexStoppingPlanner]
  | .console (some .stopPlanning) =>
      [.wait .longTermPlanner, .wait .shortTermPlanner, .post .mutexStoppingPlanner]
  | _ => []

/-- Every thread performs the planning operations of its role in their order, all of them or none. -/
def planning : Discipline Role Operation Memory where
  relevant := Operation.isPlanning
  guard _ _ _ := True
  during role trace := trace.map Operation.anonymous <:+ role.planningOps
  ending role trace := trace = [] ∨ trace.map Operation.anonymous = role.planningOps

/-! ### Code without planning operations -/

namespace Code

/-- The code has no planning operation. -/
abbrev NotPlanning {α : Type} (code : Code α) : Prop := code.Every Operation.NotPlanning

@[simp] theorem Quiet.notPlanning {α : Type} {code : Code α} (quiet : code.Quiet) :
    code.NotPlanning := by
  apply Program.Every.imp _ quiet
  intro op quietOp
  cases op <;> simp_all [Operation.isQuiet, Operation.isPlanning]

theorem notPlanning_look_bind {α β : Type} {value : Memory → α} {after : α → Code β}
    (rest : ∀ result, (after result).NotPlanning) : (look value >>= after).NotPlanning :=
  ⟨rfl, fun memory => rest (value memory)⟩

theorem notPlanning_semWait {semaphore : Semaphore}
    (other : (Operation.wait semaphore).isPlanning = false) : (semWait semaphore).NotPlanning :=
  ⟨other, fun _ => trivial⟩

theorem notPlanning_semPost {semaphore : Semaphore}
    (other : (Operation.post semaphore).isPlanning = false) : (semPost semaphore).NotPlanning :=
  ⟨other, fun _ => trivial⟩

@[simp] theorem notPlanning_pushLocked {id : QueueId} (notExec : id ≠ .exec)
    (process : PcbPointer) : (pushLocked id process).NotPlanning := by
  simp [pushLocked, Operation.isPlanning, notExec]

@[simp] theorem notPlanning_removeLocked (id : QueueId) (process : PcbPointer) :
    (removeLocked id process).NotPlanning := by
  simp [removeLocked, Operation.isPlanning]

theorem notPlanning_searchQueues (pid : UInt32) (ids : List QueueId) :
    (searchQueues pid ids).NotPlanning :=
  every_searchQueues Operation.NotPlanning (fun id => Quiet.notPlanning (quiet_semWait_mutex id))
    (fun id => Quiet.notPlanning (quiet_semPost_mutex id)) (fun _ _ => rfl) pid ids

@[simp] theorem notPlanning_moveProcessFromBlockToReady (process : PcbPointer) (index : Nat) :
    (moveProcessFromBlockToReady process index).NotPlanning := by
  simp [moveProcessFromBlockToReady, semWait, semPost, Operation.isPlanning]

@[simp] theorem notPlanning_checkProcessInBlockedAndSendToReady :
    checkProcessInBlockedAndSendToReady.NotPlanning :=
  every_checkProcessInBlockedAndSendToReady Operation.NotPlanning rfl rfl (notPlanning_semWait rfl)
    (notPlanning_semPost rfl) notPlanning_moveProcessFromBlockToReady

@[simp] theorem notPlanning_updateQueueSemaphores (state : ProcessState) :
    (updateQueueSemaphores state).NotPlanning := by
  cases state <;> simp [updateQueueSemaphores, semWait, semPost, Operation.isPlanning]

theorem notPlanning_finishFound (id : QueueId) (process : PcbPointer) :
    (finishFound id process).NotPlanning := by
  simp [finishFound, Operation.isPlanning]

theorem notPlanning_finishProcess (pid : UInt32) : (finishProcess pid).NotPlanning := by
  apply Program.Every.bind (Quiet.notPlanning quiet_buildAllQueuesInList)
  intro queues
  apply Program.Every.bind (notPlanning_searchQueues pid queues)
  intro found
  cases found with
  | none => trivial
  | some place => exact notPlanning_finishFound place.1 place.2

theorem notPlanning_moveProcessToNew (process : PcbPointer) :
    (moveProcessToNew process).NotPlanning := by
  simp [moveProcessToNew, semPost, Operation.isPlanning]

theorem notPlanning_handleWaitInterruption (process : PcbPointer) (resource : String) :
    (handleWaitInterruption process resource).NotPlanning := by
  apply notPlanning_look_bind
  intro valid
  split
  · apply notPlanning_look_bind
    intro available
    split
    · simp [Operation.isPlanning]
    · apply notPlanning_look_bind
      intro index
      simp
  · apply notPlanning_look_bind
    apply notPlanning_finishProcess

theorem notPlanning_handleSignalInterruption (process : PcbPointer) (resource : String) :
    (handleSignalInterruption process resource).NotPlanning := by
  apply notPlanning_look_bind
  intro valid
  split
  · apply notPlanning_look_bind
    intro held
    split
    · simp [Operation.isPlanning]
    · apply notPlanning_look_bind
      apply notPlanning_finishProcess
  · apply notPlanning_look_bind
    apply notPlanning_finishProcess

theorem notPlanning_handleInterrupt (process : PcbPointer) :
    (handleInterrupt process).NotPlanning := by
  apply Program.Every.bind (Quiet.notPlanning quiet_popLocked_exec)
  intro popped
  simp [semPost, Operation.isPlanning]

theorem notPlanning_handleDispatchConnection (message : Message) :
    (handleDispatchConnection message).NotPlanning := by
  apply Program.Every.bind (notPlanning_semWait rfl)
  intro _
  apply Program.Every.bind (notPlanning_semPost rfl)
  intro _
  apply Program.Every.bind (by simp [allocate, Operation.isPlanning])
  intro process
  cases message.request with
  | finish => apply notPlanning_finishProcess
  | interrupt => apply notPlanning_handleInterrupt
  | wait resource => apply notPlanning_handleWaitInterruption
  | signal resource => apply notPlanning_handleSignalInterruption
  | sleep time => simp

theorem notPlanning_threadSleepProcess (process : PcbPointer) :
    (threadSleepProcess process).NotPlanning := by
  apply Program.Every.bind (Quiet.notPlanning quiet_popLocked_exec)
  intro popped
  simp [semPost, Operation.isPlanning]

/-- Among the commands, only START and STOP plan. -/
theorem notPlanning_handlerConnection {command : Command} (notStart : command ≠ .startPlanning)
    (notStop : command ≠ .stopPlanning) : (handlerConnection command).NotPlanning := by
  cases command with
  | createProcess path quantum clientSocket =>
      apply Program.Every.bind (Quiet.notPlanning (quiet_receivePcbAndCreate _ _ _))
      intro process
      exact notPlanning_moveProcessToNew process
  | finishProcess pid => exact notPlanning_finishProcess pid
  | startPlanning => contradiction
  | stopPlanning => contradiction
  | modifyMultiprogrammingDegree newDegree =>
      exact Quiet.notPlanning (quiet_modifyMultiprogrammingDegree newDegree)
  | showAllProcesses =>
      apply Program.Every.bind (Quiet.notPlanning quiet_buildAllQueuesInList)
      intro queues
      trivial

end Code

/-! ### Every thread keeps to the discipline -/

/-- The code takes what the thread has planned from `before` to `after`. -/
def Code.Plans {α : Type} (role : Role) (before after : List Operation) (code : Code α) : Prop :=
  ∀ trace : List Operation, trace.map Operation.anonymous = before →
    code.Keeps planning role (fun trace _ => trace.map Operation.anonymous = after) trace

namespace Code

variable {α β : Type} {role : Role} {before middle after : List Operation}

theorem Plans.bind {code : Code α} {rest : α → Code β} (first : code.Plans role before middle)
    (second : ∀ result, (rest result).Plans role middle after) :
    (code >>= rest).Plans role before after := by
  intro trace planned
  rw [Program.keeps_bind]
  apply (first trace planned).imp
  intro trace result planned
  exact second result trace planned

theorem NotPlanning.plans {code : Code α} (silent : code.NotPlanning)
    (during : before <:+ role.planningOps) : code.Plans role before before := by
  intro trace planned
  have same : planning.during role trace := by simpa [planning, planned] using during
  exact silent.keeps same fun _ => planned

/-- Code without planning operations can be skipped. -/
theorem Plans.skip {code : Code Unit} {rest : Unit → Code β} (silent : code.NotPlanning)
    (during : before <:+ role.planningOps) (second : (rest ()).Plans role before after) :
    (code >>= rest).Plans role before after := by
  apply Plans.bind (NotPlanning.plans silent during)
  intro _
  exact second

theorem record_planning {op : Operation} (relevant : op.isPlanning = true)
    (trace : List Operation) : planning.record op trace = op :: trace := if_pos relevant

/-- A planning operation is added to what the thread has planned. -/
theorem plans_observe {op : Operation} (value : Memory → α) (relevant : op.isPlanning = true)
    (during : op.anonymous :: before <:+ role.planningOps) :
    Plans role before (op.anonymous :: before) (Program.observe op value) := by
  intro trace planned memory _
  have recorded : (op :: trace).map Operation.anonymous = op.anonymous :: before := by
    rw [List.map_cons, planned]
  rw [record_planning relevant]
  refine ⟨?_, recorded⟩
  rw [← recorded] at during
  exact during

theorem plans_semWait {semaphore : Semaphore}
    (relevant : (Operation.wait semaphore).isPlanning = true)
    (during : .wait semaphore :: before <:+ role.planningOps) :
    (semWait semaphore).Plans role before (.wait semaphore :: before) :=
  plans_observe (fun _ => ()) relevant during

theorem plans_semPost {semaphore : Semaphore}
    (relevant : (Operation.post semaphore).isPlanning = true)
    (during : .post semaphore :: before <:+ role.planningOps) :
    (semPost semaphore).Plans role before (.post semaphore :: before) :=
  plans_observe (fun _ => ()) relevant during

theorem plans_popLocked {id : QueueId} (relevant : (Operation.pop id).isPlanning = true)
    (beforeDuring : before <:+ role.planningOps) (during : .pop id :: before <:+ role.planningOps) :
    (popLocked id).Plans role before (.pop id :: before) := by
  apply Plans.skip (Quiet.notPlanning (quiet_semWait_mutex id)) beforeDuring
  apply Plans.bind (plans_observe _ relevant during)
  intro process
  apply Plans.skip (Quiet.notPlanning (quiet_semPost_mutex id)) during
  exact NotPlanning.plans trivial during

theorem plans_pushLocked_exec (process : PcbPointer) (beforeDuring : before <:+ role.planningOps)
    (during : .push .exec 0 :: before <:+ role.planningOps) :
    (pushLocked .exec process).Plans role before (.push .exec 0 :: before) := by
  apply Plans.skip (Quiet.notPlanning (quiet_semWait_mutex .exec)) beforeDuring
  have relevant : (Operation.push .exec process).isPlanning = true := rfl
  apply Plans.bind (plans_observe (fun _ => ()) relevant during)
  intro _
  exact NotPlanning.plans (Quiet.notPlanning (quiet_semPost_mutex .exec)) during

theorem plans_moveProcessToReady :
    moveProcessToReady.Plans .longTermPlanner [.wait .longTermPlanner]
      [.pop .new, .wait .longTermPlanner] := by
  apply Plans.bind (plans_popLocked rfl (by decide) (by decide))
  intro element
  apply Plans.bind (NotPlanning.plans (Quiet.notPlanning (quiet_dereference element)) (by decide))
  intro process
  exact NotPlanning.plans (by simp [Operation.isPlanning]) (by decide)

theorem plans_moveProcessToExec :
    moveProcessToExec.Plans .shortTermPlanner [.wait .shortTermPlanner]
      [.push .exec 0, .pop .ready, .wait .shortTermPlanner] := by
  apply Plans.bind (plans_popLocked rfl (by decide) (by decide))
  intro element
  apply Plans.bind (NotPlanning.plans (Quiet.notPlanning (quiet_dereference element)) (by decide))
  intro process
  apply Plans.skip (by simp [Operation.isPlanning]) (by decide)
  apply Plans.bind (plans_pushLocked_exec process (by decide) (by decide))
  intro _
  exact NotPlanning.plans (Quiet.notPlanning (quiet_dispatchProcessToCpu _ _)) (by decide)

theorem plans_longTermPlanner :
    longTermPlanner.Plans .longTermPlanner [] (Role.planningOps .longTermPlanner) := by
  apply Plans.bind (plans_semWait rfl (by decide))
  intro _
  apply Plans.skip (notPlanning_semWait rfl) (by decide)
  apply Plans.skip (notPlanning_semWait rfl) (by decide)
  apply Plans.bind plans_moveProcessToReady
  intro _
  apply Plans.skip (notPlanning_semPost rfl) (by decide)
  exact plans_semPost rfl (by decide)

/-- All three short-term planners begin alike. -/
theorem plans_shortTermIteration {rest : Unit → Code Unit}
    (later : ∀ result, (rest result).Plans .shortTermPlanner [.wait .shortTermPlanner]
      (Role.planningOps .shortTermPlanner)) :
    (semWait .shortTermPlanner >>= fun _ => semWait .processReady >>= fun _ =>
      semWait .cpuAvailable >>= rest).Plans .shortTermPlanner []
        (Role.planningOps .shortTermPlanner) := by
  apply Plans.bind (plans_semWait rfl (by decide))
  intro _
  apply Plans.skip (notPlanning_semWait rfl) (by decide)
  apply Plans.bind (NotPlanning.plans (notPlanning_semWait rfl) (by decide))
  exact later

/-- All three dispatch the process under `mutex_process_exec`. -/
theorem plans_dispatch {rest : Unit → Code Unit}
    (later : ∀ result, (rest result).Plans .shortTermPlanner
      [.push .exec 0, .pop .ready, .wait .shortTermPlanner]
      (Role.planningOps .shortTermPlanner)) :
    (semWait .mutexProcessExec >>= fun _ => moveProcessToExec >>= fun _ =>
      semPost .mutexProcessExec >>= rest).Plans .shortTermPlanner [.wait .shortTermPlanner]
        (Role.planningOps .shortTermPlanner) := by
  apply Plans.skip (notPlanning_semWait rfl) (by decide)
  apply Plans.bind plans_moveProcessToExec
  intro _
  apply Plans.bind (NotPlanning.plans (notPlanning_semPost rfl) (by decide))
  exact later

theorem plans_planingWithFifo :
    planingWithFifo.Plans .shortTermPlanner [] (Role.planningOps .shortTermPlanner) := by
  apply plans_shortTermIteration
  intro _
  apply plans_dispatch
  intro _
  exact plans_semPost rfl (by decide)

theorem plans_planningWithRoundRobin :
    planningWithRoundRobin.Plans .shortTermPlanner [] (Role.planningOps .shortTermPlanner) := by
  apply plans_shortTermIteration
  intro _
  apply plans_dispatch
  intro _
  apply Plans.skip (notPlanning_semWait rfl) (by decide)
  apply Plans.skip (Quiet.notPlanning quiet_interruptProcess) (by decide)
  apply Plans.skip (notPlanning_semPost rfl) (by decide)
  exact plans_semPost rfl (by decide)

theorem plans_planningWithPriorities :
    planningWithPriorities.Plans .shortTermPlanner [] (Role.planningOps .shortTermPlanner) := by
  apply plans_shortTermIteration
  intro _
  apply Plans.skip (Quiet.notPlanning quiet_sortQueue) (by decide)
  apply plans_dispatch
  intro _
  exact plans_semPost rfl (by decide)

theorem plans_startPlanning :
    (handlerConnection .startPlanning).Plans (.console (some .startPlanning)) []
      (Role.planningOps (.console (some .startPlanning))) := by
  apply Plans.bind (plans_semWait rfl (by decide))
  intro _
  apply Plans.bind (plans_semPost rfl (by decide))
  intro _
  exact plans_semPost rfl (by decide)

theorem plans_stopPlanning :
    (handlerConnection .stopPlanning).Plans (.console (some .stopPlanning)) []
      (Role.planningOps (.console (some .stopPlanning))) := by
  apply Plans.bind (plans_semPost rfl (by decide))
  intro _
  apply Plans.bind (plans_semWait rfl (by decide))
  intro _
  exact plans_semWait rfl (by decide)

end Code

namespace Code

theorem Plans.keeps {role : Role} {code : Code Unit} (plans : code.Plans role [] role.planningOps) :
    code.Keeps planning role (fun trace _ => planning.ending role trace) [] := by
  apply (plans [] rfl).imp
  intro trace _ planned
  exact Or.inr planned

theorem NotPlanning.keeps {role : Role} {code : Code Unit} (silent : code.NotPlanning) :
    code.Keeps planning role (fun trace _ => planning.ending role trace) [] :=
  Program.Every.keeps silent List.nil_suffix fun _ => Or.inl rfl

end Code

/-- Every program keeps to the discipline. -/
theorem planning_programs (config : KernelConfig) (role : Role) :
    planning.during role [] ∧ (role.code config).Keeps planning role
      (fun trace _ => planning.ending role trace) [] := by
  refine ⟨List.nil_suffix, ?_⟩
  cases role with
  | longTermPlanner => exact Code.plans_longTermPlanner.keeps
  | shortTermPlanner =>
      rw [Role.code]
      rcases Code.shortTermPlanner_cases config with fifo | roundRobin | priorities | unknown
      · rw [fifo]
        exact Code.plans_planingWithFifo.keeps
      · rw [roundRobin]
        exact Code.plans_planningWithRoundRobin.keeps
      · rw [priorities]
        exact Code.plans_planningWithPriorities.keeps
      · rw [unknown]
        exact Code.NotPlanning.keeps trivial
  | dispatchHandler message =>
      cases message with
      | none => exact Code.NotPlanning.keeps trivial
      | some message => exact (Code.notPlanning_handleDispatchConnection message).keeps
  | console command =>
      cases command with
      | none => exact Code.NotPlanning.keeps trivial
      | some command =>
          by_cases starts : command = .startPlanning
          · subst starts
            exact Code.plans_startPlanning.keeps
          by_cases stops : command = .stopPlanning
          · subst stops
            exact Code.plans_stopPlanning.keeps
          exact Code.NotPlanning.keeps (Code.notPlanning_handlerConnection starts stops)
  | sleeper process sleepTime =>
      exact Code.NotPlanning.keeps (Code.notPlanning_threadSleepProcess process)

/-! ### The books of the tokens -/

/-- What an operation takes of the tokens of a planner, wherever they are. -/
def Planner.weight (planner : Planner) (op : Operation) : Int :=
  op.takes .mutexStoppingPlanner + op.takes planner.semaphore

/-- The tokens of a planner that no thread has. -/
def Planner.value (planner : Planner) (memory : Memory) : Int :=
  memory.sem .mutexStoppingPlanner + memory.sem planner.semaphore

/-- What holds of the planning tokens in every state. -/
structure World.Planned (world : World) : Prop where
  follows : world.pool.Follows planning
  planners : ∀ planner : Planner,
    (world.pool.threads.countP fun thread => thread.role = planner.role) = 1
  tokens : ∀ planner : Planner,
    planner.value world.memory + world.pool.total (·.balance planner.weight) = 1

/-- What a thread has planned, as in `Role.planningOps`. -/
def Planner.planned (thread : Thread Role Operation Memory) : List Operation :=
  (thread.performed.filter Operation.isPlanning).map Operation.anonymous

namespace Planner

variable {planner : Planner} {thread : Thread Role Operation Memory}

theorem weight_anonymous (op : Operation) : planner.weight op.anonymous = planner.weight op := by
  cases op <;> rfl

theorem weight_of_notPlanning {op : Operation} (other : op.isPlanning = false) :
    planner.weight op = 0 := by
  cases planner <;> cases op <;>
    simp_all [Operation.isPlanning, weight, semaphore, Operation.takes]

/-- The balance of a thread is that of what it has planned. -/
theorem balance_planned : thread.balance planner.weight = ((planned thread).map planner.weight).sum := by
  rw [Thread.balance_filter planning fun op => weight_of_notPlanning, planned,
    List.map_map]
  congr 1
  apply List.map_congr_left
  intro op _
  exact (weight_anonymous op).symm

theorem mem_planned {op : Operation} (relevant : op.isPlanning = true)
    (named : ∀ other : Operation, other.anonymous = op ↔ other = op) :
    op ∈ planned thread ↔ op ∈ thread.performed := by
  simp [planned, List.mem_map, List.mem_filter, named, relevant, -Operation.isPlanning]

theorem wait_mem_planned {semaphore : Semaphore}
    (relevant : (Operation.wait semaphore).isPlanning = true) :
    .wait semaphore ∈ planned thread ↔ .wait semaphore ∈ thread.performed := by
  apply mem_planned relevant
  intro other
  cases other <;> simp [Operation.anonymous]

theorem post_mem_planned {semaphore : Semaphore}
    (relevant : (Operation.post semaphore).isPlanning = true) :
    .post semaphore ∈ planned thread ↔ .post semaphore ∈ thread.performed := by
  apply mem_planned relevant
  intro other
  cases other <;> simp [Operation.anonymous]

theorem inside_iff : planner.Inside thread ↔ thread.role = planner.role ∧
    .wait planner.semaphore ∈ planned thread ∧ .post planner.semaphore ∉ planned thread := by
  rw [wait_mem_planned (by cases planner <;> rfl), post_mem_planned (by cases planner <;> rfl)]
  exact Iff.rfl

theorem stopping_iff : planner.Stopping thread ↔ thread.role = .console (some .stopPlanning) ∧
    .post .mutexStoppingPlanner ∈ planned thread ∧ .wait planner.semaphore ∉ planned thread := by
  rw [wait_mem_planned (by cases planner <;> rfl), post_mem_planned rfl]
  exact Iff.rfl

theorem starting_iff : planner.Starting thread ↔ thread.role = .console (some .startPlanning) ∧
    .wait .mutexStoppingPlanner ∈ planned thread ∧ .post planner.semaphore ∉ planned thread := by
  rw [wait_mem_planned rfl, post_mem_planned (by cases planner <;> rfl)]
  exact Iff.rfl

/-- The tokens a thread has taken are the one it is inside with and the one it is starting with, less
    the one it is stopping with. -/
theorem balance_eq (planner : Planner) (follows : thread.Follows planning) :
    thread.balance planner.weight + (if planner.Stopping thread then 1 else 0) =
      (if planner.Inside thread then 1 else 0) + if planner.Starting thread then 1 else 0 := by
  have during : planned thread <:+ thread.role.planningOps := follows.1
  rw [balance_planned]
  simp only [inside_iff, stopping_iff, starting_iff]
  generalize planned thread = ops at during ⊢
  generalize thread.role = role at during ⊢
  -- one case for every point of the role's sequence
  match role with
  | .longTermPlanner | .console (some .startPlanning) | .console (some .stopPlanning) =>
      simp only [Role.planningOps, List.suffix_cons_iff, List.suffix_nil] at during
      rcases during with rfl | rfl | rfl | rfl <;> cases planner <;> decide
  | .shortTermPlanner =>
      simp only [Role.planningOps, List.suffix_cons_iff, List.suffix_nil] at during
      rcases during with rfl | rfl | rfl | rfl | rfl <;> cases planner <;> decide
  | .dispatchHandler _ | .sleeper _ _ | .console none | .console (some (.createProcess ..))
  | .console (some (.finishProcess _)) | .console (some (.modifyMultiprogrammingDegree _))
  | .console (some .showAllProcesses) =>
      obtain rfl := List.suffix_nil.mp during
      simp

/-- Nobody keeps a token. -/
theorem sum_planningOps (role : Role) : (role.planningOps.map planner.weight).sum = 0 := by
  unfold Role.planningOps
  split <;> cases planner <;> rfl

/-- A thread whose program is over has planned everything or nothing. -/
theorem planned_of_idle (follows : thread.Follows planning) (idle : thread.Idle) :
    planned thread = [] ∨ planned thread = thread.role.planningOps := by
  rcases follows.ending idle with nothing | everything
  · left
    rw [planned]
    exact congrArg (List.map _) nothing
  · exact .inr everything

theorem balance_of_idle (follows : thread.Follows planning) (idle : thread.Idle) :
    thread.balance planner.weight = 0 := by
  rw [balance_planned]
  rcases planned_of_idle follows idle with nothing | everything
  · rw [nothing]
    rfl
  · rw [everything, sum_planningOps]

/-- A STOP that is through waits for no planner. -/
theorem not_stopping_of_idle (follows : thread.Follows planning) (idle : thread.Idle) :
    ¬ planner.Stopping thread := by
  rw [stopping_iff]
  rintro ⟨role, posted, notWaited⟩
  rcases planned_of_idle follows idle with nothing | everything
  · rw [nothing] at posted
    exact List.not_mem_nil posted
  · rw [everything, role] at notWaited
    cases planner <;> exact absurd (by decide) notWaited

/-- A START that is through has posted both planners. -/
theorem not_starting_of_idle (follows : thread.Follows planning) (idle : thread.Idle) :
    ¬ planner.Starting thread := by
  rw [starting_iff]
  rintro ⟨role, waited, notPosted⟩
  rcases planned_of_idle follows idle with nothing | everything
  · rw [nothing] at waited
    exact List.not_mem_nil waited
  · rw [everything, role] at notPosted
    cases planner <;> exact absurd (by decide) notPosted

/-- A planning operation is the next one of the role's sequence. -/
theorem next_planned {op : Operation} (follows : thread.Follows planning)
    (next : thread.nextOp = some op) (relevant : op.isPlanning = true) :
    op.anonymous :: planned thread <:+ thread.role.planningOps := by
  have during := follows.during_next (Classical.arbitrary Memory) next trivial
  rw [Code.record_planning relevant] at during
  exact during

/-- No thread initializes a semaphore of the planners. -/
theorem next_not_init {semaphore : Semaphore} {value : Nat} (follows : thread.Follows planning)
    (relevant : (Operation.init semaphore value).isPlanning = true) :
    thread.nextOp ≠ some (.init semaphore value) := by
  intro next
  have member := (next_planned follows next relevant).mem List.mem_cons_self
  unfold Role.planningOps at member
  split at member <;> simp [Operation.anonymous] at member

theorem role_is_planner (planner : Planner) :
    planner.role = .longTermPlanner ∨ planner.role = .shortTermPlanner := by
  cases planner <;> simp [role]

end Planner

theorem World.planned_init (config : KernelConfig) : (World.init config).Planned where
  follows := by
    intro thread member
    simp only [World.init, List.mem_cons, List.not_mem_nil, or_false] at member
    rcases member with rfl | rfl | rfl
    · exact .start (planning_programs config _).1 (planning_programs config .longTermPlanner).2
    · exact .start (planning_programs config _).1 (planning_programs config .shortTermPlanner).2
    · exact .start (planning_programs config (.dispatchHandler none)).1
        (planning_programs config (.dispatchHandler none)).2
  planners planner := by cases planner <;> rfl
  tokens planner := by cases planner <;> rfl

theorem World.Planned.step {config : KernelConfig} {world next : World} {event : WorldEvent}
    (planned : world.Planned) (stepped : world.step config event = some next) : next.Planned where
  follows := (World.poolStep stepped).follows (planning_programs config)
    (fun _ _ _ _ _ _ => trivial) planned.follows
  planners planner := by
    rw [(World.poolStep stepped).countP_role planner.role_is_planner]
    exact planned.planners planner
  tokens planner := by
    rw [← planned.tokens planner]
    apply (World.poolStep stepped).balance
    · rintro before after same
      rw [same]
      rfl
    · intro thread member idle
      exact Planner.balance_of_idle (planned.follows thread member) idle
    · intro index thread op after _ at_index nextOp performed
      have threadFollows := planned.follows thread (List.mem_of_getElem? at_index)
      have mutex := Operation.sem_perform .mutexStoppingPlanner (by
        rintro value rfl
        exact Planner.next_not_init threadFollows rfl nextOp) performed
      have own := Operation.sem_perform planner.semaphore (by
        rintro value rfl
        exact Planner.next_not_init threadFollows (by cases planner <;> rfl) nextOp) performed
      simp only [Planner.value, Planner.weight]
      omega

/-- The invariant behind the claim: tokens are neither made nor lost. -/
theorem World.Planned.balance {world : World} (planned : world.Planned) (planner : Planner) :
    (world.memory.sem .mutexStoppingPlanner : Int) + world.plannerToken planner =
      1 + world.stopping planner - world.starting planner := by
  have unique : (world.pool.threads.countP fun thread => planner.Inside thread) ≤ 1 := by
    rw [← planned.planners planner]
    apply List.countP_mono_left
    intro thread _ inside
    have isInside : planner.Inside thread := by simpa using inside
    simpa using isInside.1
  have identity := Pool.total_congr fun thread member =>
    Planner.balance_eq planner (planned.follows thread member)
  rw [Pool.total_add, Pool.total_add, Pool.total_ite, Pool.total_ite, Pool.total_ite] at identity
  have books : planner.value world.memory + world.pool.total (Thread.balance planner.weight) = 1 :=
    planned.tokens planner
  rw [Planner.value] at books
  simp only [World.plannerToken, World.stopping, World.starting, Pool.ite_exists_eq_countP unique]
  push_cast
  omega

/-! ### Parked planners -/

namespace Planner

variable {planner : Planner} {thread : Thread Role Operation Memory} {op : Operation}

/-- Who performs a planning operation: a planner inside its loop body, a thread that waits, a START
    handler, or a STOP handler that posts `mutex_stopping_planner`. -/
theorem next_cases (follows : thread.Follows planning) (next : thread.nextOp = some op)
    (relevant : op.isPlanning = true) :
    (∃ planner : Planner, planner.Inside thread) ∨ (∃ semaphore, op = .wait semaphore) ∨
      thread.role = .console (some .startPlanning) ∨ op = .post .mutexStoppingPlanner := by
  have during := next_planned follows next relevant
  have waits : ∀ semaphore, op.anonymous = .wait semaphore → op = .wait semaphore := by
    intro semaphore
    cases op <;> simp [Operation.anonymous]
  have posts : ∀ semaphore, op.anonymous = .post semaphore → op = .post semaphore := by
    intro semaphore
    cases op <;> simp [Operation.anonymous]
  simp only [inside_iff]
  generalize planned thread = ops at during ⊢
  generalize thread.role = role at during ⊢
  match role with
  | .longTermPlanner =>
      simp only [Role.planningOps, List.suffix_cons_iff, List.suffix_nil, List.cons.injEq,
        reduceCtorEq, or_false] at during
      rcases during with ⟨_, rfl⟩ | ⟨_, rfl⟩ | ⟨waited, rfl⟩
      · exact .inl ⟨.longTerm, rfl, by decide⟩
      · exact .inl ⟨.longTerm, rfl, by decide⟩
      · exact .inr (.inl ⟨_, waits _ waited⟩)
  | .shortTermPlanner =>
      simp only [Role.planningOps, List.suffix_cons_iff, List.suffix_nil, List.cons.injEq,
        reduceCtorEq, or_false] at during
      rcases during with ⟨_, rfl⟩ | ⟨_, rfl⟩ | ⟨_, rfl⟩ | ⟨waited, rfl⟩
      · exact .inl ⟨.shortTerm, rfl, by decide⟩
      · exact .inl ⟨.shortTerm, rfl, by decide⟩
      · exact .inl ⟨.shortTerm, rfl, by decide⟩
      · exact .inr (.inl ⟨_, waits _ waited⟩)
  | .console (some .startPlanning) => exact .inr (.inr (.inl rfl))
  | .console (some .stopPlanning) =>
      simp only [Role.planningOps, List.suffix_cons_iff, List.suffix_nil, List.cons.injEq,
        reduceCtorEq, or_false] at during
      rcases during with ⟨waited, _⟩ | ⟨waited, _⟩ | ⟨posted, _⟩
      · exact .inr (.inl ⟨_, waits _ waited⟩)
      · exact .inr (.inl ⟨_, waits _ waited⟩)
      · exact .inr (.inr (.inr (posts _ posted)))
  | .dispatchHandler _ | .sleeper _ _ | .console none | .console (some (.createProcess ..))
  | .console (some (.finishProcess _)) | .console (some (.modifyMultiprogrammingDegree _))
  | .console (some .showAllProcesses) => simp [Role.planningOps] at during

end Planner

/-- Nothing will start the planners: no START handler is at work. -/
def World.NoStart (world : World) : Prop :=
  ∀ thread ∈ world.pool.threads, thread.role = .console (some .startPlanning) → thread.Idle

namespace World

variable {config : KernelConfig} {world next : World} {event : WorldEvent}

/-- What a thread does next when no planner is inside its loop body and none is being started. -/
theorem Parked.next_cases (parked : world.Parked) (planned : world.Planned) (noStart : world.NoStart)
    {thread : Thread Role Operation Memory} {op : Operation} (member : thread ∈ world.pool.threads)
    (nextOp : thread.nextOp = some op) (relevant : op.isPlanning = true) :
    (∃ semaphore, op = .wait semaphore) ∨ op = .post .mutexStoppingPlanner := by
  rcases Planner.next_cases (planned.follows thread member) nextOp relevant with
    ⟨planner, inside⟩ | waits | starting | posts
  · exact absurd inside ((parked planner).2 thread member)
  · exact .inl waits
  · have idle := noStart thread member starting
    rw [Thread.Idle, nextOp] at idle
    cases idle
  · exact .inr posts

/-- In a parked world no process is admitted or moved to EXEC. -/
theorem Parked.not_moves (parked : world.Parked) (planned : world.Planned)
    (noStart : world.NoStart) : ¬ world.Moves event := by
  intro moves
  cases event with
  | advance index =>
      have silent : ∀ op : Operation, op.isPlanning = true → (∀ semaphore, op ≠ .wait semaphore) →
          op ≠ .post .mutexStoppingPlanner → world.pool.nextOp index ≠ some op := by
        intro op relevant notWait notPost nextOp
        obtain ⟨thread, at_index, threadNext⟩ := Option.bind_eq_some_iff.mp nextOp
        rcases parked.next_cases planned noStart (List.mem_of_getElem? at_index) threadNext relevant
          with ⟨semaphore, waits⟩ | posts
        · exact notWait semaphore waits
        · exact notPost posts
      rcases moves with popNew | popReady | ⟨process, pushExec⟩
      · exact silent (.pop .new) rfl (by simp) (by simp) popNew
      · exact silent (.pop .ready) rfl (by simp) (by simp) popReady
      · exact silent (.push .exec process) rfl (by simp) (by simp) pushExec
  | _ => exact moves

theorem NoStart.step (noStart : world.NoStart)
    (other : ∀ index, event ≠ .command index .startPlanning)
    (stepped : world.step config event = some next) : next.NoStart := by
  intro thread member starting
  have step := World.poolStep stepped
  generalize next.pool = pool at step member
  cases step with
  | advance advanced =>
      obtain ⟨old, op, rest, after, at_index, program, _, rfl⟩ := Pool.advance_cases advanced
      rcases List.mem_or_eq_of_mem_set member with before | rfl
      · exact noStart thread before starting
      · have idle := noStart old (List.mem_of_getElem? at_index) starting
        rw [Thread.Idle, Thread.nextOp, program] at idle
        cases idle
  | @restart _ _ _ role starts _ _ _ =>
      rcases List.mem_or_eq_of_mem_set member with before | rfl
      · exact noStart thread before starting
      · have isStart : role = .console (some .startPlanning) := starting
        subst isStart
        cases event with
        | command index request =>
            obtain rfl : .startPlanning = request := starts
            exact absurd rfl (other index)
        | _ => exact starts.elim
  | @spawn _ role _ _ new _ =>
      rcases List.mem_append.mp member with before | created
      · exact noStart thread before starting
      · rw [List.mem_singleton.mp created] at starting
        have isStart : role = .console (some .startPlanning) := starting
        rcases new with rfl | ⟨_, _, rfl⟩ <;> cases isStart
  | environment _ => exact noStart thread member starting

/-- The semaphore of a parked planner stays at zero. -/
theorem Parked.sem_step (parked : world.Parked) (planned : world.Planned) (noStart : world.NoStart)
    (stepped : world.step config event = some next) (planner : Planner) :
    next.memory.sem planner.semaphore = 0 := by
  have zero := (parked planner).1
  have step := World.poolStep stepped
  unfold World.memory at zero ⊢
  generalize next.pool = pool at step ⊢
  cases step with
  | advance advanced =>
      obtain ⟨thread, op, rest, after, at_index, program, performed, rfl⟩ :=
        Pool.advance_cases advanced
      have member := List.mem_of_getElem? at_index
      have nextOp := Thread.nextOp_of_rest program
      have relevant : (Operation.post planner.semaphore).isPlanning = true := by cases planner <;> rfl
      have notPost : op ≠ .post planner.semaphore := by
        rintro rfl
        rcases parked.next_cases planned noStart member nextOp relevant with ⟨_, waits⟩ | posts
        · cases waits
        · cases planner <;> cases posts
      have lost := Operation.sem_perform planner.semaphore (by
        rintro value rfl
        exact Planner.next_not_init (planned.follows thread member) (by cases planner <;> rfl) nextOp)
        performed
      have nonneg := Operation.takes_nonneg notPost
      change after.sem planner.semaphore = 0
      omega
  | restart _ _ _ _ => exact zero
  | spawn _ _ same => exact (congrFun same.sem _).trans zero
  | environment same => exact (congrFun same.sem _).trans zero

/-- A parked planner stays outside its loop body. -/
theorem Parked.outside_step (parked : world.Parked) (stepped : world.step config event = some next)
    (planner : Planner) : ∀ thread ∈ next.pool.threads, ¬ planner.Inside thread := by
  intro thread member inside
  have zero := (parked planner).1
  have outside := (parked planner).2
  have step := World.poolStep stepped
  generalize next.pool = pool at step member
  cases step with
  | advance advanced =>
      obtain ⟨old, op, rest, after, at_index, program, performed, rfl⟩ := Pool.advance_cases advanced
      rcases List.mem_or_eq_of_mem_set member with before | rfl
      · exact outside thread before inside
      · obtain ⟨role, waited, notPosted⟩ := inside
        rcases List.mem_cons.mp waited with rfl | before
        · obtain ⟨positive, _⟩ := Option.ite_none_right_eq_some.mp performed
          exact absurd zero positive.ne'
        · exact outside old (List.mem_of_getElem? at_index)
            ⟨role, before, fun posted => notPosted (List.mem_cons_of_mem _ posted)⟩
  | restart _ _ _ _ =>
      rcases List.mem_or_eq_of_mem_set member with before | rfl
      · exact outside thread before inside
      · exact List.not_mem_nil inside.2.1
  | spawn _ _ _ =>
      rcases List.mem_append.mp member with before | created
      · exact outside thread before inside
      · rw [List.mem_singleton.mp created] at inside
        exact List.not_mem_nil inside.2.1
  | environment _ => exact outside thread member inside

/-- Stopped planners are parked as soon as no command is in progress. -/
theorem Planned.parked (planned : world.Planned) (noneInProgress : world.NoneInProgress)
    (stopped : world.memory.sem .mutexStoppingPlanner = 1) : world.Parked := by
  intro planner
  have noStopping : world.stopping planner = 0 := by
    rw [stopping, List.countP_eq_zero]
    intro thread member counted
    have isStopping : planner.Stopping thread := by simpa using counted
    have idle := noneInProgress thread member (.inr isStopping.1)
    exact Planner.not_stopping_of_idle (planned.follows thread member) idle isStopping
  have noStarting : world.starting planner = 0 := by
    rw [starting, List.countP_eq_zero]
    intro thread member counted
    have isStarting : planner.Starting thread := by simpa using counted
    have idle := noneInProgress thread member (.inl isStarting.1)
    exact Planner.not_starting_of_idle (planned.follows thread member) idle isStarting
  have tokens := planned.balance planner
  rw [noStopping, noStarting, stopped] at tokens
  have noToken : world.plannerToken planner = 0 := by omega
  obtain ⟨zero, outside⟩ := Nat.add_eq_zero_iff.mp noToken
  refine ⟨zero, fun thread member inside => ?_⟩
  rw [if_pos ⟨thread, member, inside⟩] at outside
  cases outside

/-- What holds from a stop to the next START. -/
structure Stopped (world : World) : Prop where
  planned : world.Planned
  parked : world.Parked
  noStart : world.NoStart

theorem Stopped.step (stopped : world.Stopped)
    (other : ∀ index, event ≠ .command index .startPlanning)
    (stepped : world.step config event = some next) : next.Stopped where
  planned := stopped.planned.step stepped
  parked planner :=
    ⟨stopped.parked.sem_step stopped.planned stopped.noStart stepped planner,
      stopped.parked.outside_step stepped planner⟩
  noStart := stopped.noStart.step other stepped

end World

/-- In every reachable state the token of each planner is at `mutex_stopping_planner`, at the
    planner's semaphore or with the planner, up to the commands that are half done; and when no
    command is in progress and planning is stopped, nothing is admitted or executed until the next
    START. -/
theorem planning_tokens_conserved (config : KernelConfig) (events : List WorldEvent) (world : World)
    (reaches : run (World.step config) (World.init config) events = some world) :
    (∀ planner : Planner,
      (world.memory.sem .mutexStoppingPlanner : Int) + world.plannerToken planner =
        1 + world.stopping planner - world.starting planner) ∧
    (world.NoneInProgress → world.memory.sem .mutexStoppingPlanner = 1 →
      ∀ later : List WorldEvent, (∀ index, .command index .startPlanning ∉ later) →
        Throughout (World.step config) World.Parked world later ∧
          Meets (World.step config) (fun world event => ¬ world.Moves event) world later) := by
  have planned : world.Planned :=
    invariant_of_run World.Planned World.Planned.step (World.planned_init config) reaches
  refine ⟨planned.balance, fun noneInProgress stopped later noStartLater => ?_⟩
  have noStart : world.NoStart := fun thread member starting =>
    noneInProgress thread member (.inl starting)
  have guarded : Meets (World.step config)
      (fun _ event => ∀ index, event ≠ .command index .startPlanning) world later := by
    apply meets_of_forall
    rintro event member index rfl
    exact noStartLater index member
  have throughout := throughout_of_guarded_run World.Stopped.step
    ⟨planned, planned.parked noneInProgress stopped, noStart⟩ guarded
  exact ⟨throughout.imp fun _ stopped => stopped.parked,
    throughout.meets fun _ _ stopped => stopped.parked.not_moves stopped.planned stopped.noStart⟩

instance (world : World) : Decidable world.NoneInProgress :=
  inferInstanceAs (Decidable (∀ thread ∈ world.pool.threads, _ → _))

/-- Two consoles: the first one starts the planners, the second one stops them before they have begun. -/
def startAndStop : List WorldEvent :=
  [.connect, .connect, .command 3 .startPlanning, .advance 3, .advance 3, .command 4 .stopPlanning,
    .advance 4, .advance 4, .advance 3, .advance 4]

theorem planning_tokens_conserved_witness :
    ∃ world, run (World.step fifoConfig) (World.init fifoConfig) startAndStop = some world ∧
      (∀ planner : Planner,
        (world.memory.sem .mutexStoppingPlanner : Int) + world.plannerToken planner =
          1 + world.stopping planner - world.starting planner) ∧
      Throughout (World.step fifoConfig) World.Parked world
        ([.command 3 (.createProcess "DEADLOCK_A" 0 5)] ++ List.replicate 11 (.advance 3)) ∧
      Meets (World.step fifoConfig) (fun world event => ¬ world.Moves event) world
        ([.command 3 (.createProcess "DEADLOCK_A" 0 5)] ++ List.replicate 11 (.advance 3)) := by
  have conserved := planning_tokens_conserved fifoConfig startAndStop _ rfl
  exact ⟨_, rfl, conserved.1, conserved.2 (by decide) (by decide) _ (by simp)⟩

end OsSimulator
