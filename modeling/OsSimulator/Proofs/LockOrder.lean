/-
Module: OsSimulator.Proofs.LockOrder
Purpose: The seven mutexes of the kernel.  Every program takes them in one order, gives each of them
  back, and waits for no other semaphore in between; so in every interleaving a mutex is free or held
  by one thread, and the threads never wait for each other in a circle.
Main exports: Mutex, kernelLocks, Role.restores_code, ConnectedWorld.LocksKept, run_locks_kept
-/
import OsSimulator.Lib.Locks
import OsSimulator.Concurrent.ConnectedWorld
import OsSimulator.Proofs.Interleavings

namespace OsSimulator

open Threads Transition

/-- The mutexes. -/
inductive Mutex where
  | queueNew
  | queueReady
  | queueBlocked
  | queueExec
  | processExec
  | cpuDispatchConnection
  | cpuInterruptConnection
deriving DecidableEq, Repr

/-- The semaphore that is the mutex. -/
def Mutex.semaphore : Mutex → Semaphore
  | .queueNew => .mutexQueueNew
  | .queueReady => .mutexQueueReady
  | .queueBlocked => .mutexQueueBlocked
  | .queueExec => .mutexQueueExec
  | .processExec => .mutexProcessExec
  | .cpuDispatchConnection => .mutexCpuDispatchConnection
  | .cpuInterruptConnection => .mutexCpuInterruptConnection

/-- The mutex that the semaphore is; the others count, `mutex_stopping_planner` among them. -/
def Semaphore.mutex? : Semaphore → Option Mutex
  | .mutexQueueNew => some .queueNew
  | .mutexQueueReady => some .queueReady
  | .mutexQueueBlocked => some .queueBlocked
  | .mutexQueueExec => some .queueExec
  | .mutexProcessExec => some .processExec
  | .mutexCpuDispatchConnection => some .cpuDispatchConnection
  | .mutexCpuInterruptConnection => some .cpuInterruptConnection
  | .processNew | .processReady | .processBlocked | .cpuAvailable | .multiprogrammingDegree
  | .shortTermPlanner | .longTermPlanner | .mutexStoppingPlanner => none

theorem Semaphore.mutex?_eq_some {semaphore : Semaphore} {mutex : Mutex} :
    semaphore.mutex? = some mutex ↔ semaphore = mutex.semaphore := by
  cases semaphore <;> cases mutex <;> simp [Semaphore.mutex?, Mutex.semaphore]

/-- The mutex of a queue. -/
def QueueId.lock : QueueId → Mutex
  | .new => .queueNew
  | .ready => .queueReady
  | .exec => .queueExec
  | .blocked _ => .queueBlocked

/-- `mutex_process_exec` is taken before the others, `mutex_cpu_interrupt_connection` after them. -/
def Mutex.rank : Mutex → Nat
  | .processExec => 0
  | .queueNew | .queueReady | .queueBlocked | .queueExec | .cpuDispatchConnection => 1
  | .cpuInterruptConnection => 2

/-- What the operations of the kernel do with its mutexes: a `sem_wait` of any other semaphore may
    suspend the thread. -/
def kernelLocks : LockUse Operation Mutex where
  effect
    | .wait semaphore =>
        match semaphore.mutex? with
        | some mutex => .acquires mutex
        | none => .suspends
    | .post semaphore =>
        match semaphore.mutex? with
        | some mutex => .releases mutex
        | none => .none
    | .init semaphore _ =>
        match semaphore.mutex? with
        | some _ => .overwrites
        | none => .none
    | _ => .none
  rank := Mutex.rank

theorem QueueId.mutex_eq (id : QueueId) : id.mutex = id.lock.semaphore := by
  cases id <;> rfl

theorem QueueId.rank_lock (id : QueueId) : id.lock.rank = 1 := by
  cases id <;> rfl

/-- What an operation takes from the semaphore of a mutex is what it takes of the mutex. -/
theorem taken_effect {op : Operation} (mutex : Mutex)
    (keeps : kernelLocks.effect op ≠ .overwrites) :
    LockUse.taken mutex (kernelLocks.effect op) = op.takes mutex.semaphore := by
  cases op with
  | wait semaphore | post semaphore =>
      cases isMutex : semaphore.mutex? with
      | none =>
          have other : semaphore ≠ mutex.semaphore := fun same => by
            simp [Semaphore.mutex?_eq_some.mpr same] at isMutex
          simp [kernelLocks, isMutex, LockUse.taken, Operation.takes, other]
      | some found =>
          obtain rfl := Semaphore.mutex?_eq_some.mp isMutex
          have injective : found.semaphore = mutex.semaphore ↔ found = mutex := by
            cases found <;> cases mutex <;> simp [Mutex.semaphore]
          simp [kernelLocks, isMutex, LockUse.taken, Operation.takes, injective]
  | init semaphore value =>
      cases isMutex : semaphore.mutex? <;>
        simp [kernelLocks, isMutex, LockUse.taken, Operation.takes] at keeps ⊢
  | _ => rfl

/-- The value of a mutex says whether it is free. -/
theorem kernelLocks_governs (config : KernelConfig) :
    kernelLocks.Governs (Operation.perform config)
      (fun mutex memory => memory.sem mutex.semaphore) := by
  intro op memory after keeps performed mutex
  rw [taken_effect mutex keeps]
  refine Operation.sem_perform mutex.semaphore ?_ performed
  rintro value rfl
  simp [kernelLocks, Semaphore.mutex?_eq_some.mpr rfl] at keeps

/-! ### Every program gives its mutexes back -/

namespace Code

open Program

/-- The code takes the mutexes in their order and gives them back, whatever else holds `held`. -/
abbrev RestoresLocks {α : Type} (held : List Mutex) (code : Code α) : Prop :=
  code.Restores kernelLocks held

variable {held : List Mutex} {α : Type}

/-- Only mutexes below those of the queues are held. -/
def BelowQueues (held : List Mutex) : Prop := ∀ other ∈ held, other.rank < 1

theorem belowQueues_nil : BelowQueues [] := by simp [BelowQueues]

theorem belowQueues_processExec : BelowQueues [.processExec] := by
  simp [BelowQueues, Mutex.rank]

theorem restores_look (value : Memory → α) : RestoresLocks held (look value) :=
  restores_observe rfl

/-- A `sem_post` of a semaphore that counts. -/
theorem restores_semPost {semaphore : Semaphore} (counts : semaphore.mutex? = none) :
    RestoresLocks held (semPost semaphore) := by
  apply restores_perform
  simp [kernelLocks, counts]

/-- A `sem_wait` of a semaphore that counts, with no mutex held. -/
theorem restores_semWait {semaphore : Semaphore} (counts : semaphore.mutex? = none) :
    RestoresLocks [] (semWait semaphore) := by
  apply restores_suspending
  simp [kernelLocks, counts]

theorem restores_dereference (process : Option PcbPointer) :
    RestoresLocks held (dereference process) := by
  cases process with
  | some process => exact restores_pure process
  | none => exact (restores_perform rfl).bind fun _ => restores_pure 0

theorem restores_allocate (pcb : Pcb) : RestoresLocks held (allocate pcb) := restores_observe rfl

theorem restores_sendPcbToMemory (header : OperationCode) (process : PcbPointer) :
    RestoresLocks held (sendPcbToMemory header process) := by
  refine (restores_look _).bind fun pcb => ?_
  refine (restores_perform rfl).bind fun _ => ?_
  refine (restores_perform rfl).bind fun _ => ?_
  exact restores_perform rfl

/-- A critical section of a mutex above those that are held, and what follows it. -/
theorem restores_section {β : Type} {body : Code α} {after : α → Code β} (mutex : Mutex)
    (above : ∀ other ∈ held, other.rank < mutex.rank)
    (inside : RestoresLocks (mutex :: held) body)
    (rest : ∀ result, RestoresLocks held (after result)) :
    RestoresLocks held (do
      semWait mutex.semaphore
      let result ← body
      semPost mutex.semaphore
      after result) := by
  apply Restores.critical ?_ ?_ above inside rest
  · cases mutex <;> rfl
  · cases mutex <;> rfl

/-- A critical section at the end. -/
theorem restores_lastSection {body : Code α} (mutex : Mutex)
    (above : ∀ other ∈ held, other.rank < mutex.rank)
    (inside : RestoresLocks (mutex :: held) body) :
    RestoresLocks held (do
      semWait mutex.semaphore
      let _ ← body
      semPost mutex.semaphore) :=
  restores_section mutex above inside fun _ => restores_pure ()

/-- A critical section with nothing in it. -/
theorem restores_emptySection {after : Code α} (mutex : Mutex)
    (above : ∀ other ∈ held, other.rank < mutex.rank) (rest : RestoresLocks held after) :
    RestoresLocks held (do
      semWait mutex.semaphore
      semPost mutex.semaphore
      after) :=
  restores_section mutex above (restores_pure ()) fun _ => rest

/-! ### `queues.c` -/

theorem restores_pushLocked (id : QueueId) (process : PcbPointer) (below : BelowQueues held) :
    RestoresLocks held (pushLocked id process) := by
  rw [pushLocked, QueueId.mutex_eq]
  exact restores_lastSection id.lock (id.rank_lock ▸ below) (restores_perform rfl)

theorem restores_popLocked (id : QueueId) (below : BelowQueues held) :
    RestoresLocks held (popLocked id) := by
  rw [popLocked, QueueId.mutex_eq]
  exact restores_section id.lock (id.rank_lock ▸ below) (restores_observe rfl) restores_pure

theorem restores_removeLocked (id : QueueId) (process : PcbPointer) (below : BelowQueues held) :
    RestoresLocks held (removeLocked id process) := by
  rw [removeLocked, QueueId.mutex_eq]
  exact restores_lastSection id.lock (id.rank_lock ▸ below) (restores_perform rfl)

theorem restores_buildAllQueuesInList : RestoresLocks [] buildAllQueuesInList := by
  refine restores_emptySection .queueNew (by simp) ?_
  refine restores_emptySection .queueReady (by simp) ?_
  refine restores_emptySection .queueExec (by simp) ?_
  exact restores_section .queueBlocked (by simp) (restores_look _) fun _ => restores_pure _

theorem restores_searchQueues (pid : UInt32) (ids : List QueueId) :
    RestoresLocks [] (searchQueues pid ids) := by
  induction ids with
  | nil => exact restores_pure none
  | cons id ids ih =>
      rw [searchQueues, QueueId.mutex_eq]
      refine restores_section id.lock (by simp) (restores_observe rfl) fun found => ?_
      cases found with
      | some process => exact restores_pure _
      | none => exact ih

theorem restores_moveProcessFromBlockToReady (processToMove : PcbPointer) (index : Nat) :
    RestoresLocks [] (moveProcessFromBlockToReady processToMove index) := by
  refine (restores_perform rfl).bind fun _ => ?_
  refine (restores_pushLocked .ready _ belowQueues_nil).bind fun _ => ?_
  refine (restores_removeLocked (.blocked index) _ belowQueues_nil).bind fun _ => ?_
  refine (restores_semWait rfl).bind fun _ => ?_
  exact restores_semPost rfl

theorem restores_wakeLoop (index : Nat) (available : Int) (turns position : Nat) :
    RestoresLocks [] (wakeLoop index available turns position) := by
  induction turns generalizing position with
  | zero => exact restores_pure ()
  | succ turns ih =>
      refine (restores_look _).bind fun size => ?_
      split
      · refine restores_section .queueBlocked (by simp) (restores_look _) fun element => ?_
        refine (restores_dereference element).bind fun processToMove => ?_
        refine (restores_moveProcessFromBlockToReady processToMove index).bind fun _ => ?_
        exact ih (position + 1)
      · exact restores_pure ()

theorem restores_wakeQueue (index : Nat) : RestoresLocks [] (wakeQueue index) := by
  refine (restores_look _).bind fun size => ?_
  split
  · refine (restores_look _).bind fun available => ?_
    split
    · exact restores_wakeLoop index available _ 0
    · exact restores_pure ()
  · exact restores_pure ()

theorem restores_wakeQueues (indices : List Nat) : RestoresLocks [] (wakeQueues indices) := by
  induction indices with
  | nil => exact restores_pure ()
  | cons index indices ih => exact (restores_wakeQueue index).bind fun _ => ih

theorem restores_updateQueueSemaphores (state : ProcessState) :
    RestoresLocks [] (updateQueueSemaphores state) := by
  cases state with
  | execution => exact (restores_semPost rfl).bind fun _ => restores_semPost rfl
  | ready => exact (restores_semWait rfl).bind fun _ => restores_semPost rfl
  | blocked => exact (restores_semWait rfl).bind fun _ => restores_semPost rfl
  | new => exact restores_semWait rfl
  | exit => exact restores_semWait rfl

theorem restores_addResourceInstances (resources : List String) :
    RestoresLocks held (addResourceInstances resources) := by
  induction resources with
  | nil => exact restores_pure ()
  | cons resource resources ih => exact (restores_perform rfl).bind fun _ => ih

/-- `finish_process` waits for its counting semaphores between the critical sections, not in them. -/
theorem restores_finishFound (id : QueueId) (processToFinish : PcbPointer) :
    RestoresLocks [] (finishFound id processToFinish) := by
  refine (restores_observe rfl).bind fun previousState => ?_
  refine (restores_perform rfl).bind fun _ => ?_
  refine Restores.bind ((restores_look _).bind restores_addResourceInstances) fun _ => ?_
  refine (restores_removeLocked id _ belowQueues_nil).bind fun _ => ?_
  refine Restores.bind ((restores_look _).bind fun _ => restores_wakeQueues _) fun _ => ?_
  refine (restores_sendPcbToMemory .finishProcess _).bind fun _ => ?_
  exact restores_updateQueueSemaphores previousState

theorem restores_finishProcess (pid : UInt32) : RestoresLocks [] (finishProcess pid) := by
  refine restores_buildAllQueuesInList.bind fun queues => ?_
  refine (restores_searchQueues pid queues).bind fun found => ?_
  cases found with
  | none => exact restores_pure ()
  | some found => exact restores_finishFound found.1 found.2

theorem restores_moveProcessToNew (processToMove : PcbPointer) :
    RestoresLocks [] (moveProcessToNew processToMove) := by
  refine (restores_sendPcbToMemory .createProcess _).bind fun _ => ?_
  refine (restores_pushLocked .new _ belowQueues_nil).bind fun _ => ?_
  exact restores_semPost rfl

theorem restores_moveProcessToReady : RestoresLocks [] moveProcessToReady := by
  refine (restores_popLocked .new belowQueues_nil).bind fun element => ?_
  refine (restores_dereference element).bind fun processToMove => ?_
  refine (restores_perform rfl).bind fun _ => ?_
  exact restores_pushLocked .ready _ belowQueues_nil

/-- Three mutexes one after the other, inside `mutex_process_exec`. -/
theorem restores_moveProcessToExec (below : BelowQueues held) :
    RestoresLocks held moveProcessToExec := by
  refine (restores_popLocked .ready below).bind fun element => ?_
  refine (restores_dereference element).bind fun processToMove => ?_
  refine (restores_perform rfl).bind fun _ => ?_
  refine (restores_pushLocked .exec _ below).bind fun _ => ?_
  exact restores_lastSection .cpuDispatchConnection below (restores_perform rfl)

theorem restores_moveProcessFromExecToBlocked (index : Nat) :
    RestoresLocks [] (moveProcessFromExecToBlocked index) := by
  refine (restores_popLocked .exec belowQueues_nil).bind fun element => ?_
  refine (restores_dereference element).bind fun processToMove => ?_
  refine (restores_semPost rfl).bind fun _ => ?_
  refine (restores_perform rfl).bind fun _ => ?_
  refine (restores_pushLocked (.blocked index) _ belowQueues_nil).bind fun _ => ?_
  exact restores_semPost rfl

/-! ### `planners.c` -/

theorem restores_longTermPlanner : RestoresLocks [] longTermPlanner := by
  refine (restores_semWait rfl).bind fun _ => ?_
  refine (restores_semWait rfl).bind fun _ => ?_
  refine (restores_semWait rfl).bind fun _ => ?_
  refine restores_moveProcessToReady.bind fun _ => ?_
  refine (restores_semPost rfl).bind fun _ => ?_
  exact restores_semPost rfl

/-- The tokens that every short-term planner takes before its critical sections. -/
theorem restores_takeTokens {after : Code Unit} (rest : RestoresLocks [] after) :
    RestoresLocks [] (do
      semWait .shortTermPlanner
      semWait .processReady
      semWait .cpuAvailable
      after) := by
  refine (restores_semWait rfl).bind fun _ => ?_
  refine (restores_semWait rfl).bind fun _ => ?_
  exact (restores_semWait rfl).bind fun _ => rest

theorem restores_planingWithFifo : RestoresLocks [] planingWithFifo := by
  refine restores_takeTokens ?_
  refine restores_section .processExec (by simp)
    (restores_moveProcessToExec belowQueues_processExec) fun _ => ?_
  exact restores_semPost rfl

theorem restores_planningWithPriorities : RestoresLocks [] planningWithPriorities := by
  refine restores_takeTokens ?_
  refine Restores.bind (restores_lastSection .queueReady (by simp) (restores_perform rfl))
    fun _ => ?_
  refine restores_section .processExec (by simp)
    (restores_moveProcessToExec belowQueues_processExec) fun _ => ?_
  exact restores_semPost rfl

/-- The interrupt is sent inside `mutex_queue_exec`. -/
theorem restores_planningWithRoundRobin : RestoresLocks [] planningWithRoundRobin := by
  refine restores_takeTokens ?_
  refine restores_section .processExec (by simp)
    (restores_moveProcessToExec belowQueues_processExec) fun _ => ?_
  refine restores_section .queueExec (by simp) ?_ fun _ => restores_semPost rfl
  exact restores_lastSection .cpuInterruptConnection (by simp [Mutex.rank]) (restores_perform rfl)

theorem restores_shortTermPlanner (config : KernelConfig) :
    RestoresLocks [] (shortTermPlanner config) := by
  rcases shortTermPlanner_cases config with same | same | same | same
  · rw [same]; exact restores_planingWithFifo
  · rw [same]; exact restores_planningWithRoundRobin
  · rw [same]; exact restores_planningWithPriorities
  · rw [same]; exact restores_pure ()

/-! ### `deadlocks.c` and `handle_connection.c` -/

theorem restores_finishMessage (process : PcbPointer) :
    RestoresLocks [] (do
      let pid ← look fun memory => (memory.pcb process).pid
      finishProcess pid) :=
  (restores_look _).bind restores_finishProcess

theorem restores_handleWaitInterruption (process : PcbPointer) (resource : String) :
    RestoresLocks [] (handleWaitInterruption process resource) := by
  refine (restores_look _).bind fun valid => ?_
  split
  · refine (restores_look _).bind fun available => ?_
    split
    · refine (restores_perform rfl).bind fun _ => ?_
      refine (restores_perform rfl).bind fun _ => ?_
      refine (restores_perform rfl).bind fun _ => ?_
      exact restores_perform rfl
    · exact (restores_look _).bind restores_moveProcessFromExecToBlocked
  · exact restores_finishMessage process

theorem restores_handleSignalInterruption (process : PcbPointer) (resource : String) :
    RestoresLocks [] (handleSignalInterruption process resource) := by
  refine (restores_look _).bind fun valid => ?_
  split
  · refine (restores_look _).bind fun held => ?_
    split
    · refine (restores_perform rfl).bind fun _ => ?_
      refine (restores_perform rfl).bind fun _ => ?_
      refine (restores_perform rfl).bind fun _ => ?_
      exact restores_perform rfl
    · exact restores_finishMessage process
  · exact restores_finishMessage process

/-- Every case of the `switch` posts the mutex with which the turn begins before it does anything
    else. -/
theorem restores_handleDispatchConnection (message : Message) :
    RestoresLocks [] (handleDispatchConnection message) := by
  refine restores_emptySection .cpuDispatchConnection (by simp) ?_
  refine (restores_allocate message.pcb).bind fun process => ?_
  cases message.request with
  | finish => exact restores_finishProcess message.pcb.pid
  | interrupt =>
      refine (restores_popLocked .exec belowQueues_nil).bind fun _ => ?_
      refine (restores_semPost rfl).bind fun _ => ?_
      refine (restores_perform rfl).bind fun _ => ?_
      refine (restores_pushLocked .ready _ belowQueues_nil).bind fun _ => ?_
      exact restores_semPost rfl
  | wait resource => exact restores_handleWaitInterruption process resource
  | signal resource => exact restores_handleSignalInterruption process resource
  | sleep time => exact (restores_perform rfl).bind fun _ => restores_semPost rfl

theorem restores_handleOtherHeader (header : DispatchHeader) :
    RestoresLocks [] (handleOtherHeader header) := by
  cases header with
  | blockProcess pcb =>
      exact restores_lastSection .cpuDispatchConnection (by simp) (restores_allocate pcb)
  | pageFaultRequest pcb =>
      refine restores_emptySection .cpuDispatchConnection (by simp) ?_
      exact (restores_allocate pcb).bind fun _ => restores_pure ()
  | incorrect header =>
      exact restores_lastSection .cpuDispatchConnection (by simp) (restores_pure ())

theorem restores_handleInterruptConnection : RestoresLocks [] handleInterruptConnection :=
  restores_lastSection .cpuInterruptConnection (by simp) (restores_pure ())

theorem restores_threadSleepProcess (processToMove : PcbPointer) :
    RestoresLocks [] (threadSleepProcess processToMove) := by
  refine (restores_popLocked .exec belowQueues_nil).bind fun _ => ?_
  refine (restores_perform rfl).bind fun _ => ?_
  refine (restores_perform rfl).bind fun _ => ?_
  refine (restores_pushLocked .ready _ belowQueues_nil).bind fun _ => ?_
  exact restores_semPost rfl

theorem restores_threadPageFaultProcess (processToMove : PcbPointer) (answer : Option Pcb) :
    RestoresLocks [] (threadPageFaultProcess processToMove answer) := by
  refine (restores_popLocked .exec belowQueues_nil).bind fun _ => ?_
  refine (restores_perform rfl).bind fun _ => ?_
  refine (restores_perform rfl).bind fun _ => ?_
  cases answer with
  | some pcb =>
      refine (restores_allocate pcb).bind fun process => ?_
      refine (restores_pushLocked .ready process belowQueues_nil).bind fun _ => ?_
      exact restores_semPost rfl
  | none => exact restores_semPost rfl

/-- START and STOP wait for semaphores that count, and take no mutex. -/
theorem restores_handlerConnection (command : Command) :
    RestoresLocks [] (handlerConnection command) := by
  cases command with
  | createProcess path quantum clientSocket =>
      refine Restores.bind ?_ restores_moveProcessToNew
      refine (restores_look _).bind fun pid => ?_
      refine (restores_allocate _).bind fun process => ?_
      exact (restores_perform rfl).bind fun _ => restores_pure process
  | finishProcess pid => exact restores_finishProcess pid
  | startPlanning =>
      refine (restores_semWait rfl).bind fun _ => ?_
      exact (restores_semPost rfl).bind fun _ => restores_semPost rfl
  | stopPlanning =>
      refine (restores_semPost rfl).bind fun _ => ?_
      exact (restores_semWait rfl).bind fun _ => restores_semWait rfl
  | modifyMultiprogrammingDegree newDegree =>
      change RestoresLocks [] (modifyMultiprogrammingDegree newDegree)
      unfold modifyMultiprogrammingDegree
      split
      · exact restores_perform rfl
      · exact restores_pure ()
  | showAllProcesses => exact restores_buildAllQueuesInList.bind fun _ => restores_pure ()

end Code

/-- The program of every thread of the world gives its mutexes back. -/
theorem Role.restores_code (config : KernelConfig) (role : Role) :
    Code.RestoresLocks [] (role.code config) := by
  cases role with
  | longTermPlanner => exact Code.restores_longTermPlanner
  | shortTermPlanner => exact Code.restores_shortTermPlanner config
  | dispatchHandler message =>
      cases message with
      | none => exact Program.restores_pure ()
      | some message => exact Code.restores_handleDispatchConnection message
  | console command =>
      cases command with
      | none => exact Program.restores_pure ()
      | some command => exact Code.restores_handlerConnection command
  | sleeper process _ => exact Code.restores_threadSleepProcess process

/-! ### All interleavings -/

/-- The threads of a pool keep the order of the mutexes. -/
abbrev KeepsKernelLocks {Role : Type} (pool : Pool Role Operation Memory) : Prop :=
  ∀ thread ∈ pool.threads, thread.KeepsLocks kernelLocks

/-- The value of the mutex and the threads of the pool that hold it. -/
def mutexTokens {Role : Type} (mutex : Mutex) (pool : Pool Role Operation Memory) : Int :=
  pool.state.sem mutex.semaphore + kernelLocks.holders mutex pool.threads

/-- A thread that begins another program changes no mutex. -/
theorem mutexTokens_restart {Role : Type} {pool : Pool Role Operation Memory} {index : Nat}
    {thread : Thread Role Operation Memory} (keeps : KeepsKernelLocks pool)
    (at_index : pool.threads[index]? = some thread) (idle : thread.Idle) (role : Role)
    (program : Code Unit) (mutex : Mutex) :
    mutexTokens mutex { pool with threads := pool.threads.set index (.start role program) } =
      mutexTokens mutex pool := by
  unfold mutexTokens
  rw [LockUse.holders_restart (keeps thread (List.mem_of_getElem? at_index)) idle at_index]

namespace PoolStep

variable {config : KernelConfig} {pool next : KernelPool} {event : WorldEvent}

theorem keepsLocks (keeps : KeepsKernelLocks pool) (step : PoolStep config pool event next) :
    KeepsKernelLocks next := by
  cases step with
  | advance advanced => exact LockUse.keepsLocks_advance keeps advanced
  | @restart _ _ _ role _ _ _ _ =>
      exact LockUse.keepsLocks_set keeps (.start (role.restores_code config))
  | @spawn _ role state _ _ _ =>
      have sameThreads : KeepsKernelLocks { pool with state := state } := keeps
      exact LockUse.keepsLocks_spawn sameThreads (role.restores_code config)
  | environment _ => exact keeps

theorem mutexTokens_eq (keeps : KeepsKernelLocks pool) (step : PoolStep config pool event next)
    (mutex : Mutex) : mutexTokens mutex next = mutexTokens mutex pool := by
  cases step with
  | advance advanced => exact LockUse.free_advance (kernelLocks_governs config) keeps advanced mutex
  | restart _ at_index idle _ => exact mutexTokens_restart keeps at_index idle _ _ mutex
  | spawn _ _ same =>
      rw [mutexTokens, LockUse.holders_spawn]
      simp only [mutexTokens, Pool.spawn, same.sem]
  | environment same => simp only [mutexTokens, same.sem]

end PoolStep

namespace ConnectedWorld

variable {config : KernelConfig} {connected next : ConnectedWorld}

/-- All threads of the kernel, whatever they are there for. -/
def threads (connected : ConnectedWorld) : List (Thread Unit Operation Memory) :=
  connected.world.pool.threads.map Thread.anonymous ++ connected.handlers.map Thread.anonymous

/-- Every thread keeps the order of the mutexes, and each mutex is free or held once. -/
structure LocksKept (connected : ConnectedWorld) : Prop where
  world : KeepsKernelLocks connected.world.pool
  handlers : KeepsKernelLocks connected.handlerPool
  tokens : ∀ mutex, mutexTokens mutex connected.world.pool +
    kernelLocks.holders mutex connected.handlers = 1

theorem LocksKept.init (config : KernelConfig) : (ConnectedWorld.init config).LocksKept where
  world := by
    intro thread member
    simp only [ConnectedWorld.init, World.init, List.mem_cons, List.not_mem_nil, or_false] at member
    rcases member with rfl | rfl | rfl
    · exact .start Code.restores_longTermPlanner
    · exact .start (Code.restores_shortTermPlanner config)
    · exact .start (Program.restores_pure ())
  handlers := by
    intro thread member
    rw [List.mem_singleton.mp member]
    exact .start (Program.restores_pure ())
  tokens mutex := by cases mutex <;> rfl

/-- The threads outside the world do with the mutexes what the others do. -/
theorem LocksKept.onHandlers (kept : connected.LocksKept)
    {step : Pool HandlerRole Operation Memory → Option (Pool HandlerRole Operation Memory)}
    (keeps : ∀ pool, step connected.handlerPool = some pool → KeepsKernelLocks pool ∧
      ∀ mutex, mutexTokens mutex pool = mutexTokens mutex connected.handlerPool)
    (stepped : connected.onHandlers step = some next) : next.LocksKept := by
  obtain ⟨pool, taken, rfl⟩ := Option.map_eq_some_iff.mp stepped
  obtain ⟨keepsPool, same⟩ := keeps pool taken
  refine ⟨kept.world, keepsPool, fun mutex => ?_⟩
  have before := kept.tokens mutex
  have moved := same mutex
  simp only [mutexTokens, handlerPool, memory, World.memory] at before moved ⊢
  omega

theorem LocksKept.step {event : ConnectedEvent} (kept : connected.LocksKept)
    (taken : connected.step config event = some next) : next.LocksKept := by
  cases event with
  | world event =>
      obtain ⟨_, mapped⟩ := Option.ite_none_left_eq_some.mp taken
      obtain ⟨after, stepped, rfl⟩ := Option.map_eq_some_iff.mp mapped
      have moves := World.poolStep stepped
      refine ⟨moves.keepsLocks kept.world, kept.handlers, fun mutex => ?_⟩
      rw [moves.mutexTokens_eq kept.world]
      exact kept.tokens mutex
  | receiveOther index header =>
      simp only [ConnectedWorld.step, receiveOther] at taken
      split at taken
      · obtain ⟨_, mapped⟩ := Option.ite_none_right_eq_some.mp taken
        obtain ⟨after, received, rfl⟩ := Option.map_eq_some_iff.mp mapped
        obtain ⟨pool, restarted, rfl⟩ := Option.map_eq_some_iff.mp received
        obtain ⟨thread, at_index, idle, rfl⟩ := Pool.restart_cases restarted
        refine ⟨LockUse.keepsLocks_set kept.world (.start (Code.restores_handleOtherHeader header)),
          kept.handlers, fun mutex => ?_⟩
        rw [mutexTokens_restart kept.world at_index idle]
        exact kept.tokens mutex
      · cases taken
  | receiveInterrupt index header =>
      simp only [ConnectedWorld.step, receiveInterrupt] at taken
      split at taken
      · obtain ⟨_, received⟩ := Option.ite_none_right_eq_some.mp taken
        refine kept.onHandlers (fun pool restarted => ?_) received
        obtain ⟨thread, at_index, idle, rfl⟩ := Pool.restart_cases restarted
        exact ⟨LockUse.keepsLocks_set kept.handlers (.start Code.restores_handleInterruptConnection),
          mutexTokens_restart kept.handlers at_index idle _ _⟩
      · cases taken
  | startPageFault processToMove answer =>
      simp only [ConnectedWorld.step] at taken
      refine kept.onHandlers (fun pool spawned => ?_) taken
      obtain rfl := Option.some.inj spawned
      refine ⟨LockUse.keepsLocks_spawn kept.handlers
        (Code.restores_threadPageFaultProcess processToMove answer), fun mutex => ?_⟩
      rw [mutexTokens, LockUse.holders_spawn]
      rfl
  | advanceHandler index =>
      simp only [ConnectedWorld.step] at taken
      refine kept.onHandlers (fun pool advanced => ⟨LockUse.keepsLocks_advance kept.handlers advanced,
        fun mutex => ?_⟩) taken
      exact LockUse.free_advance (kernelLocks_governs config) kept.handlers advanced mutex

theorem LocksKept.threads (kept : connected.LocksKept) :
    ∀ thread ∈ connected.threads, thread.KeepsLocks kernelLocks := by
  intro thread member
  rcases List.mem_append.mp member with inWorld | inHandlers
  · obtain ⟨original, inPool, rfl⟩ := List.mem_map.mp inWorld
    exact (kept.world original inPool).anonymous
  · obtain ⟨original, inPool, rfl⟩ := List.mem_map.mp inHandlers
    exact (kept.handlers original inPool).anonymous

end ConnectedWorld

/-- In every state of every interleaving, a mutex is free or one thread is inside a section that it
    protects, a thread that waits for any other semaphore holds no mutex, and no threads wait for the
    mutexes of each other in a circle. -/
theorem run_locks_kept (config : KernelConfig) (events : List ConnectedEvent)
    (connected : ConnectedWorld)
    (reaches : run (ConnectedWorld.step config) (ConnectedWorld.init config) events =
      some connected) :
    (∀ mutex : Mutex, connected.memory.sem mutex.semaphore +
        kernelLocks.holders mutex connected.threads = 1) ∧
      (∀ thread ∈ connected.threads, ∀ semaphore : Semaphore, semaphore.mutex? = none →
        thread.nextOp = some (.wait semaphore) → thread.held kernelLocks = []) ∧
      ∀ index, ¬ kernelLocks.CircularWait connected.threads index := by
  have kept : connected.LocksKept :=
    invariant_of_run _ (fun kept taken => kept.step taken) (.init config) reaches
  refine ⟨fun mutex => ?_, fun thread member semaphore counts next => ?_, ?_⟩
  · have tokens := kept.tokens mutex
    rw [ConnectedWorld.threads, LockUse.holders_append, LockUse.holders_anonymous,
      LockUse.holders_anonymous]
    simp only [mutexTokens] at tokens
    simp only [ConnectedWorld.memory, World.memory]
    omega
  · have allowed := (kept.threads thread member).allows next
    simpa [kernelLocks, counts, LockUse.Allows] using allowed
  · exact LockUse.not_circularWait kept.threads

/-- One resource with one instance, two slots, round robin. -/
def roundRobin : KernelConfig where
  planningAlgorithm := "ROUND_ROBIN"
  resources := [("REC1", 1)]
  multiprogrammingDegree := 2
  priority _ := 0

/-- A console finishes a process while both handlers of the CPU's connections receive headers that they
    do not know, and each of the three threads has taken its first mutex. -/
def threeSections : List ConnectedEvent :=
  [.world .connect, .world (.command 3 (.finishProcess 0)), .world (.advance 3),
    .receiveOther 2 (.incorrect 255), .world (.advance 2), .receiveInterrupt 0 255,
    .advanceHandler 0]

theorem run_locks_kept_threeSections :
    ∃ connected, run (ConnectedWorld.step roundRobin) (ConnectedWorld.init roundRobin)
        threeSections = some connected ∧
      kernelLocks.holders .queueNew connected.threads = 1 ∧
      kernelLocks.holders .cpuDispatchConnection connected.threads = 1 ∧
      kernelLocks.holders .cpuInterruptConnection connected.threads = 1 ∧
      (∀ mutex : Mutex, connected.memory.sem mutex.semaphore +
        kernelLocks.holders mutex connected.threads = 1) ∧
      (∀ thread ∈ connected.threads, ∀ semaphore : Semaphore, semaphore.mutex? = none →
        thread.nextOp = some (.wait semaphore) → thread.held kernelLocks = []) ∧
      ∀ index, ¬ kernelLocks.CircularWait connected.threads index :=
  ⟨_, rfl, by decide, by decide, by decide,
    run_locks_kept roundRobin threeSections _ rfl⟩

end OsSimulator
