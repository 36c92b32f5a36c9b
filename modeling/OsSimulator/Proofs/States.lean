/-
Module: OsSimulator.Proofs.States
Purpose: The state of every queued PCB names its queue.  `update_queue_semaphores` relies on it: it
  chooses the semaphores by the state of the process that `finish_process` found.
Main exports: QueueId.state, Kernel.StatesMatch, Kernel.StatesMatch.finishProcess,
  Kernel.StatesMatch.dispatchEffect
-/
import OsSimulator.Proofs.Handlers

namespace OsSimulator

/-- The state that the processes of a queue have. -/
def QueueId.state : QueueId → ProcessState
  | .new => .new
  | .ready => .ready
  | .exec => .execution
  | .blocked _ => .blocked

namespace Kernel

/-- Every queued PCB has the state that belongs to its queue. -/
structure StatesMatch (kernel : Kernel) : Prop where
  stateNew : ∀ process ∈ kernel.queueNew, process.state = .new
  stateReady : ∀ process ∈ kernel.queueReady, process.state = .ready
  stateExec : ∀ process ∈ kernel.queueExec, process.state = .execution
  stateBlocked : ∀ process ∈ kernel.listOfQueueBlocked.flatten, process.state = .blocked

namespace StatesMatch

variable {config : KernelConfig} {kernel next : Kernel}

theorem init (config : KernelConfig) : (Kernel.init config).StatesMatch where
  stateNew := by simp [Kernel.init]
  stateReady := by simp [Kernel.init]
  stateExec := by simp [Kernel.init]
  stateBlocked := by simp [Kernel.init]

theorem congr (states : kernel.StatesMatch) (new : next.queueNew = kernel.queueNew)
    (ready : next.queueReady = kernel.queueReady) (exec : next.queueExec = kernel.queueExec)
    (blocked : next.listOfQueueBlocked = kernel.listOfQueueBlocked) : next.StatesMatch where
  stateNew := by rw [new]; exact states.stateNew
  stateReady := by rw [ready]; exact states.stateReady
  stateExec := by rw [exec]; exact states.stateExec
  stateBlocked := by rw [blocked]; exact states.stateBlocked

/-- The state of a queued process is the one `update_queue_semaphores` expects for its queue. -/
theorem state_of_mem (states : kernel.StatesMatch) {id : QueueId} {process : Pcb}
    (member : process ∈ kernel.queue id) : process.state = id.state := by
  cases id with
  | new => exact states.stateNew process member
  | ready => exact states.stateReady process member
  | exec => exact states.stateExec process member
  | blocked index =>
      apply states.stateBlocked
      rw [queue_blocked, List.getD_eq_getElem?_getD] at member
      cases at_index : kernel.listOfQueueBlocked[index]? with
      | none => simp [at_index] at member
      | some queue =>
          rw [at_index] at member
          exact List.mem_flatten.mpr ⟨queue, List.mem_of_getElem? at_index, member⟩

theorem receivePcbAndCreate (states : kernel.StatesMatch) (path : String)
    (quantum clientSocket : Int32) :
    (kernel.receivePcbAndCreate path quantum clientSocket).StatesMatch where
  stateNew := by
    intro process member
    simp only [Kernel.receivePcbAndCreate, moveProcessToNew, queuePush, sendToMemory,
      semPost_fields, log_fields, setQueue_new, queue_new, List.mem_append,
      List.mem_singleton] at member
    rcases member with old | rfl
    · exact states.stateNew process old
    · rfl
  stateReady := by simpa [Kernel.receivePcbAndCreate, moveProcessToNew, queuePush, sendToMemory]
    using states.stateReady
  stateExec := by simpa [Kernel.receivePcbAndCreate, moveProcessToNew, queuePush, sendToMemory]
    using states.stateExec
  stateBlocked := by simpa [Kernel.receivePcbAndCreate, moveProcessToNew, queuePush, sendToMemory]
    using states.stateBlocked

/-- A process that becomes ready gets the state for it. -/
theorem pushReady (states : kernel.StatesMatch) {process : Pcb} (isReady : process.state = .ready)
    (new : next.queueNew ⊆ kernel.queueNew)
    (ready : next.queueReady = kernel.queueReady ++ [process])
    (exec : next.queueExec ⊆ kernel.queueExec)
    (blocked : next.listOfQueueBlocked = kernel.listOfQueueBlocked) : next.StatesMatch where
  stateNew := fun other member => states.stateNew other (new member)
  stateReady := by
    intro other member
    rw [ready] at member
    rcases List.mem_append.mp member with old | pushed
    · exact states.stateReady other old
    · rwa [List.mem_singleton.mp pushed]
  stateExec := fun other member => states.stateExec other (exec member)
  stateBlocked := by rw [blocked]; exact states.stateBlocked

/-- A process that is dispatched gets the state for it. -/
theorem dispatch (states : kernel.StatesMatch) {process : Pcb} {rest : List Pcb}
    (perm : (process :: rest).Perm kernel.queueReady) (new : next.queueNew = kernel.queueNew)
    (ready : next.queueReady = rest)
    (exec : next.queueExec = kernel.queueExec ++ [process.setState .execution])
    (blocked : next.listOfQueueBlocked = kernel.listOfQueueBlocked) : next.StatesMatch where
  stateNew := by rw [new]; exact states.stateNew
  stateReady := by
    intro other member
    rw [ready] at member
    exact states.stateReady other (perm.subset (List.mem_cons_of_mem _ member))
  stateExec := by
    intro other member
    rw [exec] at member
    rcases List.mem_append.mp member with old | pushed
    · exact states.stateExec other old
    · rw [List.mem_singleton.mp pushed]
      rfl
  stateBlocked := by rw [blocked]; exact states.stateBlocked

theorem finishProcess (states : kernel.StatesMatch) {pid : UInt32}
    (finished : kernel.finishProcess pid = some next) : next.StatesMatch := by
  rcases finishProcess_cases finished with ⟨_, rfl⟩ | ⟨id, process, woken, middle, finishes⟩
  · exact states.congr (by simp) (by simp) (by simp) (by simp)
  · refine ⟨?_, ?_, ?_, ?_⟩
    · exact fun other member => states.stateNew other ((finishes.mem other).1 member)
    · intro other member
      rcases (finishes.mem other).2.1 member with old | fresh
      · exact states.stateReady other old
      · exact finishes.wakes.state other fresh
    · exact fun other member => states.stateExec other ((finishes.mem other).2.2.1 member)
    · exact fun other member => states.stateBlocked other ((finishes.mem other).2.2.2 member)

theorem dispatchEffect (states : kernel.StatesMatch) (shape : kernel.Shape config)
    {message : Message} (effect : DispatchEffect message kernel next) : next.StatesMatch := by
  cases effect with
  | finishes _ finished =>
      have logged : (kernel.log (.received message)).StatesMatch :=
        states.congr (by simp) (by simp) (by simp) (by simp)
      exact logged.finishProcess finished
  | interrupts _ result =>
      subst result
      apply states.pushReady (Pcb.setState_state message.pcb .ready)
      · simp [handleInterrupt, queuePush]
      · simp [handleInterrupt, queuePush]
      · intro other member
        exact List.mem_of_mem_tail (by simpa [handleInterrupt, queuePush] using member)
      · simp [handleInterrupt, queuePush]
  | grants _ _ _ _ result =>
      subst result
      exact states.congr (by simp [removeResourceInstance]) (by simp [removeResourceInstance])
        (by simp [removeResourceInstance]) (by simp [removeResourceInstance])
  | blocks resource process rest _ valid _ head lines _ result =>
      subst result
      have at_index := getElem?_getQueueBlocked shape valid
      refine ⟨by simpa using states.stateNew, by simpa using states.stateReady, ?_, ?_⟩
      · intro other member
        apply states.stateExec
        rw [head]
        exact List.mem_cons_of_mem _ (by simpa using member)
      · intro other member
        rcases mem_pushBlocked (by simpa using at_index) member with old | rfl
        · exact states.stateBlocked other (by simpa using old)
        · rfl
  | releases _ _ _ _ result =>
      subst result
      exact states.congr (by simp [addResourceInstance]) (by simp [addResourceInstance])
        (by simp [addResourceInstance]) (by simp [addResourceInstance])
  | sleeps _ _ result =>
      subst result
      exact states.congr (by simp [handleSleepInterruption]) (by simp [handleSleepInterruption])
        (by simp [handleSleepInterruption]) (by simp [handleSleepInterruption])

end StatesMatch

end Kernel

end OsSimulator
