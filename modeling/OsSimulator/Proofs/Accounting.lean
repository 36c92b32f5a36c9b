/-
Module: OsSimulator.Proofs.Accounting
Purpose: Serial runs keep the books: the state of every queued PCB names its queue, and the counting
  semaphores agree with the lengths of the queues.  While the pid counter has not wrapped around, no
  pid is queued twice.
Main exports: Kernel.Accounting, Kernel.NoPidTwice, serial_run_accounting,
  serial_run_pid_in_two_queues
-/
import OsSimulator.Lib.Transition
import OsSimulator.Proofs.States
import OsSimulator.Proofs.History

namespace OsSimulator

open Transition

namespace Kernel

/-- The number of blocked processes, over all resources. -/
def blockedLength (kernel : Kernel) : Nat := (kernel.listOfQueueBlocked.map List.length).sum

/-- The semaphore equations, and the states, that hold between the operations of a serial run. -/
structure Accounting (degree : Nat) (kernel : Kernel) : Prop extends StatesMatch kernel where
  semNew : kernel.sem .processNew = kernel.queueNew.length
  semReady : kernel.sem .processReady = kernel.queueReady.length
  semBlocked : kernel.sem .processBlocked = kernel.blockedLength
  semCpu : kernel.sem .cpuAvailable + kernel.queueExec.length = 1
  semDegree : kernel.sem .multiprogrammingDegree + kernel.queueReady.length +
    kernel.queueExec.length + kernel.blockedLength = degree

/-- No pid occupies two places in the queues. -/
def NoPidTwice (kernel : Kernel) : Prop := ∀ pid, kernel.weighQueues (pidWeight pid) ≤ 1

theorem weighAll_blocked (kernel : Kernel) :
    weighAll (fun _ => 1) kernel.listOfQueueBlocked = kernel.blockedLength :=
  weighAll_one _

section BlockedTokens

variable {config : KernelConfig} {kernel next : Kernel} {message : Message} {pid : UInt32}

/-- `finish_process` takes one token for each process it wakes, and one for a blocked process it
    removes. -/
theorem semBlocked_finishProcess (states : kernel.StatesMatch)
    (tokens : kernel.sem .processBlocked = kernel.blockedLength)
    (finished : kernel.finishProcess pid = some next) :
    next.sem .processBlocked = next.blockedLength := by
  rcases finishProcess_cases finished with ⟨_, rfl⟩ | ⟨id, process, woken, middle, finishes⟩
  · simpa [blockedLength] using tokens
  · have balance := finishes.sem .processBlocked
    obtain ⟨_, _, _, blocked⟩ := finishes.weigh one_stateBlind
    simp only [weigh_one, weighAll_blocked] at blocked
    simp only [states.state_of_mem finishes.mem_queue, if_true, reduceCtorEq, if_false] at balance
    cases id <;>
      simp only [QueueId.state, QueueId.isBlocked, finishPosts, finishWaits, reduceCtorEq,
        if_true, if_false] at * <;>
      omega

/-- A message that blocks a process posts its token. -/
theorem semBlocked_dispatchEffect (shape : kernel.Shape config) (states : kernel.StatesMatch)
    (tokens : kernel.sem .processBlocked = kernel.blockedLength)
    (effect : DispatchEffect message kernel next) :
    next.sem .processBlocked = next.blockedLength := by
  cases effect with
  | finishes _ finished =>
      exact semBlocked_finishProcess (states.congr (by simp) (by simp) (by simp) (by simp))
        (by simpa [blockedLength] using tokens) finished
  | interrupts _ result =>
      subst result
      simpa [handleInterrupt, queuePush, blockedLength] using tokens
  | grants _ _ _ _ result =>
      subst result
      simpa [removeResourceInstance, blockedLength] using tokens
  | blocks resource process rest _ valid _ _ _ _ result =>
      subst result
      have atLog : (kernel.log (.received message)).listOfQueueBlocked[kernel.getQueueBlocked resource]? =
          some ((kernel.log (.received message)).queue
            (.blocked (kernel.getQueueBlocked resource))) := by
        simpa using getElem?_getQueueBlocked shape valid
      have length := weighAll_pushBlocked process rest atLog one_stateBlind
      simp only [weighAll_blocked] at length
      change _ = ((kernel.log (.received message)).pushBlocked process rest
        (kernel.getQueueBlocked resource)).blockedLength
      rw [length]
      simpa [pushBlocked_sem, blockedLength] using tokens
  | releases _ _ _ _ result =>
      subst result
      simpa [addResourceInstance, blockedLength] using tokens
  | sleeps _ _ result =>
      subst result
      simpa [handleSleepInterruption, blockedLength] using tokens

end BlockedTokens

namespace Accounting

variable {degree : Nat} {kernel next : Kernel} {config : KernelConfig}

theorem init (config : KernelConfig) :
    (Kernel.init config).Accounting config.multiprogrammingDegree where
  toStatesMatch := .init config
  semNew := rfl
  semReady := rfl
  semBlocked := by simp [Kernel.init, initialSemaphores, blockedLength]
  semCpu := rfl
  semDegree := by simp [Kernel.init, initialSemaphores, blockedLength]

/-- Only the queues and five of the semaphores matter. -/
theorem congr (books : kernel.Accounting degree) (new : next.queueNew = kernel.queueNew)
    (ready : next.queueReady = kernel.queueReady) (exec : next.queueExec = kernel.queueExec)
    (blocked : next.listOfQueueBlocked = kernel.listOfQueueBlocked)
    (sem : ∀ semaphore, semaphore ≠ .shortTermPlanner → semaphore ≠ .longTermPlanner →
      semaphore ≠ .mutexStoppingPlanner → next.sem semaphore = kernel.sem semaphore) :
    next.Accounting degree where
  toStatesMatch := books.toStatesMatch.congr new ready exec blocked
  semNew := by rw [sem _ (by simp) (by simp) (by simp), new]; exact books.semNew
  semReady := by rw [sem _ (by simp) (by simp) (by simp), ready]; exact books.semReady
  semBlocked := by
    rw [sem _ (by simp) (by simp) (by simp), blockedLength, blocked]
    exact books.semBlocked
  semCpu := by rw [sem _ (by simp) (by simp) (by simp), exec]; exact books.semCpu
  semDegree := by
    rw [sem _ (by simp) (by simp) (by simp), ready, exec, blockedLength, blocked]
    exact books.semDegree

theorem log (books : kernel.Accounting degree) (event : KernelEvent) :
    (kernel.log event).Accounting degree :=
  books.congr (by simp) (by simp) (by simp) (by simp) (by simp)

theorem receivePcbAndCreate (books : kernel.Accounting degree) (path : String)
    (quantum clientSocket : Int32) :
    (kernel.receivePcbAndCreate path quantum clientSocket).Accounting degree where
  toStatesMatch := books.toStatesMatch.receivePcbAndCreate path quantum clientSocket
  semNew := by simp [Kernel.receivePcbAndCreate, moveProcessToNew, queuePush, sendToMemory,
    books.semNew]
  semReady := by simp [Kernel.receivePcbAndCreate, moveProcessToNew, queuePush, sendToMemory,
    books.semReady]
  semBlocked := by simp [Kernel.receivePcbAndCreate, moveProcessToNew, queuePush, sendToMemory,
    blockedLength, books.semBlocked]
  semCpu := by simpa [Kernel.receivePcbAndCreate, moveProcessToNew, queuePush, sendToMemory]
    using books.semCpu
  semDegree := by simpa [Kernel.receivePcbAndCreate, moveProcessToNew, queuePush, sendToMemory,
    blockedLength] using books.semDegree

/-- `finish_process` adjusts the semaphores of the queue it removes from, because the state of the
    process names that queue; the woken processes move both counters along. -/
theorem finishProcess (books : kernel.Accounting degree) {pid : UInt32}
    (finished : kernel.finishProcess pid = some next) : next.Accounting degree := by
  rcases finishProcess_cases finished with ⟨_, rfl⟩ | ⟨id, process, woken, middle, finishes⟩
  · exact books.log _
  have state := books.state_of_mem finishes.mem_queue
  have semNew := finishes.sem .processNew
  have semReady := finishes.sem .processReady
  have semCpu := finishes.sem .cpuAvailable
  have semDegree := finishes.sem .multiprogrammingDegree
  obtain ⟨new, ready, exec, blocked⟩ := finishes.weigh one_stateBlind
  have oldNew := books.semNew
  have oldReady := books.semReady
  have oldCpu := books.semCpu
  have oldDegree := books.semDegree
  simp only [weigh_one, weighAll_blocked] at new ready exec blocked
  simp only [state, reduceCtorEq, if_true, if_false] at semNew semReady semCpu semDegree
  refine ⟨books.toStatesMatch.finishProcess finished, ?_, ?_,
    semBlocked_finishProcess books.toStatesMatch books.semBlocked finished, ?_, ?_⟩
  all_goals
    cases id <;>
      simp only [QueueId.state, QueueId.isBlocked, finishPosts, finishWaits, reduceCtorEq,
        if_true, if_false] at * <;>
      omega

/-- A message about the executing process leaves the books in order: a turn that ends gives the
    CPU back and empties `queue_exec`. -/
theorem handleDispatchConnection (books : kernel.Accounting degree) (shape : kernel.Shape config)
    {message : Message} (about : message.AboutExecuting kernel)
    (handled : kernel.handleDispatchConnection message = some next) : next.Accounting degree := by
  obtain ⟨executing, notSleep⟩ := about
  have oldCpu := books.semCpu
  have oldDegree := books.semDegree
  have effect := handleDispatchConnection_cases handled
  have states := books.toStatesMatch.dispatchEffect shape effect
  have blockedTokens := semBlocked_dispatchEffect shape books.toStatesMatch books.semBlocked effect
  cases effect with
  | finishes _ finished => exact (books.log _).finishProcess finished
  | interrupts _ result =>
      subst result
      cases head : kernel.queueExec with
      | nil => simp [head] at executing
      | cons process rest =>
          rw [head, List.length_cons] at oldCpu oldDegree
          refine
            { toStatesMatch := states
              semNew := by simpa [handleInterrupt, queuePush] using books.semNew
              semReady := by simpa [handleInterrupt, queuePush] using books.semReady
              semBlocked := blockedTokens
              semCpu := ?_
              semDegree := ?_ }
          · simp [handleInterrupt, queuePush, head]
            omega
          · simp [handleInterrupt, queuePush, head, blockedLength] at oldDegree ⊢
            omega
  | grants _ _ _ _ result =>
      subst result
      exact books.congr (by simp [removeResourceInstance]) (by simp [removeResourceInstance])
        (by simp [removeResourceInstance]) (by simp [removeResourceInstance])
        (by simp [removeResourceInstance])
  | blocks resource process rest requested valid unavailable head lines kind result =>
      subst result
      rw [head, List.length_cons] at oldCpu oldDegree
      have at_index := getElem?_getQueueBlocked shape valid
      have atLog : (kernel.log (.received message)).listOfQueueBlocked[kernel.getQueueBlocked resource]? =
          some ((kernel.log (.received message)).queue
            (.blocked (kernel.getQueueBlocked resource))) := by simpa using at_index
      have length := weighAll_pushBlocked process rest atLog one_stateBlind
      simp only [weighAll_blocked, log_fields] at length
      have pushed : ((kernel.log (.received message)).pushBlocked process rest
          (kernel.getQueueBlocked resource)).Accounting degree := ?_
      · exact pushed.congr rfl rfl rfl rfl fun _ _ _ _ => rfl
      refine
        { toStatesMatch := states.congr rfl rfl rfl rfl
          semNew := by simpa [pushBlocked_sem] using books.semNew
          semReady := by simpa [pushBlocked_sem] using books.semReady
          semBlocked := blockedTokens
          semCpu := ?_
          semDegree := ?_ }
      · simp [pushBlocked_sem]
        omega
      · rw [pushBlocked_sem, length]
        simp
        omega
  | releases _ _ _ _ result =>
      subst result
      exact books.congr (by simp [addResourceInstance]) (by simp [addResourceInstance])
        (by simp [addResourceInstance]) (by simp [addResourceInstance])
        (by simp [addResourceInstance])
  | sleeps time requested _ => exact absurd requested (notSleep time)

theorem startPlanning (books : kernel.Accounting degree)
    (started : kernel.startPlanning = some next) : next.Accounting degree := by
  simp only [Kernel.startPlanning, Option.bind_eq_bind, Option.bind_eq_some_iff,
    semWait_eq_some] at started
  obtain ⟨_, ⟨_, rfl⟩, result⟩ := started
  obtain rfl := Option.some.inj result
  refine books.congr (by simp) (by simp) (by simp) (by simp) fun semaphore short long mutex => ?_
  simp [short, long, mutex]

theorem stopPlanning (books : kernel.Accounting degree)
    (stopped : kernel.stopPlanning = some next) : next.Accounting degree := by
  simp only [Kernel.stopPlanning, Option.bind_eq_bind, Option.bind_eq_some_iff,
    semWait_eq_some] at stopped
  obtain ⟨_, ⟨_, rfl⟩, _, rfl⟩ := stopped
  refine books.congr (by simp) (by simp) (by simp) (by simp) fun semaphore short long mutex => ?_
  simp [short, long, mutex]

/-- An admission moves one process and one slot. -/
theorem longTermPlannerIteration (books : kernel.Accounting degree)
    (iterated : kernel.longTermPlannerIteration = some next) : next.Accounting degree := by
  simp only [Kernel.longTermPlannerIteration, Option.bind_eq_bind, Option.bind_eq_some_iff,
    semWait_eq_some] at iterated
  obtain ⟨_, ⟨_, rfl⟩, _, ⟨slot, rfl⟩, admitted⟩ := iterated
  obtain ⟨process, rest, head, positive, rfl⟩ := longTermPlannerAdmit_cases admitted
  have oldNew := books.semNew
  have oldDegree := books.semDegree
  simp only [semInit_fields, semInit_sem, reduceCtorEq, if_false] at head positive slot
  rw [head, List.length_cons] at oldNew
  refine
    { toStatesMatch := ?_
      semNew := by simp [queuePush, oldNew]
      semReady := by simp [queuePush, books.semReady]
      semBlocked := by simpa [queuePush, blockedLength] using books.semBlocked
      semCpu := by simpa [queuePush] using books.semCpu
      semDegree := ?_ }
  · apply books.toStatesMatch.pushReady (Pcb.setState_state process .ready)
    · simp [queuePush, head]
    · simp [queuePush]
    · simp [queuePush]
    · simp [queuePush]
  · simp [queuePush, blockedLength] at oldDegree ⊢
    omega

/-- A dispatch moves one process and the token of the CPU. -/
theorem shortTermPlannerIteration (books : kernel.Accounting degree)
    (iterated : kernel.shortTermPlannerIteration config = some next) :
    next.Accounting degree := by
  simp only [Kernel.shortTermPlannerIteration, Option.bind_eq_bind, Option.bind_eq_some_iff,
    semWait_eq_some] at iterated
  obtain ⟨_, ⟨_, rfl⟩, _, ⟨token, rfl⟩, _, dispatched, result⟩ := iterated
  obtain ⟨process, rest, perm, positive, rfl⟩ := shortTermPlannerDispatch_cases dispatched
  obtain rfl := Option.some.inj result
  have oldReady := books.semReady
  have oldCpu := books.semCpu
  have oldDegree := books.semDegree
  simp only [semInit_fields, semInit_sem, reduceCtorEq, if_false] at perm positive token
  have length := perm.length_eq
  rw [List.length_cons] at length
  refine
    { toStatesMatch := ?_
      semNew := by simpa [queuePush] using books.semNew
      semReady := ?_
      semBlocked := by simpa [queuePush, blockedLength] using books.semBlocked
      semCpu := ?_
      semDegree := ?_ }
  · exact books.toStatesMatch.dispatch perm (by simp [queuePush]) (by simp [queuePush])
      (by simp [queuePush]) (by simp [queuePush])
  · simp [queuePush]
    omega
  · simp [queuePush]
    omega
  · simp [queuePush, blockedLength] at oldDegree ⊢
    omega

end Accounting

/-! ### No pid in two queues -/

/-- What an operation other than a creation keeps: the pids given so far, and for each pid at most
    as many places in the queues as before. -/
structure KeepsPids (kernel next : Kernel) : Prop where
  created : next.created = kernel.created
  idToAssign : next.idToAssign = kernel.idToAssign
  weigh : ∀ pid, next.weighQueues (pidWeight pid) ≤ kernel.weighQueues (pidWeight pid)

namespace KeepsPids

variable {kernel middle next : Kernel} {config : KernelConfig}

theorem of_same (created : next.created = kernel.created)
    (idToAssign : next.idToAssign = kernel.idToAssign) (new : next.queueNew = kernel.queueNew)
    (ready : next.queueReady = kernel.queueReady) (exec : next.queueExec = kernel.queueExec)
    (blocked : next.listOfQueueBlocked = kernel.listOfQueueBlocked) :
    KeepsPids kernel next where
  created := created
  idToAssign := idToAssign
  weigh pid := by rw [weighQueues, new, ready, exec, blocked]; exact Nat.le_refl _

theorem finishProcess {pid : UInt32} (finished : kernel.finishProcess pid = some next) :
    KeepsPids kernel next where
  created := created_finishProcess finished
  idToAssign := idToAssign_finishProcess finished
  weigh other := by
    rcases finishProcess_cases finished with ⟨_, rfl⟩ | ⟨id, process, woken, middle, finishes⟩
    · simp [weighQueues]
    · have total := finishes.weighQueues (pidWeight_stateBlind other)
      omega

/-- The process of the message is the one `queue_exec` loses, so moving its PCB to another queue
    adds no place. -/
theorem handleDispatchConnection (shape : kernel.Shape config) {message : Message}
    (about : message.AboutExecuting kernel)
    (handled : kernel.handleDispatchConnection message = some next) : KeepsPids kernel next := by
  have effect := handleDispatchConnection_cases handled
  refine ⟨created_dispatchEffect effect, idToAssign_dispatchEffect effect, fun pid => ?_⟩
  cases effect with
  | finishes _ finished => simpa [weighQueues] using (finishProcess finished).weigh pid
  | interrupts _ result =>
      subst result
      obtain ⟨executing, _⟩ := about
      cases head : kernel.queueExec with
      | nil => simp [head] at executing
      | cons process rest =>
          have same : pidWeight pid process = pidWeight pid (message.pcb.setState .ready) := by
            refine pidWeight_congr pid ?_
            simpa [head] using executing
          simp only [weighQueues, handleInterrupt, queuePush, semPost_fields, setQueue_ready,
            setQueue_exec, queue_ready, log_fields, head, List.tail_cons, weigh_append, weigh_cons,
            weigh_nil, same]
          omega
  | grants _ _ _ _ result =>
      subst result
      simp [weighQueues, removeResourceInstance]
  | blocks resource process rest _ valid _ head _ _ result =>
      subst result
      have atLog : (kernel.log (.received message)).listOfQueueBlocked[kernel.getQueueBlocked resource]? =
          some ((kernel.log (.received message)).queue
            (.blocked (kernel.getQueueBlocked resource))) := by
        simpa using getElem?_getQueueBlocked shape valid
      have total := weighAll_pushBlocked process rest atLog (pidWeight_stateBlind pid)
      simp only [weighQueues, pushBlocked_fields, log_fields, head, weigh_cons] at total ⊢
      omega
  | releases _ _ _ _ result =>
      subst result
      simp [weighQueues, addResourceInstance]
  | sleeps _ _ result =>
      subst result
      simp [weighQueues, handleSleepInterruption]

theorem longTermPlannerIteration (iterated : kernel.longTermPlannerIteration = some next) :
    KeepsPids kernel next := by
  simp only [Kernel.longTermPlannerIteration, Option.bind_eq_bind, Option.bind_eq_some_iff,
    semWait_eq_some] at iterated
  obtain ⟨_, ⟨_, rfl⟩, _, ⟨_, rfl⟩, admitted⟩ := iterated
  obtain ⟨process, rest, head, _, rfl⟩ := longTermPlannerAdmit_cases admitted
  simp only [semInit_fields] at head
  refine ⟨?_, by simp [queuePush], fun pid => ?_⟩
  · simp [queuePush, Kernel.created, KernelEvent.createdPid?, List.filterMap_cons]
  · simp only [weighQueues, queuePush, semPost_fields, setQueue_ready, setQueue_new, queue_ready,
      log_fields, semInit_fields, head, weigh_append, weigh_cons, weigh_nil,
      pidWeight_stateBlind pid process]
    omega

theorem shortTermPlannerIteration (iterated : kernel.shortTermPlannerIteration config = some next) :
    KeepsPids kernel next := by
  simp only [Kernel.shortTermPlannerIteration, Option.bind_eq_bind, Option.bind_eq_some_iff,
    semWait_eq_some] at iterated
  obtain ⟨_, ⟨_, rfl⟩, _, ⟨_, rfl⟩, _, dispatched, result⟩ := iterated
  obtain ⟨process, rest, perm, _, rfl⟩ := shortTermPlannerDispatch_cases dispatched
  obtain rfl := Option.some.inj result
  simp only [semInit_fields] at perm
  refine ⟨?_, by simp [queuePush], fun pid => ?_⟩
  · simp [queuePush, Kernel.created, KernelEvent.createdPid?, List.filterMap_cons]
  · have weights := weigh_perm (pidWeight pid) perm
    simp only [weigh_cons] at weights
    simp only [weighQueues, queuePush, semPost_fields, sendToCpu_fields, setQueue_ready,
      setQueue_exec, queue_exec, semInit_fields, weigh_append, weigh_cons, weigh_nil,
      pidWeight_stateBlind pid process]
    omega

end KeepsPids

/-- Every queued pid was given by the counter, and none is queued twice unless the counter has
    wrapped around. -/
structure PidsOnce (kernel : Kernel) : Prop where
  counter : kernel.PidCounter
  given : ∀ pid, 0 < kernel.weighQueues (pidWeight pid) → pid ∈ kernel.created
  once : kernel.created.length ≤ 2 ^ 32 → kernel.NoPidTwice

namespace PidsOnce

variable {kernel next : Kernel} {config : KernelConfig}

theorem init (config : KernelConfig) : (Kernel.init config).PidsOnce where
  counter := PidCounter.init config
  given := by simp [Kernel.init, weighQueues, weighAll_replicate_nil]
  once := by simp [Kernel.init, NoPidTwice, weighQueues, weighAll_replicate_nil]

theorem keeps (pids : kernel.PidsOnce) (keeps : KeepsPids kernel next) : next.PidsOnce where
  counter := pids.counter.congr keeps.created keeps.idToAssign
  given pid queued := by
    rw [keeps.created]
    exact pids.given pid (Nat.lt_of_lt_of_le queued (keeps.weigh pid))
  once bound pid := by
    rw [keeps.created] at bound
    exact Nat.le_trans (keeps.weigh pid) (pids.once bound pid)

/-- A creation takes a pid that no queue holds: one that was never given. -/
theorem receivePcbAndCreate (pids : kernel.PidsOnce) (path : String)
    (quantum clientSocket : Int32) :
    (kernel.receivePcbAndCreate path quantum clientSocket).PidsOnce := by
  have weighs : ∀ pid, (kernel.receivePcbAndCreate path quantum clientSocket).weighQueues
      (pidWeight pid) =
        kernel.weighQueues (pidWeight pid) + if kernel.idToAssign = pid then 1 else 0 := by
    intro pid
    simp [Kernel.receivePcbAndCreate, moveProcessToNew, queuePush, sendToMemory, weighQueues,
      pidWeight, createPcb]
    omega
  refine ⟨pids.counter.receivePcbAndCreate path quantum clientSocket, ?_, ?_⟩
  · intro pid queued
    rw [created_receivePcbAndCreate, List.mem_cons]
    rw [weighs] at queued
    by_cases same : kernel.idToAssign = pid
    · exact .inl same.symm
    · exact .inr (pids.given pid (by simpa [same] using queued))
  · intro bound pid
    rw [created_receivePcbAndCreate, List.length_cons] at bound
    have before := pids.once (by omega) pid
    have fresh := pids.counter.fresh (by omega)
    rw [weighs]
    split
    · rename_i same
      have absent := mt (pids.given pid) (same ▸ fresh)
      omega
    · exact before

end PidsOnce

/-! ### Serial runs -/

/-- Starting and stopping the planners moves no process. -/
theorem startPlanning_keeps {kernel next : Kernel} (started : kernel.startPlanning = some next) :
    KeepsPids kernel next ∧ ∀ config, kernel.Shape config → next.Shape config := by
  simp only [Kernel.startPlanning, Option.bind_eq_bind, Option.bind_eq_some_iff,
    semWait_eq_some] at started
  obtain ⟨_, ⟨_, rfl⟩, result⟩ := started
  obtain rfl := Option.some.inj result
  exact ⟨.of_same (by simp [Kernel.created]) (by simp) (by simp) (by simp) (by simp) (by simp),
    fun config shape => shape.congr (by simp) (by simp) (by simp)⟩

theorem stopPlanning_keeps {kernel next : Kernel} (stopped : kernel.stopPlanning = some next) :
    KeepsPids kernel next ∧ ∀ config, kernel.Shape config → next.Shape config := by
  simp only [Kernel.stopPlanning, Option.bind_eq_bind, Option.bind_eq_some_iff,
    semWait_eq_some] at stopped
  obtain ⟨_, ⟨_, rfl⟩, _, rfl⟩ := stopped
  exact ⟨.of_same (by simp [Kernel.created]) (by simp) (by simp) (by simp) (by simp) (by simp),
    fun config shape => shape.congr (by simp) (by simp) (by simp)⟩

/-- The planners move processes between the queues; the resource lists are not theirs. -/
theorem longTermPlannerIteration_shape {config : KernelConfig} {kernel next : Kernel}
    (shape : kernel.Shape config) (iterated : kernel.longTermPlannerIteration = some next) :
    next.Shape config := by
  simp only [Kernel.longTermPlannerIteration, Option.bind_eq_bind, Option.bind_eq_some_iff,
    semWait_eq_some] at iterated
  obtain ⟨_, ⟨_, rfl⟩, _, ⟨_, rfl⟩, admitted⟩ := iterated
  obtain ⟨_, _, _, _, rfl⟩ := longTermPlannerAdmit_cases admitted
  exact shape.congr (by simp [queuePush]) (by simp [queuePush]) (by simp [queuePush])

theorem shortTermPlannerIteration_shape {config : KernelConfig} {kernel next : Kernel}
    (shape : kernel.Shape config)
    (iterated : kernel.shortTermPlannerIteration config = some next) : next.Shape config := by
  simp only [Kernel.shortTermPlannerIteration, Option.bind_eq_bind, Option.bind_eq_some_iff,
    semWait_eq_some] at iterated
  obtain ⟨_, ⟨_, rfl⟩, _, ⟨_, rfl⟩, _, dispatched, result⟩ := iterated
  obtain ⟨_, _, _, _, rfl⟩ := shortTermPlannerDispatch_cases dispatched
  obtain rfl := Option.some.inj result
  exact shape.congr (by simp [queuePush]) (by simp [queuePush]) (by simp [queuePush])

/-- What holds between the operations of a serial run. -/
structure SerialInvariant (config : KernelConfig) (kernel : Kernel) : Prop where
  shape : kernel.Shape config
  books : kernel.Accounting config.multiprogrammingDegree
  pids : kernel.PidsOnce

/-- Every operation of a serial run keeps the invariant. -/
theorem SerialInvariant.step {config : KernelConfig} {kernel next : Kernel}
    {operation : SerialOperation} (invariant : kernel.SerialInvariant config)
    (taken : kernel.serialStep config operation = some next) : next.SerialInvariant config := by
  obtain ⟨shape, books, pids⟩ := invariant
  cases operation with
  | createProcess path quantum clientSocket =>
      obtain rfl := Option.some.inj taken
      exact ⟨shape.congr (by simp [receivePcbAndCreate, moveProcessToNew, queuePush, sendToMemory])
          (by simp [receivePcbAndCreate, moveProcessToNew, queuePush, sendToMemory])
          (by simp [receivePcbAndCreate, moveProcessToNew, queuePush, sendToMemory]),
        books.receivePcbAndCreate path quantum clientSocket,
        pids.receivePcbAndCreate path quantum clientSocket⟩
  | finishProcess pid =>
      obtain ⟨_, finished⟩ := Option.ite_none_right_eq_some.mp taken
      exact ⟨shape.finishProcess finished, books.finishProcess finished,
        pids.keeps (.finishProcess finished)⟩
  | startPlanning =>
      obtain ⟨keeps, shaped⟩ := startPlanning_keeps taken
      exact ⟨shaped config shape, books.startPlanning taken, pids.keeps keeps⟩
  | stopPlanning =>
      obtain ⟨keeps, shaped⟩ := stopPlanning_keeps taken
      exact ⟨shaped config shape, books.stopPlanning taken, pids.keeps keeps⟩
  | longTermPlanner =>
      exact ⟨longTermPlannerIteration_shape shape taken, books.longTermPlannerIteration taken,
        pids.keeps (.longTermPlannerIteration taken)⟩
  | shortTermPlanner =>
      obtain ⟨_, iterated⟩ := Option.ite_none_right_eq_some.mp taken
      exact ⟨shortTermPlannerIteration_shape shape iterated,
        books.shortTermPlannerIteration iterated,
        pids.keeps (.shortTermPlannerIteration iterated)⟩
  | message message =>
      obtain ⟨about, handled⟩ := Option.ite_none_right_eq_some.mp taken
      exact ⟨shape.dispatchEffect (handleDispatchConnection_cases handled),
        books.handleDispatchConnection shape about handled,
        pids.keeps (.handleDispatchConnection shape about handled)⟩

theorem SerialInvariant.init (config : KernelConfig) :
    (Kernel.init config).SerialInvariant config :=
  ⟨.init config, .init config, .init config⟩

end Kernel

/-- After every serial run the books are in order, and no pid is in two queues as long as at most
    `2 ^ 32` processes were created. -/
theorem serial_run_accounting (config : KernelConfig) (operations : List SerialOperation)
    (kernel : Kernel)
    (reaches : run (Kernel.serialStep config) (Kernel.init config) operations = some kernel) :
    kernel.Accounting config.multiprogrammingDegree ∧
      (kernel.created.length ≤ 2 ^ 32 → kernel.NoPidTwice) := by
  have invariant : kernel.SerialInvariant config :=
    invariant_of_run _ (fun invariant taken => invariant.step taken) (.init config) reaches
  exact ⟨invariant.books, invariant.pids.once⟩

/-- One resource with one instance, two slots, FIFO. -/
def serialConfig : KernelConfig where
  planningAlgorithm := "FIFO"
  resources := [("REC1", 1)]
  multiprogrammingDegree := 2
  priority _ := 0

/-- A process is created, admitted and dispatched; it asks for `REC1`, is granted it and ends. -/
def serialOperations : List SerialOperation :=
  let pcb := createPcb 0 "DEADLOCK_A" 0 5
  [.createProcess "DEADLOCK_A" 0 5, .startPlanning, .longTermPlanner, .shortTermPlanner,
    .message ⟨.wait "REC1", pcb⟩, .message ⟨.finish, pcb⟩]

theorem serial_run_accounting_witness :
    ∃ kernel, run (Kernel.serialStep serialConfig) (Kernel.init serialConfig) serialOperations =
        some kernel ∧
      kernel.Accounting 2 ∧ kernel.NoPidTwice := by
  refine ⟨_, rfl, ?_⟩
  have result := serial_run_accounting serialConfig serialOperations _ rfl
  exact ⟨result.1, result.2 (by decide)⟩

/-- Processes are created and finished, one after the other; `first` is the pid of the first one. -/
def createAndFinish (first count : Nat) : List SerialOperation :=
  (List.range' first count).flatMap fun pid =>
    [.createProcess "DEADLOCK_A" 0 5, .finishProcess (.ofNat pid)]

/-- The console finishes the process that it has just created. -/
theorem finishProcess_created {kernel : Kernel} (new : kernel.queueNew = [])
    (blocked : kernel.listOfQueueBlocked = []) :
    ∃ next, (kernel.receivePcbAndCreate "DEADLOCK_A" 0 5).finishProcess kernel.idToAssign =
        some next ∧
      next.queueNew = [] ∧ next.queueReady = kernel.queueReady ∧
      next.queueExec = kernel.queueExec ∧ next.listOfQueueBlocked = [] ∧ next.sem = kernel.sem ∧
      next.idToAssign = kernel.idToAssign + 1 := by
  have found : (kernel.receivePcbAndCreate "DEADLOCK_A" 0 5).findInAllQueues kernel.idToAssign =
      some (.new, createPcb kernel.idToAssign "DEADLOCK_A" 0 5) := by
    simp [Kernel.findInAllQueues, Kernel.buildAllQueuesInList, Kernel.receivePcbAndCreate,
      Kernel.moveProcessToNew, Kernel.queuePush, Kernel.sendToMemory, findProcessFromQueue, new,
      createPcb]
  rw [Kernel.finishProcess, found]
  simp only [Kernel.releaseAndRemove, Kernel.freeResourcesRetained, Kernel.addResourceInstances,
    createPcb, List.foldl_nil, Kernel.checkProcessInBlockedAndSendToReady,
    Kernel.updateQueueSemaphores]
  simp [Kernel.receivePcbAndCreate, Kernel.moveProcessToNew, Kernel.queuePush,
    Kernel.sendToMemory, new, blocked, Kernel.semWait]
  refine ⟨rfl, funext fun semaphore => ?_⟩
  by_cases created : semaphore = .processNew
  · rw [created]
    simp
  · simp [created]

/-- Creations and finishes use up the values of `id_to_assign` and leave the rest alone. -/
theorem run_createAndFinish (config : KernelConfig) (count first : Nat) (kernel : Kernel)
    (new : kernel.queueNew = []) (exec : kernel.queueExec = [])
    (blocked : kernel.listOfQueueBlocked = []) (counter : kernel.idToAssign = .ofNat first) :
    ∃ next, run (Kernel.serialStep config) kernel (createAndFinish first count) = some next ∧
      next.queueReady = kernel.queueReady ∧ next.idToAssign = .ofNat (first + count) := by
  induction count generalizing first kernel with
  | zero => exact ⟨kernel, rfl, rfl, counter⟩
  | succ count ih =>
      obtain ⟨middle, finished, newAfter, ready, execAfter, blockedAfter, _, counterAfter⟩ :=
        finishProcess_created new blocked
      have next : middle.idToAssign = .ofNat (first + 1) := by
        rw [counterAfter, counter, UInt32.ofNat_add]
        rfl
      obtain ⟨last, reaches, readyLast, counterLast⟩ :=
        ih (first + 1) middle newAfter (execAfter.trans exec) blockedAfter next
      refine ⟨last, ?_, readyLast.trans ready, by rw [counterLast, Nat.add_right_comm]; rfl⟩
      rw [createAndFinish, List.range'_succ, List.flatMap_cons, List.cons_append, run_cons]
      have idle : ∀ process ∈ (kernel.receivePcbAndCreate "DEADLOCK_A" 0 5).queueExec,
          process.pid ≠ .ofNat first := by
        simp [Kernel.receivePcbAndCreate, Kernel.moveProcessToNew, Kernel.queuePush,
          Kernel.sendToMemory, exec]
      rw [counter] at finished
      simp only [Kernel.serialStep, Option.bind_some, List.cons_append, List.nil_append, run_cons]
      rw [if_pos idle, finished, Option.bind_some]
      exact reaches

/-- One process is created and admitted; then processes are created and finished until `id_to_assign`,
    which has 32 bits, is back at 0. -/
def createUntilWrapped : List SerialOperation :=
  [.createProcess "DEADLOCK_A" 0 5, .startPlanning, .longTermPlanner] ++
    createAndFinish 1 (2 ^ 32 - 1) ++ [.createProcess "DEADLOCK_A" 0 5]

/-- A kernel without resources. -/
def noResourcesConfig : KernelConfig := { serialConfig with resources := [] }

/-- After `2 ^ 32` creations the next process gets pid 0 while the first one is still in `queue_ready`.
    There are never more than two processes, so that no semaphore comes near `SEM_VALUE_MAX`, which
    `Kernel.semPost` does not know. -/
theorem serial_run_pid_in_two_queues :
    ∃ kernel, run (Kernel.serialStep noResourcesConfig) (Kernel.init noResourcesConfig)
        createUntilWrapped = some kernel ∧
      ∃ process ∈ kernel.queueReady, ∃ other ∈ kernel.queueNew, process.pid = other.pid := by
  obtain ⟨admitted, reaches, new, exec, blocked, counter, ready⟩ : ∃ admitted,
      run (Kernel.serialStep noResourcesConfig) (Kernel.init noResourcesConfig)
          [.createProcess "DEADLOCK_A" 0 5, .startPlanning, .longTermPlanner] = some admitted ∧
        admitted.queueNew = [] ∧ admitted.queueExec = [] ∧ admitted.listOfQueueBlocked = [] ∧
        admitted.idToAssign = .ofNat 1 ∧
        admitted.queueReady = [(createPcb 0 "DEADLOCK_A" 0 5).setState .ready] :=
    ⟨_, rfl, rfl, rfl, rfl, rfl, rfl⟩
  obtain ⟨last, goesOn, readyLast, counterLast⟩ :=
    run_createAndFinish noResourcesConfig (2 ^ 32 - 1) 1 admitted new exec blocked counter
  have wrapped : last.idToAssign = 0 := by
    rw [counterLast]
    decide
  refine ⟨last.receivePcbAndCreate "DEADLOCK_A" 0 5, ?_,
    (createPcb 0 "DEADLOCK_A" 0 5).setState .ready, ?_, createPcb 0 "DEADLOCK_A" 0 5, ?_, rfl⟩
  · rw [createUntilWrapped, run_append, run_append, reaches, Option.bind_some, goesOn,
      Option.bind_some]
    rfl
  · simp [Kernel.receivePcbAndCreate, Kernel.moveProcessToNew, Kernel.queuePush,
      Kernel.sendToMemory, readyLast, ready]
  · simp [Kernel.receivePcbAndCreate, Kernel.moveProcessToNew, Kernel.queuePush,
      Kernel.sendToMemory, wrapped]

end OsSimulator
