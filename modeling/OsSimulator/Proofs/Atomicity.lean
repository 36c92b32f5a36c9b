/-
Module: OsSimulator.Proofs.Atomicity
Purpose: The functions of the kernel, statement by statement and without another thread in between, do
  what the atomic functions of `Kernel` say they do.
Main exports: Code.simulates_finishProcess, Code.simulates_moveProcessToExec,
  Code.simulates_handleDispatchConnection, Code.simulates_handlerConnection
-/
import OsSimulator.Proofs.Handlers
import OsSimulator.Proofs.Snapshots

namespace OsSimulator

open Threads Program

/-- What a command of a console does to the kernel.  The listing changes nothing. -/
def Command.onKernel : Command → Kernel → Option Kernel
  | .createProcess path quantum clientSocket, kernel =>
      some (kernel.receivePcbAndCreate path quantum clientSocket)
  | .finishProcess pid, kernel => kernel.finishProcess pid
  | .startPlanning, kernel => kernel.startPlanning
  | .stopPlanning, kernel => kernel.stopPlanning
  | .modifyMultiprogrammingDegree newDegree, kernel =>
      some (kernel.modifyMultiprogrammingDegree newDegree)
  | .showAllProcesses, kernel => some kernel

/-- The removal changes the queue and the instances. -/
theorem Kernel.releaseAndRemove_eq (kernel : Kernel) (id : QueueId) (process : Pcb) :
    kernel.releaseAndRemove id process =
      { kernel.setQueue ((kernel.queue id).eraseP (·.pid == process.pid)) id with
        allResourcesInstances := (kernel.freeResourcesRetained process).allResourcesInstances } := by
  have fields := kernel.freeResourcesRetained_fields process
  unfold releaseAndRemove
  generalize kernel.freeResourcesRetained process = released at fields ⊢
  obtain ⟨_, _, _, _, _, _, _, _, _, _, _⟩ := released
  simp only at fields
  obtain ⟨rfl, rfl, rfl, rfl, rfl, rfl, rfl, rfl, rfl, rfl⟩ := fields
  cases id <;> rfl

theorem Kernel.length_of_moveProcessFromBlockToReady {kernel next : Kernel} {position index : Nat}
    (moved : kernel.moveProcessFromBlockToReady position index = some next) :
    (next.queue (.blocked index)).length + 1 = (kernel.queue (.blocked index)).length ∧
      position < (kernel.queue (.blocked index)).length := by
  obtain ⟨process, at_position, _, _, blocked⟩ := moveProcessFromBlockToReady_wakes moved
  have inside := (List.getElem?_eq_some_iff.mp at_position).1
  have queued : index < kernel.listOfQueueBlocked.length := by
    by_contra beyond
    rw [queue_blocked, List.getD_eq_getElem?_getD,
      List.getElem?_eq_none (Nat.not_lt.mp beyond)] at inside
    exact absurd inside (Nat.not_lt_zero _)
  have erased : next.queue (.blocked index) =
      (kernel.queue (.blocked index)).eraseIdx position := by
    rw [queue_blocked, blocked, List.getD_eq_getElem?_getD, List.getElem?_set_self queued]
    rfl
  rw [erased, List.length_eraseIdx_of_lt inside]
  omega

namespace Code

/-! ### The loops of the planners between their `sem_wait`s -/

/-- `long_term_planner` after its second `sem_wait`. -/
def longTermPlannerAdmit : Code Unit := do
  semWait .processNew
  moveProcessToReady
  semPost .processReady
  semPost .longTermPlanner

/-- The short-term planners from `sem_wait(&cpu_available)` to the end of the dispatch. -/
def shortTermPlannerDispatch (config : KernelConfig) : Code Unit := do
  semWait .cpuAvailable
  if config.planningAlgorithm = "PRIORITIES" then sortQueue else pure ()
  semWait .mutexProcessExec
  moveProcessToExec
  semPost .mutexProcessExec

/-- `planning_with_round_robin` after its `usleep`. -/
def interruptAfterQuantum : Code Unit := do
  semWait .mutexQueueExec
  interruptProcess
  semPost .mutexQueueExec
  semPost .shortTermPlanner

/-- `thread_sleep_process` after its `usleep`. -/
def afterSleep (processToMove : PcbPointer) : Code Unit := do
  perform (.setState processToMove .ready)
  perform (.advanceCounter processToMove)
  pushLocked .ready processToMove
  semPost .processReady

end Code

/-- A mutex that was free is free again when the queue it protects is stored. -/
theorem Memory.unlock_setQueue {memory : Memory} {semaphore : Semaphore}
    (free : memory.sem semaphore = 1) (elements : List PcbPointer) (id : QueueId) :
    ((memory.setSem semaphore 0).setQueue elements id).setSem semaphore 1 =
      memory.setQueue elements id := by
  have value : (memory.setQueue elements id).sem semaphore = 1 := by rw [sem_setQueue, free]
  have again : ((memory.setQueue elements id).setSem semaphore 0).setSem semaphore 1 =
      memory.setQueue elements id := setSem_setSem_of_eq value
  rw [← again]
  cases id <;> rfl

namespace Memory.Shows

variable {memory : Memory} {kernel : Kernel} {held : List Mutex} {owned : List (PcbPointer × Pcb)}
  {created : List (PcbPointer × Int32)} {headers : Nat} {id : QueueId} {pid : UInt32}
  {process : PcbPointer}

/-- The first process with a pid in a queue of pointers is the first one in the queue of PCBs. -/
theorem findProcessFromQueue_eq (shows : memory.Shows ⟨kernel, held, owned, created, headers⟩)
    (id : QueueId) (pid : UInt32) : (memory.findProcessFromQueue id pid).map memory.pcb =
      OsSimulator.findProcessFromQueue (kernel.queue id) pid := by
  rw [Memory.findProcessFromQueue, OsSimulator.findProcessFromQueue, ← shows.queue id,
    List.find?_map]
  rfl

theorem findInAllQueues_eq (shows : memory.Shows ⟨kernel, held, owned, created, headers⟩)
    (pid : UInt32) : (kernel.buildAllQueuesInList.findSome? fun id =>
        (memory.findProcessFromQueue id pid).map fun process => (id, process)).map
          (fun found => (found.1, memory.pcb found.2)) = kernel.findInAllQueues pid := by
  rw [Kernel.findInAllQueues]
  induction kernel.buildAllQueuesInList with
  | nil => rfl
  | cons id ids ih =>
      rw [List.findSome?_cons, List.findSome?_cons, ← shows.findProcessFromQueue_eq id pid]
      cases memory.findProcessFromQueue id pid with
      | none => exact ih
      | some process => rfl

theorem quantityResourceInstanceAvailable
    (shows : memory.Shows ⟨kernel, held, owned, created, headers⟩) (resource : String) :
    memory.quantityResourceInstanceAvailable resource =
      kernel.quantityResourceInstanceAvailable resource := by
  have same_index : memory.resourceIndex resource = kernel.resourceIndex resource := by
    rw [Memory.resourceIndex, Kernel.resourceIndex, shows.allResources]
  rw [Memory.quantityResourceInstanceAvailable, Kernel.quantityResourceInstanceAvailable, same_index]
  cases kernel.resourceIndex resource with
  | some index => exact congrArg (List.getD · index 0) shows.allResourcesInstances
  | none => exact Eq.refl (0 : Int)

theorem getQueueBlocked (shows : memory.Shows ⟨kernel, held, owned, created, headers⟩)
    (resource : String) : memory.getQueueBlocked resource = kernel.getQueueBlocked resource := by
  rw [Memory.getQueueBlocked, Kernel.getQueueBlocked, shows.blockedQueues, shows.allResources]

/-- What `finish_process` has done when it has taken the process it found out of its queue. -/
theorem releaseAndRemove (shows : memory.Shows ⟨kernel, held, owned, created, headers⟩)
    (found : memory.findProcessFromQueue id pid = some process) (change : Pcb → Pcb) :
    ({ memory.modifyPcb process change with
        allResourcesInstances :=
          (kernel.freeResourcesRetained (memory.pcb process)).allResourcesInstances }.setQueue
      ((memory.queue id).erase process) id).Shows
      ⟨kernel.releaseAndRemove id (memory.pcb process), held,
        (process, change (memory.pcb process)) :: owned, created, headers⟩ := by
  obtain ⟨samePid, position, inside, here, before⟩ := List.find?_eq_some_iff_getElem.mp found
  have at_position : (memory.queue id)[position]? = some process :=
    List.getElem?_eq_some_iff.mpr ⟨inside, here⟩
  have erased := erase_eq_eraseIdx_of_once (shows.queue_once id process) at_position
  have erasedPcb : (kernel.queue id).eraseP (·.pid == (memory.pcb process).pid) =
      (kernel.queue id).eraseIdx position := by
    have first : (kernel.queue id).findIdx? (·.pid == (memory.pcb process).pid) =
        some position := by
      rw [List.findIdx?_eq_some_iff_getElem, ← shows.queue id]
      refine ⟨by simpa using inside, by simp [here], fun earlier less => ?_⟩
      have other := before earlier less
      rw [eq_of_beq samePid]
      simpa using other
    rw [List.eraseP_eq_eraseIdx, first]
  have taken := ((shows.take at_position).modifyPcb change).instances
    (kernel.freeResourcesRetained (memory.pcb process)).allResourcesInstances
  rw [Kernel.releaseAndRemove_eq, erased, erasedPcb]
  refine cast (congrArg (Memory.Shows · _) ?_) taken
  cases id <;> rfl

/-- What `move_process_from_block_to_ready` has done when it comes to its `sem_wait`. -/
theorem blockToReady (shows : memory.Shows ⟨kernel, held, owned, created, headers⟩)
    {index position : Nat} (at_position : (memory.queue (.blocked index))[position]? = some process)
    (change : Pcb → Pcb) :
    (((memory.modifyPcb process change).setQueue (memory.queue .ready ++ [process]) .ready).setQueue
      ((memory.queue (.blocked index)).erase process) (.blocked index)).Shows
      ⟨((kernel.log (.blockedToReady (memory.pcb process).pid index)).queuePush .ready
        (change (memory.pcb process))).setQueue
          ((kernel.queue (.blocked index)).eraseIdx position) (.blocked index),
        held, owned, created, headers⟩ := by
  have moved := (((shows.take at_position).modifyPcb change).push .ready).log
    (.blockedToReady (memory.pcb process).pid index) rfl
  rw [erase_eq_eraseIdx_of_once (shows.queue_once _ process) at_position]
  exact moved

end Memory.Shows

namespace Code

variable {α β : Type} {config : KernelConfig} {kernel next : Kernel} {held : List Mutex}
  {owned : List (PcbPointer × Pcb)} {created : List (PcbPointer × Int32)} {headers : Nat}
  {process : PcbPointer} {pcb : Pcb} {id : QueueId} {mutex : Mutex} {semaphore : Semaphore}
  {ending : Unit → Snapshot → Prop}

/-! ### Single operations -/

theorem simulates_semWait (counts : semaphore.mutex? = none)
    (waited : kernel.semWait semaphore = some next)
    (ends : ending () ⟨next, held, owned, created, headers⟩) :
    (semWait semaphore).Simulates config ⟨kernel, held, owned, created, headers⟩ ending := by
  obtain ⟨positive, rfl⟩ := (Kernel.semWait_eq_some ..).mp waited
  refine simulates_perform (fun memory shows => ?_) ends
  have value : memory.sem semaphore = kernel.sem semaphore := shows.sem semaphore counts
  refine ⟨memory.setSem semaphore (memory.sem semaphore - 1), ?_, ?_⟩
  · rw [Operation.perform, if_pos (value ▸ positive)]
  · rw [value]
    exact shows.setSem counts _

theorem simulates_semPost (counts : semaphore.mutex? = none)
    (ends : ending () ⟨kernel.semPost semaphore, held, owned, created, headers⟩) :
    (semPost semaphore).Simulates config ⟨kernel, held, owned, created, headers⟩ ending := by
  refine simulates_perform (fun memory shows => ⟨_, rfl, ?_⟩) ends
  rw [shows.sem semaphore counts]
  exact shows.setSem counts _

theorem simulates_acquire (mutex : Mutex) (free : mutex ∉ held)
    (ends : ending () ⟨kernel, mutex :: held, owned, created, headers⟩) :
    (semWait mutex.semaphore).Simulates config ⟨kernel, held, owned, created, headers⟩ ending := by
  refine simulates_perform (fun memory shows => ?_) ends
  have value : memory.sem mutex.semaphore = 1 := (shows.locks mutex).trans (if_neg free)
  refine ⟨memory.setSem mutex.semaphore 0, ?_, shows.acquire⟩
  rw [Operation.perform, value]
  rfl

theorem simulates_release (mutex : Mutex) (free : mutex ∉ held)
    (ends : ending () ⟨kernel, held, owned, created, headers⟩) :
    (semPost mutex.semaphore).Simulates config ⟨kernel, mutex :: held, owned, created, headers⟩
      ending := by
  refine simulates_perform (fun memory shows => ⟨_, rfl, ?_⟩) ends
  have value : memory.sem mutex.semaphore = 0 :=
    (shows.locks mutex).trans (if_pos List.mem_cons_self)
  rw [value]
  exact shows.release free

theorem simulates_look {value : Memory → α} {result : α} {snapshot : Snapshot}
    {ending : α → Snapshot → Prop} (seen : ∀ memory, memory.Shows snapshot → value memory = result)
    (ends : ending result snapshot) : (look value).Simulates config snapshot ending := by
  refine simulates_observe fun memory shows => ⟨memory, snapshot, rfl, shows, ?_⟩
  rw [seen memory shows]
  exact ends

/-- Any write to a PCB that the thread owns. -/
theorem simulates_modify {operation : Operation} {change : Pcb → Pcb}
    (performs : ∀ memory, operation.perform config memory = some (memory.modifyPcb process change))
    (ends : ending () ⟨kernel, held, (process, change pcb) :: owned, created, headers⟩) :
    Code.Simulates config (perform operation)
      ⟨kernel, held, (process, pcb) :: owned, created, headers⟩ ending :=
  simulates_perform (fun memory shows => ⟨_, performs memory, shows.modifyPcb change⟩) ends

theorem simulates_allocate {ending : PcbPointer → Snapshot → Prop}
    (ends : ∀ process, ending process
      ⟨kernel, held, (process, pcb) :: owned, created, headers⟩) :
    (allocate pcb).Simulates config ⟨kernel, held, owned, created, headers⟩ ending :=
  simulates_observe fun memory shows =>
    ⟨_, _, rfl, shows.allocate pcb, ends memory.pcbs.length⟩

theorem simulates_modifyInstance (resource : String) (value : Int)
    (ends : ending ()
      ⟨kernel.modifyResourceInstance resource value, held, owned, created, headers⟩) :
    Code.Simulates config (perform (.modifyInstance resource value))
      ⟨kernel, held, owned, created, headers⟩ ending :=
  simulates_perform (fun _ shows => shows.modifyInstance resource value config) ends

/-- A message to the CPU is the last that is done with a PCB. -/
theorem simulates_sendToCpu (header : OperationCode)
    (ends : ending () ⟨kernel.sendToCpu header pcb, held, owned, created, headers⟩) :
    Code.Simulates config (perform (.sendToCpu header process))
      ⟨kernel, held, (process, pcb) :: owned, created, headers⟩ ending := by
  refine simulates_perform (fun memory shows => ⟨_, rfl, ?_⟩) ends
  rw [shows.of_owned.2.1]
  exact (shows.sendToCpu header pcb).reown (List.sublist_cons_self ..).subperm

/-- `send_pcb` on the connection with memory. -/
theorem simulates_sendPcbToMemory (header : OperationCode)
    (ends : ending ()
      ⟨kernel.sendToMemory header pcb, held, (process, pcb) :: owned, created, headers⟩) :
    (sendPcbToMemory header process).Simulates config
      ⟨kernel, held, (process, pcb) :: owned, created, headers⟩ ending := by
  intro memory shows
  refine ⟨(), _, ?_, _, shows.sendToMemory header pcb, ends⟩
  simp [sendPcbToMemory, look, exec_bind, exec_observe, exec_perform, Operation.perform,
    shows.of_owned.2.1]

/-- Lines of the log are no operations. -/
theorem simulates_log {code : Code α} {ending : α → Snapshot → Prop} (event : KernelEvent)
    (silent : event.chunks = [])
    (simulates : code.Simulates config ⟨kernel.log event, held, owned, created, headers⟩ ending) :
    code.Simulates config ⟨kernel, held, owned, created, headers⟩ ending :=
  simulates.of_shows fun _ shows => shows.log event silent

/-- What a thread owns need not be known any more. -/
theorem simulates_forget {entry : PcbPointer × Pcb} {code : Code α}
    {ending : α → Snapshot → Prop}
    (simulates : code.Simulates config ⟨kernel, held, owned, created, headers⟩ ending) :
    code.Simulates config ⟨kernel, held, entry :: owned, created, headers⟩ ending :=
  simulates.of_shows fun _ shows => shows.reown (List.sublist_cons_self ..).subperm

/-! ### Critical sections -/

theorem simulates_pushLocked (free : id.lock ∉ held)
    (ends : ending () ⟨kernel.queuePush id pcb, held, owned, created, headers⟩) :
    (pushLocked id process).Simulates config
      ⟨kernel, held, (process, pcb) :: owned, created, headers⟩ ending := by
  rw [pushLocked, QueueId.mutex_eq]
  refine simulates_bind (simulates_acquire _ free ?_)
  refine simulates_bind (simulates_perform (fun _ shows => ⟨_, rfl, shows.push id⟩) ?_)
  exact simulates_release _ free ends

theorem simulates_popLocked {rest : List Pcb} {ending : Option PcbPointer → Snapshot → Prop}
    (free : id.lock ∉ held) (head : kernel.queue id = pcb :: rest)
    (ends : ∀ process, ending (some process)
      ⟨kernel.setQueue rest id, held, (process, pcb) :: owned, created, headers⟩) :
    (popLocked id).Simulates config ⟨kernel, held, owned, created, headers⟩ ending := by
  rw [popLocked, QueueId.mutex_eq]
  refine simulates_bind (simulates_acquire _ free ?_)
  refine simulates_bind (simulates_observe fun memory shows => ?_)
  have mapped : (memory.queue id).map memory.pcb = pcb :: rest := (shows.queue id).trans head
  cases elements : memory.queue id with
  | nil => simp [elements] at mapped
  | cons process processes =>
      obtain ⟨rfl, rest_eq⟩ : memory.pcb process = pcb ∧ _ = rest := by simpa [elements] using mapped
      have at_head : (memory.queue id)[0]? = some process := by simp [elements]
      have taken := shows.take at_head
      rw [elements, head] at taken
      refine ⟨_, _, rfl, ?_, simulates_bind (simulates_release _ free
        (simulates_pure _ (ends process)))⟩
      rw [elements]
      exact taken

/-- What is popped is dropped. -/
theorem simulates_discard {ending : Option PcbPointer → Snapshot → Prop} (free : id.lock ∉ held)
    (ends : ∀ result, ending result
      ⟨kernel.setQueue (kernel.queue id).tail id, held, owned, created, headers⟩) :
    (popLocked id).Simulates config ⟨kernel, held, owned, created, headers⟩ ending := by
  rw [popLocked, QueueId.mutex_eq]
  refine simulates_bind (simulates_acquire _ free ?_)
  refine simulates_bind (simulates_observe fun memory shows => ⟨_, _, rfl, ?_,
    simulates_bind (simulates_release _ free (simulates_pure _ (ends _)))⟩)
  rw [← shows.queue id, ← List.map_tail]
  refine shows.exchange id (fun other => ?_) shows.owned
  have less : weigh (pointerWeight other) (memory.queue id).tail ≤
      weigh (pointerWeight other) (memory.queue id) := by
    cases memory.queue id with
    | nil => exact Nat.le_refl _
    | cons process processes =>
        rw [List.tail_cons, weigh_cons]
        omega
  omega

/-! ### `queues.c` -/

theorem simulates_buildAllQueuesInList {ending : List QueueId → Snapshot → Prop}
    (ends : ending kernel.buildAllQueuesInList ⟨kernel, [], owned, created, headers⟩) :
    buildAllQueuesInList.Simulates config ⟨kernel, [], owned, created, headers⟩ ending := by
  refine simulates_bind (simulates_acquire .queueNew List.not_mem_nil ?_)
  refine simulates_bind (simulates_release _ List.not_mem_nil ?_)
  refine simulates_bind (simulates_acquire .queueReady List.not_mem_nil ?_)
  refine simulates_bind (simulates_release _ List.not_mem_nil ?_)
  refine simulates_bind (simulates_acquire .queueExec List.not_mem_nil ?_)
  refine simulates_bind (simulates_release _ List.not_mem_nil ?_)
  refine simulates_bind (simulates_acquire .queueBlocked List.not_mem_nil ?_)
  refine simulates_bind (simulates_look (fun _ shows => shows.blockedQueues) ?_)
  exact simulates_bind (simulates_release _ List.not_mem_nil (simulates_pure _ ends))

/-- A look at a queue under its mutex, in front of the rest of the code. -/
theorem ends_lookLocked {memory : Memory} (free : memory.sem semaphore = 1) {operation : Operation}
    (silent : ∀ memory, operation.perform config memory = some memory) {value : Memory → α}
    (unlocked : value (memory.setSem semaphore 0) = value memory) {rest : α → Code β}
    {ending : β → Memory → Prop}
    (ends : (rest (value memory)).Ends (Operation.perform config) memory ending) :
    (semWait semaphore >>= fun _ => observe operation value >>= fun found =>
      semPost semaphore >>= fun _ => rest found).Ends (Operation.perform config) memory ending := by
  refine ends_bind (ends_perform (memory.setSem semaphore 0) ?_ ?_)
  · rw [Operation.perform, free]
    rfl
  refine ends_bind (ends_observe (silent _) (ends_bind (ends_perform memory ?_ ?_)))
  · simp [Operation.perform, Memory.setSem_sem, Memory.setSem_setSem_of_eq free]
  rw [unlocked]
  exact ends

/-- The search looks at the queues one after the other and leaves the memory as it is. -/
theorem ends_searchQueues {memory : Memory} (free : ∀ mutex : Mutex, memory.sem mutex.semaphore = 1)
    (pid : UInt32) (ids : List QueueId) :
    (searchQueues pid ids).Ends (Operation.perform config) memory fun found after =>
      after = memory ∧ found = ids.findSome? fun id =>
        (memory.findProcessFromQueue id pid).map fun process => (id, process) := by
  induction ids with
  | nil => exact ends_pure ⟨rfl, rfl⟩
  | cons id ids ih =>
      have value : memory.sem id.mutex = 1 := by
        rw [QueueId.mutex_eq]
        exact free _
      rw [searchQueues]
      refine ends_lookLocked value (fun _ => rfl) ?_ ?_
      · rw [Memory.findProcessFromQueue, Memory.queue_setSem]
        rfl
      rw [List.findSome?_cons]
      cases memory.findProcessFromQueue id pid with
      | none => exact ih
      | some process => exact ends_pure ⟨rfl, rfl⟩

/-- `add_resource_instance` for each of some names changes the instances only. -/
theorem ends_addResourceInstances {memory : Memory} {kernel : Kernel} (resources : List String)
    (names : memory.allResources = kernel.allResources)
    (instances : memory.allResourcesInstances = kernel.allResourcesInstances) :
    (addResourceInstances resources).Ends (Operation.perform config) memory fun _ after =>
      after = { memory with
        allResourcesInstances := (kernel.addResourceInstances resources).allResourcesInstances } := by
  induction resources generalizing memory kernel with
  | nil =>
      refine ends_pure ?_
      rw [Kernel.addResourceInstances, List.foldl_nil, ← instances]
  | cons resource resources ih =>
      have sameIndex : memory.resourceIndex resource = kernel.resourceIndex resource := by
        rw [Memory.resourceIndex, Kernel.resourceIndex, names]
      have performs : (Operation.modifyInstance resource 1).perform config memory =
          some { memory with
            allResourcesInstances := (kernel.addResourceInstance resource).allResourcesInstances } := by
        rw [Operation.perform, sameIndex, Kernel.addResourceInstance, Kernel.modifyResourceInstance]
        cases kernel.resourceIndex resource with
        | none => rw [← instances]
        | some index => rw [instances]
      refine ends_bind (ends_perform _ performs ?_)
      refine (ih ?_ rfl).imp fun _ after same => same
      exact names.trans (kernel.modifyResourceInstance_fields _ _).2.2.2.2.1.symm

theorem ends_pushLocked {memory : Memory} (free : memory.sem id.mutex = 1)
    (process : PcbPointer) : (pushLocked id process).Ends (Operation.perform config) memory
      fun _ after => after = memory.setQueue (memory.queue id ++ [process]) id := by
  refine ends_bind (ends_perform (memory.setSem id.mutex 0) ?_ ?_)
  · rw [Operation.perform, free]
    rfl
  refine ends_bind (ends_perform _ rfl (ends_perform _ rfl ?_))
  rw [Memory.queue_setSem, Memory.sem_setQueue, Memory.setSem_sem, if_pos rfl]
  exact Memory.unlock_setQueue free _ _

theorem ends_removeLocked {memory : Memory} (free : memory.sem id.mutex = 1)
    (process : PcbPointer) : (removeLocked id process).Ends (Operation.perform config) memory
      fun _ after => after = memory.setQueue ((memory.queue id).erase process) id := by
  refine ends_bind (ends_perform (memory.setSem id.mutex 0) ?_ ?_)
  · rw [Operation.perform, free]
    rfl
  refine ends_bind (ends_perform _ rfl (ends_perform _ rfl ?_))
  rw [Memory.queue_setSem, Memory.sem_setQueue, Memory.setSem_sem, if_pos rfl]
  exact Memory.unlock_setQueue free _ _

/-- `move_process_from_block_to_ready` for the element at a position of a blocked queue. -/
theorem ends_moveProcessFromBlockToReady {memory : Memory} {index position : Nat}
    (shows : memory.Shows ⟨kernel, [], owned, created, headers⟩)
    (at_position : (memory.queue (.blocked index))[position]? = some process)
    (moved : kernel.moveProcessFromBlockToReady position index = some next) :
    (moveProcessFromBlockToReady process index).Ends (Operation.perform config) memory
      fun _ after => after.Shows ⟨next, [], owned, created, headers⟩ := by
  have element : (kernel.queue (.blocked index))[position]? = some (memory.pcb process) := by
    rw [← shows.queue, List.getElem?_map, at_position]
    rfl
  have free : ∀ mutex : Mutex, memory.sem mutex.semaphore = 1 := shows.locks
  rw [Kernel.moveProcessFromBlockToReady, element] at moved
  obtain ⟨waited, waits, rfl⟩ := Option.map_eq_some_iff.mp moved
  refine ends_bind (ends_perform _ rfl (ends_bind ((ends_pushLocked ?_ _).imp ?_)))
  · exact free .queueReady
  rintro _ _ rfl
  refine ends_bind ((ends_removeLocked ?_ _).imp ?_)
  · rw [Memory.sem_setQueue]
    exact free .queueBlocked
  rintro _ _ rfl
  have counts : (semWait .processBlocked >>= fun _ => semPost .processReady).Simulates config _
      fun _ => (· = ⟨waited.semPost .processReady, [], owned, created, headers⟩) :=
    simulates_bind (simulates_semWait rfl waits (simulates_semPost rfl rfl))
  refine (counts _ (shows.blockToReady at_position (·.setState .ready))).imp ?_
  rintro _ after ⟨_, shown, rfl⟩
  exact shown

/-- The two loops turn equally often: the one of the source as often as there are instances at most,
    the one of `Kernel` as often as there are processes. -/
theorem simulates_wakeLoop {index fuel turns position : Nat} {available : Int}
    (enoughFuel : (kernel.queue (.blocked index)).length ≤ position + fuel)
    (enoughTurns : available.toNat ≤ position + turns)
    (woken : kernel.wakeLoop index available fuel position = some next)
    (ends : ending () ⟨next, [], owned, created, headers⟩) :
    (wakeLoop index available turns position).Simulates config
      ⟨kernel, [], owned, created, headers⟩ ending := by
  induction turns generalizing kernel fuel position with
  | zero =>
      have through : ¬ (position : Int) <
          getMinimun available (kernel.queue (.blocked index)).length := by
        unfold getMinimun
        split <;> omega
      obtain rfl : kernel = next := by
        cases fuel <;> simpa [Kernel.wakeLoop, through] using woken
      exact simulates_pure _ ends
  | succ turns ih =>
      refine simulates_bind (simulates_look (fun _ shows => shows.queue_length _) ?_)
      by_cases goes : (position : Int) <
          getMinimun available (kernel.queue (.blocked index)).length
      · rw [if_pos goes]
        cases fuel with
        | zero =>
            unfold getMinimun at goes
            split at goes <;> omega
        | succ fuel =>
            rw [Kernel.wakeLoop, if_pos goes] at woken
            obtain ⟨middle, moved, remaining⟩ := Option.bind_eq_some_iff.mp woken
            have shorter := Kernel.length_of_moveProcessFromBlockToReady moved
            intro memory shows
            obtain ⟨process, at_position⟩ : ∃ process,
                (memory.queue (.blocked index))[position]? = some process := by
              have inside : position < (memory.queue (.blocked index)).length := by
                rw [shows.queue_length]
                omega
              exact ⟨_, List.getElem?_eq_getElem inside⟩
            refine ends_lookLocked (shows.locks .queueBlocked) (fun _ => rfl) rfl ?_
            rw [at_position]
            refine ends_bind (ends_pure (ends_bind
              ((ends_moveProcessFromBlockToReady shows at_position moved).imp ?_)))
            intro _ after shown
            exact ih (by omega) (by omega) remaining after shown
      · rw [if_neg goes]
        obtain rfl : kernel = next := by
          cases fuel <;> simpa [Kernel.wakeLoop, goes] using woken
        exact simulates_pure _ ends

theorem simulates_wakeQueue {index : Nat} (woken : kernel.wakeQueue index = some next)
    (ends : ending () ⟨next, [], owned, created, headers⟩) :
    (wakeQueue index).Simulates config ⟨kernel, [], owned, created, headers⟩ ending := by
  rw [Kernel.wakeQueue] at woken
  refine simulates_bind (simulates_look (fun _ shows => shows.queue_length _) ?_)
  by_cases waiting : 0 < (kernel.queue (.blocked index)).length
  · rw [if_pos waiting]
    refine simulates_bind (simulates_look
      (fun _ shows => congrArg (List.getD · index 0) shows.allResourcesInstances) ?_)
    by_cases available : 0 < kernel.allResourcesInstances.getD index 0
    · rw [if_pos available]
      rw [if_pos ⟨waiting, available⟩] at woken
      exact simulates_wakeLoop (by omega) (by omega) woken ends
    · rw [if_neg available]
      rw [if_neg fun both => available both.2] at woken
      obtain rfl := Option.some.inj woken
      exact simulates_pure _ ends
  · rw [if_neg waiting]
    rw [if_neg fun both => waiting both.1] at woken
    obtain rfl := Option.some.inj woken
    exact simulates_pure _ ends

theorem simulates_wakeQueues {indices : List Nat}
    (woken : indices.foldlM Kernel.wakeQueue kernel = some next)
    (ends : ending () ⟨next, [], owned, created, headers⟩) :
    (wakeQueues indices).Simulates config ⟨kernel, [], owned, created, headers⟩ ending := by
  induction indices generalizing kernel with
  | nil =>
      obtain rfl : kernel = next := by simpa using woken
      exact simulates_pure _ ends
  | cons index indices ih =>
      rw [List.foldlM_cons] at woken
      obtain ⟨middle, first, rest⟩ := Option.bind_eq_some_iff.mp woken
      exact simulates_bind (simulates_wakeQueue first (ih rest))

theorem simulates_checkProcessInBlockedAndSendToReady
    (woken : kernel.checkProcessInBlockedAndSendToReady = some next)
    (ends : ending () ⟨next, [], owned, created, headers⟩) :
    checkProcessInBlockedAndSendToReady.Simulates config ⟨kernel, [], owned, created, headers⟩
      ending :=
  simulates_bind (simulates_look (fun _ shows => shows.blockedQueues)
    (simulates_wakeQueues woken ends))

theorem simulates_updateQueueSemaphores {state : ProcessState}
    (updated : kernel.updateQueueSemaphores state = some next)
    (ends : ending () ⟨next, held, owned, created, headers⟩) :
    (updateQueueSemaphores state).Simulates config ⟨kernel, held, owned, created, headers⟩
      ending := by
  cases state with
  | execution =>
      obtain rfl := Option.some.inj updated
      exact simulates_bind (simulates_semPost rfl (simulates_semPost rfl ends))
  | ready | blocked =>
      obtain ⟨waited, waits, rfl⟩ := Option.map_eq_some_iff.mp updated
      exact simulates_bind (simulates_semWait rfl waits (simulates_semPost rfl ends))
  | new | exit => exact simulates_semWait rfl updated ends

/-- `finish_process`, on the kernel's side once for all. -/
theorem simulates_finishProcess {pid : UInt32} (finished : kernel.finishProcess pid = some next)
    (ends : ending () ⟨next, [], owned, created, headers⟩) :
    (finishProcess pid).Simulates config ⟨kernel, [], owned, created, headers⟩ ending := by
  refine simulates_bind (simulates_buildAllQueuesInList fun memory shows => ?_)
  refine ends_bind ((ends_searchQueues shows.locks pid _).imp ?_)
  rintro found after ⟨rfl, same⟩
  have finds := shows.findInAllQueues_eq pid
  rw [← same] at finds
  rw [Kernel.finishProcess, ← finds] at finished
  cases found with
  | none =>
      obtain rfl := Option.some.inj finished
      exact ends_pure ⟨_, shows.log _ rfl, ends⟩
  | some element =>
      obtain ⟨id, process⟩ := element
      obtain ⟨woken, wakes, updates⟩ := Option.bind_eq_some_iff.mp finished
      have in_queue : after.findProcessFromQueue id pid = some process := by
        obtain ⟨other, _, here⟩ := List.exists_of_findSome?_eq_some same.symm
        obtain ⟨there, hit, equal⟩ := Option.map_eq_some_iff.mp here
        obtain ⟨rfl, rfl⟩ := Prod.mk.inj equal
        exact hit
      have allocated := shows.allocated_of_mem (List.mem_of_find?_eq_some in_queue)
      have resources : ((after.modifyPcb process (·.setState .exit)).pcb process).resources =
          (after.pcb process).resources := by
        rw [Memory.pcb_modifyPcb_self allocated]
        rfl
      refine ends_bind (ends_observe rfl ?_)
      refine ends_bind (ends_perform _ rfl (ends_bind (ends_bind (ends_observe rfl ?_))))
      rw [resources]
      have names : (after.modifyPcb process (·.setState .exit)).allResources =
          kernel.allResources := shows.allResources
      refine (ends_addResourceInstances _ names shows.allResourcesInstances).imp ?_
      rintro _ _ rfl
      refine ends_bind ((ends_removeLocked ?_ process).imp ?_)
      · rw [QueueId.mutex_eq]
        exact shows.locks _
      rintro _ _ rfl
      have removed := shows.releaseAndRemove in_queue (·.setState .exit)
      refine simulates_bind (simulates_checkProcessInBlockedAndSendToReady wakes ?_) _ removed
      refine simulates_log (.finished (after.pcb process).pid) rfl ?_
      refine simulates_bind (simulates_sendPcbToMemory _ ?_)
      exact simulates_forget (simulates_updateQueueSemaphores updates ends)

/-- `move_process_to_new`, on a PCB that no queue holds. -/
theorem simulates_moveProcessToNew
    (ends : ending () ⟨kernel.moveProcessToNew pcb, [], owned, created, headers⟩) :
    (moveProcessToNew process).Simulates config
      ⟨kernel, [], (process, pcb) :: owned, created, headers⟩ ending := by
  refine simulates_bind (simulates_sendPcbToMemory _ ?_)
  refine simulates_bind (simulates_pushLocked List.not_mem_nil ?_)
  refine simulates_log (.created pcb.pid) rfl ?_
  exact simulates_semPost rfl ends

theorem simulates_moveProcessToReady (moved : kernel.moveProcessToReady = some next)
    (ends : ending () ⟨next, [], owned, created, headers⟩) :
    moveProcessToReady.Simulates config ⟨kernel, [], owned, created, headers⟩ ending := by
  rw [Kernel.moveProcessToReady] at moved
  cases queued : kernel.queueNew with
  | nil => simp [queued] at moved
  | cons pcb rest =>
      rw [queued] at moved
      obtain rfl := Option.some.inj moved
      refine simulates_bind (simulates_popLocked List.not_mem_nil queued fun process => ?_)
      refine simulates_log (.newToReady pcb.pid) rfl ?_
      refine simulates_bind (simulates_pure _ ?_)
      refine simulates_bind (simulates_modify (fun _ => rfl) ?_)
      exact simulates_pushLocked List.not_mem_nil ends

theorem ends_dispatchProcessToCpu {memory : Memory} {header : OperationCode}
    (free : memory.sem .mutexCpuDispatchConnection = 1) (process : PcbPointer) :
    (dispatchProcessToCpu process header).Ends (Operation.perform config) memory fun _ after =>
      after = { memory with
        cpuDispatchConnection :=
          memory.cpuDispatchConnection ++ [(header, memory.pcb process)] } := by
  refine ends_bind (ends_perform (memory.setSem .mutexCpuDispatchConnection 0) ?_ ?_)
  · rw [Operation.perform, free]
    rfl
  refine ends_bind (ends_perform _ rfl (ends_perform _ rfl ?_))
  have same : (memory.setSem .mutexCpuDispatchConnection 0).setSem .mutexCpuDispatchConnection 1 =
      memory := Memory.setSem_setSem_of_eq free
  exact congrArg (fun locked : Memory => { locked with
    cpuDispatchConnection := memory.cpuDispatchConnection ++ [(header, memory.pcb process)] }) same

/-- The short-term planners hold `mutex_process_exec` meanwhile. -/
theorem simulates_moveProcessToExec (moved : kernel.moveProcessToExec = some next)
    (ends : ending () ⟨next, [.processExec], owned, created, headers⟩) :
    moveProcessToExec.Simulates config ⟨kernel, [.processExec], owned, created, headers⟩
      ending := by
  rw [Kernel.moveProcessToExec] at moved
  cases queued : kernel.queueReady with
  | nil => simp [queued] at moved
  | cons pcb rest =>
      rw [queued] at moved
      obtain rfl := Option.some.inj moved
      refine simulates_bind (simulates_popLocked (by decide) queued fun process => ?_)
      refine simulates_bind (simulates_pure _ ?_)
      refine simulates_bind (simulates_modify (fun _ => rfl) ?_)
      -- what is sent is read from the PCB when it is in `queue_exec` already
      intro memory shows
      refine ends_bind ((ends_pushLocked (shows.locks .queueExec) process).imp ?_)
      rintro _ _ rfl
      refine (ends_dispatchProcessToCpu ?_ process).imp ?_
      · rw [Memory.sem_setQueue]
        exact shows.locks .cpuDispatchConnection
      rintro _ _ rfl
      rw [Memory.pcb_setQueue, shows.of_owned.2.1]
      exact ⟨_, (shows.push .exec).sendToCpu _ _, ends⟩

theorem simulates_sortQueue
    (ends : ending () ⟨kernel.sortQueue config, [], owned, created, headers⟩) :
    sortQueue.Simulates config ⟨kernel, [], owned, created, headers⟩ ending := by
  refine simulates_bind (simulates_acquire .queueReady List.not_mem_nil ?_)
  refine simulates_bind (simulates_perform (fun memory shows => ⟨_, rfl, ?_⟩)
    (simulates_release .queueReady List.not_mem_nil ends))
  have sorted := shows.sorted .ready (List.mergeSort_perm memory.queueReady
    fun first second =>
      decide (config.priority (memory.pcb first) ≤ config.priority (memory.pcb second)))
  have ready : memory.queueReady.map memory.pcb = kernel.queueReady := shows.queue .ready
  rw [List.map_mergeSort (s := fun first second =>
      decide (config.priority first ≤ config.priority second)) (fun _ _ _ _ => rfl), ready] at sorted
  exact sorted

theorem simulates_moveProcessFromExecToBlocked {index : Nat}
    (moved : kernel.moveProcessFromExecToBlocked index = some next)
    (ends : ending () ⟨next, [], owned, created, headers⟩) :
    (moveProcessFromExecToBlocked index).Simulates config ⟨kernel, [], owned, created, headers⟩
      ending := by
  obtain ⟨pcb, rest, head, lines, rfl, deadlocks⟩ := Kernel.moveProcessFromExecToBlocked_cases moved
  have silent : ∀ line ∈ lines, line.chunks = [] := by
    intro line member
    obtain ⟨_, _, _, rfl⟩ := deadlocks line member
    rfl
  refine simulates_bind (simulates_popLocked List.not_mem_nil head fun process => ?_)
  refine simulates_log (.execToBlocked pcb.pid) rfl ?_
  refine simulates_bind (simulates_pure _ ?_)
  refine simulates_bind (simulates_semPost rfl ?_)
  refine simulates_bind (simulates_modify (fun _ => rfl) ?_)
  refine simulates_bind (simulates_pushLocked List.not_mem_nil ?_)
  refine Simulates.of_shows ?_ fun _ shown => shown.logs silent
  have trace : ((((kernel.setQueue rest .exec).log (.execToBlocked pcb.pid)).semPost
      .cpuAvailable).queuePush (.blocked index) (pcb.setState .blocked)).trace =
        .execToBlocked pcb.pid :: kernel.trace := by
    simp [Kernel.queuePush]
  rw [trace]
  exact simulates_semPost rfl ends

/-! ### `deadlocks.c` -/

/-- `finish_process` for the process of the message, whose PCB the handler has for itself. -/
theorem simulates_finishOwned (finished : kernel.finishProcess pcb.pid = some next)
    (ends : ending () ⟨next, [], owned, created, headers⟩) :
    (look (fun memory => (memory.pcb process).pid) >>= finishProcess).Simulates config
      ⟨kernel, [], (process, pcb) :: owned, created, headers⟩ ending := by
  refine simulates_bind (simulates_look (fun _ shows => by rw [shows.of_owned.2.1]) ?_)
  exact simulates_forget (simulates_finishProcess finished ends)

theorem simulates_handleWaitInterruption {resource : String}
    (handled : kernel.handleWaitInterruption pcb resource = some next)
    (ends : ending () ⟨next, [], owned, created, headers⟩) :
    (handleWaitInterruption process resource).Simulates config
      ⟨kernel, [], (process, pcb) :: owned, created, headers⟩ ending := by
  rw [Kernel.handleWaitInterruption] at handled
  refine simulates_bind (simulates_look (fun _ shows => by rw [shows.allResources]) ?_)
  cases valid : findResource kernel.allResources resource with
  | none =>
      rw [valid] at handled
      exact simulates_finishOwned handled ends
  | some name =>
      rw [valid] at handled
      refine simulates_bind (simulates_look
        (fun _ shows => by rw [shows.quantityResourceInstanceAvailable]) ?_)
      by_cases available : 0 < kernel.quantityResourceInstanceAvailable resource
      · simp only [Option.isNone_some, Bool.false_eq_true, if_false, if_pos available] at handled
        obtain rfl := Option.some.inj handled
        rw [if_pos (decide_eq_true available)]
        refine simulates_bind (simulates_modify (fun _ => rfl) ?_)
        refine simulates_bind (simulates_modify (fun _ => rfl) ?_)
        refine simulates_bind (simulates_modifyInstance _ _ ?_)
        refine simulates_log (.granted pcb.pid resource) rfl ?_
        exact simulates_sendToCpu _ ends
      · simp only [Option.isNone_some, Bool.false_eq_true, if_false, if_neg available] at handled
        rw [if_neg (by simpa using available)]
        refine simulates_bind (simulates_look
          (fun _ shows => shows.getQueueBlocked resource) ?_)
        exact simulates_forget (simulates_moveProcessFromExecToBlocked handled ends)

theorem simulates_handleSignalInterruption {resource : String}
    (handled : kernel.handleSignalInterruption pcb resource = some next)
    (ends : ending () ⟨next, [], owned, created, headers⟩) :
    (handleSignalInterruption process resource).Simulates config
      ⟨kernel, [], (process, pcb) :: owned, created, headers⟩ ending := by
  rw [Kernel.handleSignalInterruption] at handled
  refine simulates_bind (simulates_look (fun _ shows => by rw [shows.allResources]) ?_)
  cases valid : findResource kernel.allResources resource with
  | none =>
      rw [valid] at handled
      exact simulates_finishOwned handled ends
  | some name =>
      simp only [valid, Option.isNone_some, Bool.false_eq_true, if_false] at handled
      refine simulates_bind (simulates_look (fun _ shows => by rw [shows.of_owned.2.1]) ?_)
      cases retained : findResource pcb.resources resource with
      | none =>
          rw [retained] at handled
          exact simulates_finishOwned handled ends
      | some name =>
          rw [retained] at handled
          obtain rfl := Option.some.inj handled
          refine simulates_bind (simulates_modifyInstance _ _ ?_)
          refine simulates_bind (simulates_modify (fun _ => rfl) ?_)
          refine simulates_bind (simulates_modify (fun _ => rfl) ?_)
          refine simulates_log (.released pcb.pid resource) rfl ?_
          exact simulates_sendToCpu _ ends

/-! ### `handle_connection.c` -/

theorem simulates_handleInterrupt
    (ends : ending () ⟨kernel.handleInterrupt pcb, [], owned, created, headers⟩) :
    (handleInterrupt process).Simulates config
      ⟨kernel, [], (process, pcb) :: owned, created, headers⟩ ending := by
  refine simulates_bind (simulates_discard List.not_mem_nil fun _ => ?_)
  refine simulates_bind (simulates_semPost rfl ?_)
  refine simulates_bind (simulates_modify (fun _ => rfl) ?_)
  exact simulates_bind (simulates_pushLocked List.not_mem_nil (simulates_semPost rfl ends))

/-- `pthread_create` gives the PCB away. -/
theorem simulates_handleSleepInterruption {time : Int32}
    (ends : ending () ⟨kernel.handleSleepInterruption pcb time, [], (process, pcb) :: owned,
      created ++ [(process, time)], headers⟩) :
    (handleSleepInterruption process time).Simulates config
      ⟨kernel, [], (process, pcb) :: owned, created, headers⟩ ending := by
  refine simulates_bind (simulates_perform
    (fun _ shows => ⟨_, rfl, shows.createThread (process, time)⟩) ?_)
  refine Simulates.of_shows ?_ fun _ shown => shown.sleepThreads
    (kernel.sleepThreads ++ [{ process := pcb, sleepTime := time, phase := .starting }])
  exact simulates_semPost rfl ends

/-- `thread_sleep_process` after its `usleep`. -/
theorem simulates_afterSleep
    (ends : ending () ⟨(kernel.queuePush .ready
        { pcb with state := .ready, programCounter := pcb.programCounter + 1 }).semPost .processReady,
      [], owned, created, headers⟩) :
    (afterSleep process).Simulates config ⟨kernel, [], (process, pcb) :: owned, created, headers⟩
      ending := by
  refine simulates_bind (simulates_modify (fun _ => rfl) ?_)
  refine simulates_bind (simulates_modify (fun _ => rfl) ?_)
  exact simulates_bind (simulates_pushLocked List.not_mem_nil (simulates_semPost rfl ends))

/-- One turn of the loop of `handle_dispatch_connection`.  Only SLEEP leaves something to a thread. -/
theorem simulates_handleDispatchConnection {message : Message}
    (handled : kernel.handleDispatchConnection message = some next) :
    (handleDispatchConnection message).Simulates config ⟨kernel, [], owned, [], headers⟩
      fun _ snapshot =>
        (∀ time, message.request ≠ .sleep time) ∧
            snapshot = ⟨next, [], owned, [], headers⟩ ∨
          ∃ process time, message.request = .sleep time ∧
            snapshot = ⟨next, [], (process, message.pcb) :: owned, [(process, time)], headers⟩ := by
  refine simulates_log (.received message) rfl ?_
  refine simulates_bind (simulates_acquire .cpuDispatchConnection List.not_mem_nil ?_)
  refine simulates_bind (simulates_release _ List.not_mem_nil ?_)
  refine simulates_bind (simulates_allocate fun process => ?_)
  obtain ⟨request, pcb⟩ := message
  cases request with
  | finish => exact simulates_forget (simulates_finishProcess handled (.inl ⟨nofun, rfl⟩))
  | interrupt =>
      obtain rfl := Option.some.inj handled
      exact simulates_handleInterrupt (.inl ⟨nofun, rfl⟩)
  | wait resource => exact simulates_handleWaitInterruption handled (.inl ⟨nofun, rfl⟩)
  | signal resource => exact simulates_handleSignalInterruption handled (.inl ⟨nofun, rfl⟩)
  | sleep time =>
      obtain rfl := Option.some.inj handled
      exact simulates_handleSleepInterruption (.inr ⟨process, time, rfl, rfl⟩)

theorem simulates_receivePcbAndCreate {path : String} {quantum clientSocket : Int32}
    {ending : PcbPointer → Snapshot → Prop}
    (ends : ∀ process, ending process
      ⟨{ kernel with idToAssign := kernel.idToAssign + 1 }, held,
        (process, createPcb kernel.idToAssign path quantum clientSocket) :: owned, created,
        headers⟩) :
    (receivePcbAndCreate path quantum clientSocket).Simulates config
      ⟨kernel, held, owned, created, headers⟩ ending := by
  refine simulates_bind (simulates_look (fun _ shows => shows.idToAssign) ?_)
  refine simulates_bind (simulates_allocate fun process => ?_)
  refine simulates_bind (simulates_perform (fun _ shows => ⟨_, rfl, shows.nextId⟩) ?_)
  exact simulates_pure _ (ends process)

theorem simulates_modifyMultiprogrammingDegree {newDegree : Int32}
    (ends : ending ()
      ⟨kernel.modifyMultiprogrammingDegree newDegree, held, owned, created, headers⟩) :
    (modifyMultiprogrammingDegree newDegree).Simulates config
      ⟨kernel, held, owned, created, headers⟩ ending := by
  refine simulates_log (.newDegree newDegree.toInt) rfl ?_
  unfold modifyMultiprogrammingDegree
  unfold Kernel.modifyMultiprogrammingDegree at ends
  split at ends
  · rw [if_pos (by assumption)]
    exact simulates_perform (fun _ shows => ⟨_, rfl, shows.setSem rfl _⟩) ends
  · rw [if_neg (by assumption)]
    exact simulates_pure _ ends

/-- One turn of the loop of `handler_connection`. -/
theorem simulates_handlerConnection {command : Command}
    (handled : command.onKernel kernel = some next)
    (ends : ending () ⟨next, [], owned, created, headers⟩) :
    (handlerConnection command).Simulates config ⟨kernel, [], owned, created, headers⟩ ending := by
  cases command with
  | createProcess path quantum clientSocket =>
      obtain rfl := Option.some.inj handled
      exact simulates_bind (simulates_receivePcbAndCreate fun process =>
        simulates_moveProcessToNew ends)
  | finishProcess pid => exact simulates_finishProcess handled ends
  | startPlanning =>
      obtain ⟨waited, waits, posts⟩ := Option.bind_eq_some_iff.mp handled
      obtain rfl := Option.some.inj posts
      exact simulates_bind (simulates_semWait rfl waits
        (simulates_bind (simulates_semPost rfl (simulates_semPost rfl ends))))
  | stopPlanning =>
      obtain ⟨waited, waits, waitsAgain⟩ := Option.bind_eq_some_iff.mp handled
      exact simulates_bind (simulates_semPost rfl
        (simulates_bind (simulates_semWait rfl waits (simulates_semWait rfl waitsAgain ends))))
  | modifyMultiprogrammingDegree newDegree =>
      obtain rfl := Option.some.inj handled
      exact simulates_modifyMultiprogrammingDegree ends
  | showAllProcesses =>
      obtain rfl := Option.some.inj handled
      exact simulates_bind (simulates_buildAllQueuesInList (simulates_pure _ ends))

/-! ### `planners.c` -/

/-- `long_term_planner` after its last `sem_wait`. -/
theorem simulates_longTermPlannerAdmit (admitted : kernel.longTermPlannerAdmit = some next)
    (ends : ending () ⟨next, [], owned, created, headers⟩) :
    longTermPlannerAdmit.Simulates config ⟨kernel, [], owned, created, headers⟩ ending := by
  obtain ⟨waited, waits, rest⟩ := Option.bind_eq_some_iff.mp admitted
  obtain ⟨moved, moves, posts⟩ := Option.bind_eq_some_iff.mp rest
  obtain rfl := Option.some.inj posts
  exact simulates_bind (simulates_semWait rfl waits (simulates_bind
    (simulates_moveProcessToReady moves
      (simulates_bind (simulates_semPost rfl (simulates_semPost rfl ends))))))

/-- The dispatch of the short-term planners, from `sem_wait(&cpu_available)` on. -/
theorem simulates_shortTermPlannerDispatch
    (dispatched : kernel.shortTermPlannerDispatch config = some next)
    (ends : ending () ⟨next, [], owned, created, headers⟩) :
    (shortTermPlannerDispatch config).Simulates config ⟨kernel, [], owned, created, headers⟩
      ending := by
  obtain ⟨waited, waits, rest⟩ := Option.bind_eq_some_iff.mp dispatched
  have moves : ∀ {sorted : Kernel}, sorted.moveProcessToExec = some next →
      Code.Simulates config (do
        semWait .mutexProcessExec
        moveProcessToExec
        semPost .mutexProcessExec) ⟨sorted, [], owned, created, headers⟩ ending := fun moved =>
    simulates_bind (simulates_acquire .processExec List.not_mem_nil
      (simulates_bind (simulates_moveProcessToExec moved
        (simulates_release .processExec List.not_mem_nil ends))))
  refine simulates_bind (simulates_semWait rfl waits ?_)
  by_cases sorts : config.planningAlgorithm = "PRIORITIES"
  · rw [if_pos sorts] at rest
    rw [if_pos sorts]
    exact simulates_bind (simulates_sortQueue (moves rest))
  · rw [if_neg sorts] at rest
    rw [if_neg sorts]
    exact moves rest

/-- What `planning_with_round_robin` does after its `usleep`. -/
theorem simulates_interruptAfterQuantum
    (ends : ending () ⟨kernel.semPost .shortTermPlanner, [], owned, created, headers + 1⟩) :
    interruptAfterQuantum.Simulates config ⟨kernel, [], owned, created, headers⟩ ending := by
  refine simulates_bind (simulates_acquire .queueExec List.not_mem_nil ?_)
  refine simulates_bind (simulates_bind
    (simulates_acquire .cpuInterruptConnection (by decide) ?_))
  refine simulates_bind (simulates_perform (fun _ shows => ⟨_, rfl, shows.sendInterrupt⟩) ?_)
  refine simulates_release .cpuInterruptConnection (by decide) ?_
  exact simulates_bind (simulates_release .queueExec List.not_mem_nil
    (simulates_semPost rfl ends))

end Code

end OsSimulator
