/-
Module: OsSimulator.Proofs.Handlers
Purpose: The inversion lemmas of the message handlers and the planners: what one step can do, with
  the guards under which it does it.
Main exports: Kernel.DispatchEffect, Kernel.handleDispatchConnection_cases, Kernel.Shape,
  Kernel.getQueueBlocked_valid
-/
import OsSimulator.Proofs.Queues
import OsSimulator.Kernel.Serial

namespace OsSimulator

namespace CpuRequest

variable (pcb : Pcb) (kernel : Kernel)

/-- The handler calls `finish_process` on the pid of the message. -/
def CallsFinish : CpuRequest → Prop
  | .finish => True
  | .wait resource => resource ∉ kernel.allResources
  | .signal resource => resource ∉ kernel.allResources ∨ resource ∉ pcb.resources
  | .interrupt | .sleep _ => False

/-- A SIGNAL that the handler accepts. -/
def AcceptsSignal : CpuRequest → Prop
  | .signal resource => resource ∈ kernel.allResources ∧ resource ∈ pcb.resources
  | .finish | .interrupt | .wait _ | .sleep _ => False

/-- A WAIT that the handler grants. -/
def GrantsWait : CpuRequest → Prop
  | .wait resource =>
      resource ∈ kernel.allResources ∧ 0 < kernel.quantityResourceInstanceAvailable resource
  | .finish | .interrupt | .signal _ | .sleep _ => False

/-- A WAIT for which the handler blocks a process. -/
def BlocksOnWait : CpuRequest → Prop
  | .wait resource =>
      resource ∈ kernel.allResources ∧ ¬ 0 < kernel.quantityResourceInstanceAvailable resource
  | .finish | .interrupt | .signal _ | .sleep _ => False

instance : ∀ request : CpuRequest, Decidable (request.CallsFinish pcb kernel)
  | .finish => isTrue trivial
  | .wait _ => inferInstanceAs (Decidable (_ ∉ _))
  | .signal _ => inferInstanceAs (Decidable (_ ∉ _ ∨ _ ∉ _))
  | .interrupt | .sleep _ => isFalse id

instance : ∀ request : CpuRequest, Decidable (request.AcceptsSignal pcb kernel)
  | .signal _ => inferInstanceAs (Decidable (_ ∈ _ ∧ _ ∈ _))
  | .finish | .interrupt | .wait _ | .sleep _ => isFalse id

instance : ∀ request : CpuRequest, Decidable (request.GrantsWait kernel)
  | .wait _ => inferInstanceAs (Decidable (_ ∈ _ ∧ 0 < _))
  | .finish | .interrupt | .signal _ | .sleep _ => isFalse id

instance : ∀ request : CpuRequest, Decidable (request.BlocksOnWait kernel)
  | .wait _ => inferInstanceAs (Decidable (_ ∈ _ ∧ ¬ 0 < _))
  | .finish | .interrupt | .signal _ | .sleep _ => isFalse id

end CpuRequest

namespace Kernel

/-! ### The dispatch handler -/

/-- `move_process_from_exec_to_blocked` before its deadlock check, for `queue_exec` equal to
    `process :: rest`. -/
def pushBlocked (process : Pcb) (rest : List Pcb) (index : Nat) (kernel : Kernel) : Kernel :=
  ((((kernel.setQueue rest .exec).log (.execToBlocked process.pid)).semPost
    .cpuAvailable).queuePush (.blocked index) (process.setState .blocked)).semPost .processBlocked

@[simp] theorem pushBlocked_fields (process : Pcb) (rest : List Pcb) (index : Nat)
    (kernel : Kernel) :
    (kernel.pushBlocked process rest index).queueNew = kernel.queueNew ∧
      (kernel.pushBlocked process rest index).queueReady = kernel.queueReady ∧
      (kernel.pushBlocked process rest index).queueExec = rest ∧
      (kernel.pushBlocked process rest index).listOfQueueBlocked =
        kernel.listOfQueueBlocked.set index
          (kernel.queue (.blocked index) ++ [process.setState .blocked]) ∧
      (kernel.pushBlocked process rest index).allResources = kernel.allResources ∧
      (kernel.pushBlocked process rest index).allResourcesInstances =
        kernel.allResourcesInstances ∧
      (kernel.pushBlocked process rest index).idToAssign = kernel.idToAssign ∧
      (kernel.pushBlocked process rest index).sleepThreads = kernel.sleepThreads ∧
      (kernel.pushBlocked process rest index).cpuDispatchConnection =
        kernel.cpuDispatchConnection ∧
      (kernel.pushBlocked process rest index).trace =
        .execToBlocked process.pid :: kernel.trace := by
  simp [pushBlocked, queuePush, queue_blocked]

theorem pushBlocked_sem (process : Pcb) (rest : List Pcb) (index : Nat) (kernel : Kernel)
    (semaphore : Semaphore) :
    (kernel.pushBlocked process rest index).sem semaphore =
      if semaphore = .processBlocked then kernel.sem .processBlocked + 1
      else if semaphore = .cpuAvailable then kernel.sem .cpuAvailable + 1
      else kernel.sem semaphore := by
  simp [pushBlocked, queuePush]

/-- Everything that handling one CPU message can do. -/
inductive DispatchEffect (message : Message) (kernel next : Kernel) : Prop where
  | finishes (calls : message.request.CallsFinish message.pcb kernel)
      (finished : (kernel.log (.received message)).finishProcess message.pcb.pid = some next)
  | interrupts (requested : message.request = .interrupt)
      (result : next = (kernel.log (.received message)).handleInterrupt message.pcb)
  | grants (resource : String) (requested : message.request = .wait resource)
      (valid : resource ∈ kernel.allResources)
      (available : 0 < kernel.quantityResourceInstanceAvailable resource)
      (result : next =
        (((kernel.log (.received message)).removeResourceInstance resource).log
          (.granted message.pcb.pid resource)).sendToCpu .waitResponse
            { message.pcb with
              programCounter := message.pcb.programCounter + 1
              resources := message.pcb.resources ++ [resource] })
  | blocks (resource : String) (process : Pcb) (rest : List Pcb)
      (requested : message.request = .wait resource)
      (valid : resource ∈ kernel.allResources)
      (unavailable : ¬ 0 < kernel.quantityResourceInstanceAvailable resource)
      (head : kernel.queueExec = process :: rest) (lines : List KernelEvent)
      (kind : ∀ line ∈ lines, ∃ pid retained required, line = .deadlock pid retained required)
      (result : next =
        { (kernel.log (.received message)).pushBlocked process rest
            (kernel.getQueueBlocked resource) with
          trace := lines ++ .execToBlocked process.pid :: .received message :: kernel.trace })
  | releases (resource : String) (requested : message.request = .signal resource)
      (valid : resource ∈ kernel.allResources)
      (held : resource ∈ message.pcb.resources)
      (result : next =
        (((kernel.log (.received message)).addResourceInstance resource).log
          (.released message.pcb.pid resource)).sendToCpu .signalResponse
            { message.pcb with
              programCounter := message.pcb.programCounter + 1
              resources := message.pcb.resources.erase resource })
  | sleeps (time : Int32) (requested : message.request = .sleep time)
      (result : next =
        (kernel.log (.received message)).handleSleepInterruption message.pcb time)

/-- `move_process_from_exec_to_blocked` needs a process to pop; the deadlock check only logs. -/
theorem moveProcessFromExecToBlocked_cases {kernel next : Kernel} {index : Nat}
    (moved : kernel.moveProcessFromExecToBlocked index = some next) :
    ∃ process rest, kernel.queueExec = process :: rest ∧ ∃ lines,
      next = { kernel.pushBlocked process rest index with
        trace := lines ++ .execToBlocked process.pid :: kernel.trace } ∧
      ∀ line ∈ lines, ∃ pid retained required, line = .deadlock pid retained required := by
  unfold moveProcessFromExecToBlocked at moved
  split at moved
  · cases moved
  · rename_i process rest head
    obtain ⟨lines, checked, kind⟩ :=
      checkDeadlocks_eq (kernel.pushBlocked process rest index) (process.setState .blocked)
    refine ⟨process, rest, head, lines, ?_, kind⟩
    rw [(pushBlocked_fields process rest index kernel).2.2.2.2.2.2.2.2.2] at checked
    exact (Option.some.inj moved).symm.trans checked

/-- The inversion lemma of `handle_dispatch_connection`. -/
theorem handleDispatchConnection_cases {message : Message} {kernel next : Kernel}
    (handled : kernel.handleDispatchConnection message = some next) :
    DispatchEffect message kernel next := by
  unfold handleDispatchConnection at handled
  simp only at handled
  split at handled
  · rename_i requested
    exact .finishes (by simp [CpuRequest.CallsFinish, requested]) handled
  · rename_i requested
    exact .interrupts requested (Option.some.inj handled).symm
  · rename_i resource requested
    unfold handleWaitInterruption at handled
    split at handled
    · rename_i invalid
      exact .finishes
        (by simpa [CpuRequest.CallsFinish, requested] using findResource_isNone.mp invalid) handled
    · rename_i valid
      have member : resource ∈ kernel.allResources := by
        simpa using mt findResource_isNone.mpr valid
      split at handled
      · rename_i available
        exact .grants resource requested member available (Option.some.inj handled).symm
      · rename_i unavailable
        obtain ⟨process, rest, head, lines, result, kind⟩ :=
          moveProcessFromExecToBlocked_cases handled
        exact .blocks resource process rest requested member unavailable head lines kind result
  · rename_i resource requested
    unfold handleSignalInterruption at handled
    split at handled
    · rename_i invalid
      have missing : resource ∉ kernel.allResources := findResource_isNone.mp invalid
      exact .finishes (by simp [CpuRequest.CallsFinish, requested, missing]) handled
    · rename_i valid
      have member : resource ∈ kernel.allResources := by
        simpa using mt findResource_isNone.mpr valid
      split at handled
      · rename_i held
        exact .releases resource requested member (findResource_isSome.mp held)
          (Option.some.inj handled).symm
      · rename_i notHeld
        have missing : resource ∉ message.pcb.resources := mt findResource_isSome.mpr notHeld
        exact .finishes (by simp [CpuRequest.CallsFinish, requested, missing]) handled
  · rename_i time requested
    exact .sleeps time requested (Option.some.inj handled).symm

/-- A message that calls `finish_process` does nothing else. -/
theorem DispatchEffect.finishProcess_of_callsFinish {message : Message} {kernel next : Kernel}
    (effect : DispatchEffect message kernel next)
    (calls : message.request.CallsFinish message.pcb kernel) :
    (kernel.log (.received message)).finishProcess message.pcb.pid = some next := by
  cases effect with
  | finishes _ finished => exact finished
  | interrupts requested _ => simp [CpuRequest.CallsFinish, requested] at calls
  | grants _ requested valid _ _ => simp [CpuRequest.CallsFinish, requested, valid] at calls
  | blocks _ _ _ requested valid _ _ _ _ _ =>
      simp [CpuRequest.CallsFinish, requested, valid] at calls
  | releases _ requested valid held _ =>
      simp [CpuRequest.CallsFinish, requested, valid, held] at calls
  | sleeps _ requested _ => simp [CpuRequest.CallsFinish, requested] at calls

/-! ### The planners -/

/-- `sort_queue` permutes `queue_ready`. -/
theorem sortQueue_perm (config : KernelConfig) (kernel : Kernel) :
    (kernel.sortQueue config).queueReady.Perm kernel.queueReady := by
  simpa [sortQueue] using List.mergeSort_perm kernel.queueReady _

/-- The last segment of `long_term_planner` moves the head of `queue_new` to `queue_ready`. -/
theorem longTermPlannerAdmit_cases {kernel next : Kernel}
    (admitted : kernel.longTermPlannerAdmit = some next) :
    ∃ process rest, kernel.queueNew = process :: rest ∧ 0 < kernel.sem .processNew ∧
      next = ((((((kernel.semInit .processNew (kernel.sem .processNew - 1)).setQueue rest
        .new).log (.newToReady process.pid)).queuePush .ready (process.setState .ready)).semPost
          .processReady).semPost .longTermPlanner) := by
  simp only [longTermPlannerAdmit, Option.bind_eq_bind, Option.bind_eq_some_iff,
    semWait_eq_some] at admitted
  obtain ⟨_, ⟨positive, rfl⟩, middle, moved, result⟩ := admitted
  unfold moveProcessToReady at moved
  split at moved
  · cases moved
  · rename_i process rest head
    obtain rfl := Option.some.inj moved
    exact ⟨process, rest, by simpa using head, positive, (Option.some.inj result).symm⟩

/-- The last segment of the short-term planners takes the CPU's token and dispatches a process of
    `queue_ready`, the head of the queue unless it was sorted first. -/
theorem shortTermPlannerDispatch_cases {config : KernelConfig} {kernel next : Kernel}
    (dispatched : kernel.shortTermPlannerDispatch config = some next) :
    ∃ process rest, (process :: rest).Perm kernel.queueReady ∧ 0 < kernel.sem .cpuAvailable ∧
      next = ((((kernel.semInit .cpuAvailable (kernel.sem .cpuAvailable - 1)).setQueue rest
        .ready).queuePush .exec (process.setState .execution)).sendToCpu .executeProcess
          (process.setState .execution)) := by
  simp only [shortTermPlannerDispatch, Option.bind_eq_bind, Option.bind_eq_some_iff,
    semWait_eq_some] at dispatched
  obtain ⟨_, ⟨positive, rfl⟩, moved⟩ := dispatched
  split at moved
  · unfold moveProcessToExec at moved
    split at moved
    · cases moved
    · rename_i process rest head
      have perm := sortQueue_perm config
        (kernel.semInit .cpuAvailable (kernel.sem .cpuAvailable - 1))
      rw [head] at perm
      exact ⟨process, rest, by simpa using perm, positive, (Option.some.inj moved).symm⟩
  · unfold moveProcessToExec at moved
    split at moved
    · cases moved
    · rename_i process rest head
      have same : kernel.queueReady = process :: rest := by simpa using head
      exact ⟨process, rest, by rw [same], positive, (Option.some.inj moved).symm⟩

/-! ### The console -/

/-- `modify_multiprogramming_degree` logs the degree and, unless it is negative, sets the
    semaphore. -/
theorem modifyMultiprogrammingDegree_fields (kernel : Kernel) (newDegree : Int32) :
    (kernel.modifyMultiprogrammingDegree newDegree).queueNew = kernel.queueNew ∧
      (kernel.modifyMultiprogrammingDegree newDegree).queueReady = kernel.queueReady ∧
      (kernel.modifyMultiprogrammingDegree newDegree).queueExec = kernel.queueExec ∧
      (kernel.modifyMultiprogrammingDegree newDegree).listOfQueueBlocked =
        kernel.listOfQueueBlocked ∧
      (kernel.modifyMultiprogrammingDegree newDegree).allResources = kernel.allResources ∧
      (kernel.modifyMultiprogrammingDegree newDegree).allResourcesInstances =
        kernel.allResourcesInstances ∧
      (kernel.modifyMultiprogrammingDegree newDegree).idToAssign = kernel.idToAssign ∧
      (kernel.modifyMultiprogrammingDegree newDegree).sleepThreads = kernel.sleepThreads ∧
      (kernel.modifyMultiprogrammingDegree newDegree).cpuDispatchConnection =
        kernel.cpuDispatchConnection ∧
      (kernel.modifyMultiprogrammingDegree newDegree).trace =
        .newDegree newDegree.toInt :: kernel.trace ∧
      (kernel.modifyMultiprogrammingDegree newDegree).sem .multiprogrammingDegree =
        (if 0 ≤ newDegree then newDegree.toInt.toNat else kernel.sem .multiprogrammingDegree) ∧
      ∀ semaphore, semaphore ≠ .multiprogrammingDegree →
        (kernel.modifyMultiprogrammingDegree newDegree).sem semaphore = kernel.sem semaphore := by
  unfold modifyMultiprogrammingDegree
  split
  · simp
    intro semaphore other
    simp [other]
  · simp

/-! ### The shape of the resource lists -/

/-- The three lists of `deadlocks.c` keep the length and the names they were created with. -/
structure Shape (config : KernelConfig) (kernel : Kernel) : Prop where
  allResources : kernel.allResources = config.resources.map Prod.fst
  listOfQueueBlocked : kernel.listOfQueueBlocked.length = config.resources.length
  allResourcesInstances : kernel.allResourcesInstances.length = config.resources.length

/-- For a name that is configured, `get_queue_blocked` returns one of the queues, under that
    name. -/
theorem getQueueBlocked_valid {config : KernelConfig} {kernel : Kernel} {resource : String}
    (shape : kernel.Shape config) (valid : resource ∈ kernel.allResources) :
    kernel.getQueueBlocked resource < kernel.listOfQueueBlocked.length ∧
      kernel.allResources[kernel.getQueueBlocked resource]? = some resource := by
  obtain ⟨index, bound, same⟩ := List.getElem_of_mem valid
  have lengths : kernel.allResources.length = kernel.listOfQueueBlocked.length := by
    rw [shape.allResources, shape.listOfQueueBlocked, List.length_map]
  have member : index ∈ (List.range kernel.listOfQueueBlocked.length).filter fun index =>
      kernel.allResources[index]? == some resource := by
    simp [← lengths, bound, same]
  cases last : ((List.range kernel.listOfQueueBlocked.length).filter fun index =>
      kernel.allResources[index]? == some resource).getLast? with
  | none =>
      rw [List.getLast?_eq_none_iff] at last
      simp [last] at member
  | some chosen =>
      have inFilter := List.mem_of_getLast? last
      simp only [List.mem_filter, List.mem_range, beq_iff_eq] at inFilter
      have chosenEq : kernel.getQueueBlocked resource = chosen := by
        simp [getQueueBlocked, last]
      rw [chosenEq]
      exact inFilter

/-- The queue that `get_queue_blocked` selects is one of `list_of_queue_blocked`. -/
theorem getElem?_getQueueBlocked {config : KernelConfig} {kernel : Kernel} {resource : String}
    (shape : kernel.Shape config) (valid : resource ∈ kernel.allResources) :
    kernel.listOfQueueBlocked[kernel.getQueueBlocked resource]? =
      some (kernel.queue (.blocked (kernel.getQueueBlocked resource))) := by
  have bound := (getQueueBlocked_valid shape valid).1
  simp [queue_blocked, bound]

/-- Pushing onto one of the blocked queues adds exactly the process that blocks. -/
theorem weighAll_pushBlocked {kernel : Kernel} (process : Pcb) (rest : List Pcb) {index : Nat}
    (at_index : kernel.listOfQueueBlocked[index]? = some (kernel.queue (.blocked index)))
    {weight : Pcb → Nat} (blind : StateBlind weight) :
    weighAll weight (kernel.pushBlocked process rest index).listOfQueueBlocked =
      weighAll weight kernel.listOfQueueBlocked + weight process := by
  have totals := weighAll_set weight (kernel.queue (.blocked index) ++ [process.setState .blocked])
    at_index
  simp only [weigh_append, weigh_cons, weigh_nil, blind process .blocked] at totals
  simp only [pushBlocked_fields]
  omega

theorem mem_pushBlocked {kernel : Kernel} {process other : Pcb} {rest : List Pcb} {index : Nat}
    (at_index : kernel.listOfQueueBlocked[index]? = some (kernel.queue (.blocked index)))
    (member : other ∈ (kernel.pushBlocked process rest index).listOfQueueBlocked.flatten) :
    other ∈ kernel.listOfQueueBlocked.flatten ∨ other = process.setState .blocked := by
  obtain ⟨queue, inList, inQueue⟩ := List.mem_flatten.mp member
  rw [(pushBlocked_fields process rest index kernel).2.2.2.1] at inList
  rcases List.mem_or_eq_of_mem_set inList with old | rfl
  · exact .inl (List.mem_flatten.mpr ⟨queue, old, inQueue⟩)
  · rcases List.mem_append.mp inQueue with old | fresh
    · exact .inl (List.mem_flatten.mpr ⟨_, List.mem_of_getElem? at_index, old⟩)
    · exact .inr (by simpa using fresh)

theorem length_modifyResourceInstance (kernel : Kernel) (resource : String) (value : Int) :
    (kernel.modifyResourceInstance resource value).allResourcesInstances.length =
      kernel.allResourcesInstances.length := by
  unfold modifyResourceInstance
  split <;> simp

theorem length_freeResourcesRetained (kernel : Kernel) (process : Pcb) :
    (kernel.freeResourcesRetained process).allResourcesInstances.length =
      kernel.allResourcesInstances.length := by
  unfold freeResourcesRetained addResourceInstances
  induction process.resources generalizing kernel with
  | nil => rfl
  | cons resource rest ih =>
      rw [List.foldl_cons, ih, addResourceInstance, length_modifyResourceInstance]

theorem length_releaseAndRemove (kernel : Kernel) (id : QueueId) (process : Pcb) :
    (kernel.releaseAndRemove id process).listOfQueueBlocked.length =
      kernel.listOfQueueBlocked.length := by
  cases id <;> simp [releaseAndRemove]

theorem resourceIndex_congr {kernel next : Kernel}
    (same : next.allResources = kernel.allResources) (resource : String) :
    next.resourceIndex resource = kernel.resourceIndex resource := by
  rw [resourceIndex, same, resourceIndex]

/-- A name stands at its `resourceIndex`. -/
theorem getElem?_resourceIndex {kernel : Kernel} {resource : String} {index : Nat}
    (found : kernel.resourceIndex resource = some index) :
    kernel.allResources[index]? = some resource := by
  obtain ⟨bound, passes, _⟩ := List.findIdx?_eq_some_iff_getElem.mp found
  rw [List.getElem?_eq_getElem bound]
  exact congrArg some (by simpa using passes)

theorem resourceIndex_of_valid {kernel : Kernel} {resource : String}
    (valid : resource ∈ kernel.allResources) :
    ∃ index, kernel.resourceIndex resource = some index := by
  cases found : kernel.resourceIndex resource with
  | some index => exact ⟨index, rfl⟩
  | none =>
      have absent := List.findIdx?_eq_none_iff.mp found resource valid
      simp at absent

theorem quantityResourceInstanceAvailable_congr {kernel next : Kernel}
    (names : next.allResources = kernel.allResources)
    (instances : next.allResourcesInstances = kernel.allResourcesInstances) (resource : String) :
    next.quantityResourceInstanceAvailable resource =
      kernel.quantityResourceInstanceAvailable resource := by
  rw [quantityResourceInstanceAvailable, resourceIndex_congr names, instances,
    quantityResourceInstanceAvailable]

/-- `_modify_resource_instance` changes the entry that the name is found at. -/
theorem getD_modifyResourceInstance {config : KernelConfig} {kernel : Kernel}
    (shape : kernel.Shape config) (resource : String) (value : Int) (index : Nat) :
    (kernel.modifyResourceInstance resource value).allResourcesInstances.getD index 0 =
      kernel.allResourcesInstances.getD index 0 +
        if kernel.resourceIndex resource = some index then value else 0 := by
  unfold modifyResourceInstance
  cases found : kernel.resourceIndex resource with
  | none => simp
  | some position =>
      obtain ⟨bound, _⟩ := List.findIdx?_eq_some_iff_getElem.mp found
      have inside : position < kernel.allResourcesInstances.length := by
        rw [shape.allResourcesInstances]
        simpa [shape.allResources] using bound
      simp only [List.getD_eq_getElem?_getD, List.getElem?_modify, Option.some.injEq]
      by_cases same : position = index
      · subst same
        simp [List.getElem?_eq_getElem inside]
      · simp [same]

/-- `free_resources_retained` gives every entry back what the PCB lists under its name. -/
theorem getD_freeResourcesRetained {config : KernelConfig} {kernel : Kernel}
    (shape : kernel.Shape config) (process : Pcb) (index : Nat) :
    (kernel.freeResourcesRetained process).allResourcesInstances.getD index 0 =
      kernel.allResourcesInstances.getD index 0 +
        (process.resources.countP fun resource =>
          decide (kernel.resourceIndex resource = some index) : Nat) := by
  unfold freeResourcesRetained addResourceInstances
  induction process.resources generalizing kernel with
  | nil => simp
  | cons resource rest ih =>
      have shaped : (kernel.addResourceInstance resource).Shape config :=
        ⟨by simpa [addResourceInstance] using shape.allResources,
          by simpa [addResourceInstance] using shape.listOfQueueBlocked,
          by simpa [addResourceInstance, length_modifyResourceInstance]
            using shape.allResourcesInstances⟩
      have sameIndex : ∀ name, (kernel.addResourceInstance resource).resourceIndex name =
          kernel.resourceIndex name :=
        resourceIndex_congr (by simp [addResourceInstance])
      rw [List.foldl_cons, ih shaped]
      simp only [addResourceInstance, getD_modifyResourceInstance shape, List.countP_cons]
      simp only [addResourceInstance] at sameIndex
      simp only [sameIndex, decide_eq_true_eq]
      split <;> push_cast <;> omega

namespace Shape

variable {config : KernelConfig} {kernel next : Kernel}

theorem init (config : KernelConfig) : (Kernel.init config).Shape config where
  allResources := rfl
  listOfQueueBlocked := by simp [Kernel.init]
  allResourcesInstances := by simp [Kernel.init]

theorem congr (shape : kernel.Shape config) (resources : next.allResources = kernel.allResources)
    (blocked : next.listOfQueueBlocked.length = kernel.listOfQueueBlocked.length)
    (instances : next.allResourcesInstances.length = kernel.allResourcesInstances.length) :
    next.Shape config where
  allResources := resources.trans shape.allResources
  listOfQueueBlocked := blocked.trans shape.listOfQueueBlocked
  allResourcesInstances := instances.trans shape.allResourcesInstances

theorem finishProcess {pid : UInt32} (shape : kernel.Shape config)
    (finished : kernel.finishProcess pid = some next) : next.Shape config := by
  rcases finishProcess_cases finished with ⟨_, rfl⟩ | ⟨id, process, woken, middle, finishes⟩
  · exact shape.congr (by simp) (by simp) (by simp)
  · obtain ⟨_, _, _, blocked, resources, instances, _⟩ := finishes.fields
    refine shape.congr resources ?_ ?_
    · rw [blocked, finishes.wakes.length_blocked, length_releaseAndRemove]
    · rw [instances, length_freeResourcesRetained]

theorem dispatchEffect {message : Message} (shape : kernel.Shape config)
    (effect : DispatchEffect message kernel next) : next.Shape config := by
  cases effect with
  | finishes _ finished => exact (shape.congr (by simp) (by simp) (by simp)).finishProcess finished
  | interrupts _ result =>
      subst result
      exact shape.congr (by simp [handleInterrupt, queuePush])
        (by simp [handleInterrupt, queuePush]) (by simp [handleInterrupt, queuePush])
  | grants resource _ _ _ result =>
      subst result
      exact shape.congr (by simp [removeResourceInstance]) (by simp [removeResourceInstance])
        (by simp [removeResourceInstance, length_modifyResourceInstance])
  | blocks _ _ _ _ _ _ _ _ _ result =>
      subst result
      exact shape.congr (by simp) (by simp) (by simp)
  | releases resource _ _ _ result =>
      subst result
      exact shape.congr (by simp [addResourceInstance]) (by simp [addResourceInstance])
        (by simp [addResourceInstance, length_modifyResourceInstance])
  | sleeps _ _ result =>
      subst result
      exact shape.congr (by simp [handleSleepInterruption]) (by simp [handleSleepInterruption])
        (by simp [handleSleepInterruption])

end Shape

end Kernel

end OsSimulator
