/-
Module: OsSimulator.Proofs.WakeUp
Purpose: When an instance that becomes available wakes a process that waits for it.  The finish of a
  process runs the wake-up loop, which takes at least the head of every blocked queue whose resource
  is available; `handle_signal_interruption` does not run it.
Main exports: Kernel.WokenFrom, System.Finishing, System.HandlesAcceptedSignal,
  raise_wakes_iff, signal_wakes_nobody
-/
import OsSimulator.Proofs.Steps

namespace OsSimulator

open Transition

namespace Kernel

/-! ### What the wake-up loop moves -/

/-- The events that were logged on the way from `before` to `after`. -/
def newLines (before after : Kernel) : List KernelEvent :=
  after.trace.take (after.trace.length - before.trace.length)

theorem newLines_eq {before after : Kernel} {lines : List KernelEvent}
    (grown : after.trace = lines ++ before.trace) : newLines before after = lines := by
  simp [newLines, grown]

/-- A process that was blocked in the queue `index` has been moved to `queue_ready`. -/
def WokenFrom (index : Nat) (before after : Kernel) : Prop :=
  ∃ process ∈ before.queue (.blocked index),
    .blockedToReady process.pid index ∈ newLines before after ∧
      process.setState .ready ∈ after.queueReady

instance (index : Nat) (before after : Kernel) : Decidable (WokenFrom index before after) :=
  inferInstanceAs (Decidable (∃ process ∈ _, _))

theorem queue_wakeLoop {index other : Nat} (different : index ≠ other) {fuel position : Nat}
    {available : Int} {kernel next : Kernel}
    (ran : kernel.wakeLoop index available fuel position = some next) :
    next.queue (.blocked other) = kernel.queue (.blocked other) := by
  induction fuel generalizing position kernel with
  | zero =>
      obtain rfl : kernel = next := by simpa [wakeLoop] using ran
      rfl
  | succ fuel ih =>
      rw [wakeLoop] at ran
      split at ran
      · obtain ⟨middle, moved, rest⟩ := Option.bind_eq_some_iff.mp ran
        obtain ⟨process, _, _, _, blocked⟩ := moveProcessFromBlockToReady_wakes moved
        rw [ih rest]
        simp [queue_blocked, blocked, List.getElem?_set_ne different]
      · obtain rfl : kernel = next := by simpa using ran
        rfl

/-- Waking processes of one queue leaves the other blocked queues alone. -/
theorem queue_wakeQueue {kernel next : Kernel} {index other : Nat} (different : index ≠ other)
    (ran : kernel.wakeQueue index = some next) :
    next.queue (.blocked other) = kernel.queue (.blocked other) := by
  unfold wakeQueue at ran
  simp only at ran
  split at ran
  · exact queue_wakeLoop different ran
  · obtain rfl : kernel = next := by simpa using ran
    rfl

theorem wakeLoop_lines {index fuel position : Nat} {available : Int} {kernel next : Kernel}
    (ran : kernel.wakeLoop index available fuel position = some next) :
    ∃ lines, next.trace = lines ++ kernel.trace ∧
      ∀ pid other, .blockedToReady pid other ∈ lines → other = index := by
  induction fuel generalizing position kernel with
  | zero =>
      obtain rfl : kernel = next := by simpa [wakeLoop] using ran
      exact ⟨[], by simp⟩
  | succ fuel ih =>
      rw [wakeLoop] at ran
      split at ran
      · obtain ⟨middle, moved, rest⟩ := Option.bind_eq_some_iff.mp ran
        obtain ⟨process, _, _, one, _⟩ := moveProcessFromBlockToReady_wakes moved
        obtain ⟨lines, grown, only⟩ := ih rest
        refine ⟨lines ++ [.blockedToReady process.pid index], by simp [grown, one], ?_⟩
        intro pid other member
        rcases List.mem_append.mp member with later | first
        · exact only pid other later
        · obtain ⟨_, same⟩ : pid = process.pid ∧ other = index := by simpa using first
          exact same
      · obtain rfl : kernel = next := by simpa using ran
        exact ⟨[], by simp⟩

/-- Every line about the queue `index` needs an available instance of its resource. -/
theorem wakeQueue_lines {kernel next : Kernel} {index : Nat}
    (ran : kernel.wakeQueue index = some next) :
    ∃ lines, next.trace = lines ++ kernel.trace ∧
      ∀ pid other, .blockedToReady pid other ∈ lines →
        0 < kernel.allResourcesInstances.getD other 0 := by
  unfold wakeQueue at ran
  simp only at ran
  split at ran
  · rename_i positive
    obtain ⟨lines, grown, only⟩ := wakeLoop_lines ran
    refine ⟨lines, grown, fun pid other member => ?_⟩
    rw [only pid other member]
    exact positive.2
  · obtain rfl : kernel = next := by simpa using ran
    exact ⟨[], by simp⟩

/-- If the resource of a blocked queue is available, its turn of the loop moves the head. -/
theorem wakeQueue_moves_head {kernel next : Kernel} {index : Nat} {process : Pcb} {rest : List Pcb}
    (head : kernel.queue (.blocked index) = process :: rest)
    (available : 0 < kernel.allResourcesInstances.getD index 0)
    (ran : kernel.wakeQueue index = some next) :
    process.setState .ready ∈ next.queueReady ∧
      ∃ lines, next.trace = lines ++ kernel.trace ∧
        .blockedToReady process.pid index ∈ lines := by
  have turn : 0 < (kernel.queue (.blocked index)).length ∧
      0 < kernel.allResourcesInstances.getD index 0 := ⟨by simp [head], available⟩
  rw [wakeQueue, if_pos turn] at ran
  have fuel : (kernel.queue (.blocked index)).length = rest.length + 1 := by simp [head]
  have first : (0 : Int) <
      getMinimun (kernel.allResourcesInstances.getD index 0)
        (kernel.queue (.blocked index)).length := by
    unfold getMinimun
    split <;> omega
  rw [fuel, wakeLoop, if_pos (by simpa using first)] at ran
  obtain ⟨middle, moved, later⟩ := Option.bind_eq_some_iff.mp ran
  obtain ⟨found, at_zero, wakes, trace, _⟩ := moveProcessFromBlockToReady_wakes moved
  obtain rfl : process = found := by simpa [head] using at_zero
  obtain ⟨woken, rest⟩ := wakeLoop_wakes later
  obtain ⟨lines, grown, _⟩ := rest.trace
  refine ⟨?_, lines ++ [.blockedToReady process.pid index], by simp [grown, trace], by simp⟩
  rw [rest.queueReady, wakes.queueReady]
  simp

/-- The whole loop moves the head of every blocked queue whose resource is available. -/
theorem wakeQueues_move_head {indices : List Nat} {kernel next : Kernel} {index : Nat}
    {process : Pcb} {rest : List Pcb} (member : index ∈ indices)
    (head : kernel.queue (.blocked index) = process :: rest)
    (available : 0 < kernel.allResourcesInstances.getD index 0)
    (ran : indices.foldlM wakeQueue kernel = some next) :
    process.setState .ready ∈ next.queueReady ∧
      ∃ lines, next.trace = lines ++ kernel.trace ∧
        .blockedToReady process.pid index ∈ lines := by
  induction indices generalizing kernel with
  | nil => simp at member
  | cons first indices ih =>
      rw [List.foldlM_cons] at ran
      obtain ⟨middle, ranOne, ranRest⟩ := Option.bind_eq_some_iff.mp ran
      obtain ⟨_, wakesOne⟩ := wakeQueue_wakes ranOne
      obtain ⟨linesOne, grownOne, _⟩ := wakesOne.trace
      by_cases same : first = index
      · subst same
        obtain ⟨ready, lines, grown, line⟩ := wakeQueue_moves_head head available ranOne
        obtain ⟨_, wakesRest⟩ := wakeQueues_wakes ranRest
        obtain ⟨linesRest, grownRest, _⟩ := wakesRest.trace
        refine ⟨?_, linesRest ++ lines, by simp [grownRest, grown], by simp [line]⟩
        rw [wakesRest.queueReady]
        exact List.mem_append_left _ ready
      · have inRest : index ∈ indices := by
          simpa [Ne.symm same] using member
        obtain ⟨ready, lines, grown, line⟩ := ih inRest
          (by rw [queue_wakeQueue same ranOne, head])
          (by rw [wakesOne.allResourcesInstances]; exact available) ranRest
        exact ⟨ready, lines ++ linesOne, by simp [grown, grownOne], by simp [line]⟩

/-- A queue whose resource is not available gives no line. -/
theorem wakeQueues_lines {indices : List Nat} {kernel next : Kernel}
    (ran : indices.foldlM wakeQueue kernel = some next) :
    ∃ lines, next.trace = lines ++ kernel.trace ∧
      ∀ pid index, .blockedToReady pid index ∈ lines →
        0 < kernel.allResourcesInstances.getD index 0 := by
  induction indices generalizing kernel with
  | nil =>
      obtain rfl : kernel = next := by simpa using ran
      exact ⟨[], by simp⟩
  | cons first indices ih =>
      rw [List.foldlM_cons] at ran
      obtain ⟨middle, ranOne, ranRest⟩ := Option.bind_eq_some_iff.mp ran
      obtain ⟨_, wakesOne⟩ := wakeQueue_wakes ranOne
      obtain ⟨linesOne, grownOne, onlyOne⟩ := wakeQueue_lines ranOne
      obtain ⟨lines, grown, only⟩ := ih ranRest
      refine ⟨lines ++ linesOne, by simp [grown, grownOne], ?_⟩
      intro pid index member
      rcases List.mem_append.mp member with later | earlier
      · rw [← wakesOne.allResourcesInstances]
        exact only pid index later
      · exact onlyOne pid index earlier

/-! ### Finishing a process -/

namespace Finishes

variable {pid : UInt32} {kernel next middle : Kernel} {id : QueueId} {process : Pcb}
  {woken : List Pcb}

theorem trace_middle (finishes : Finishes pid kernel next id process woken middle) :
    next.trace =
      .sentToMemory .finishProcess (process.setState .exit) :: .finished process.pid ::
        middle.trace := by
  obtain ⟨_, _, _, _, _, _, _, _, _, same⟩ := updateQueueSemaphores_fields finishes.updated
  simpa [sendToMemory] using same

theorem trace_lines (finishes : Finishes pid kernel next id process woken middle)
    {lines : List KernelEvent}
    (grown : middle.trace = lines ++ (kernel.releaseAndRemove id process).trace) :
    next.trace =
      (.sentToMemory .finishProcess (process.setState .exit) :: .finished process.pid :: lines) ++
        kernel.trace := by
  rw [finishes.trace_middle, grown]
  simp

theorem queueReady_middle (finishes : Finishes pid kernel next id process woken middle) :
    next.queueReady = middle.queueReady := by
  obtain ⟨_, same, _⟩ := updateQueueSemaphores_fields finishes.updated
  simpa [sendToMemory] using same

/-- Another process that is blocked stays in its queue when `process` is taken out, and the queue
    loses no other element. -/
theorem queue_releaseAndRemove (finishes : Finishes pid kernel next id process woken middle)
    {index : Nat} {other : Pcb} (waiting : other ∈ kernel.queue (.blocked index))
    (another : other.pid ≠ pid) :
    ∃ head rest, (kernel.releaseAndRemove id process).queue (.blocked index) = head :: rest ∧
      head ∈ kernel.queue (.blocked index) := by
  have stays : other ∈ (kernel.releaseAndRemove id process).queue (.blocked index) ∧
      ∀ element ∈ (kernel.releaseAndRemove id process).queue (.blocked index),
        element ∈ kernel.queue (.blocked index) := by
    by_cases same : id = .blocked index
    · subst same
      have at_index := (findInAllQueues_eq_some finishes.found).2 index rfl
      have inside : index < kernel.listOfQueueBlocked.length :=
        (List.getElem?_eq_some_iff.mp at_index).1
      have removed : (kernel.releaseAndRemove (.blocked index) process).queue (.blocked index) =
          (kernel.queue (.blocked index)).eraseP (·.pid == process.pid) := by
        rw [queue_blocked, releaseAndRemove]
        simp [queue_freeResourcesRetained, inside]
      rw [removed]
      refine ⟨?_, fun element member => List.mem_of_mem_eraseP member⟩
      refine (List.mem_eraseP_of_neg ?_).mpr waiting
      simpa [finishes.pid_eq] using another
    · have unchanged : (kernel.releaseAndRemove id process).queue (.blocked index) =
          kernel.queue (.blocked index) := by
        cases id with
        | blocked position =>
            have different : position ≠ index := by simpa using same
            simp [queue_blocked, releaseAndRemove, List.getElem?_set_ne different]
        | _ => simp [queue_blocked, releaseAndRemove]
      rw [unchanged]
      exact ⟨waiting, fun _ member => member⟩
  obtain ⟨member, subset⟩ := stays
  obtain ⟨head, rest, split⟩ := List.exists_cons_of_ne_nil (List.ne_nil_of_mem member)
  exact ⟨head, rest, split, subset head (by simp [split])⟩

/-- Where another process waits for a resource that is available after the release, one that waits
    is woken. -/
theorem wokenFrom (finishes : Finishes pid kernel next id process woken middle) {index : Nat}
    {other : Pcb} (waiting : other ∈ kernel.queue (.blocked index)) (another : other.pid ≠ pid)
    (available : 0 < next.allResourcesInstances.getD index 0) : WokenFrom index kernel next := by
  obtain ⟨head, rest, split, member⟩ := finishes.queue_releaseAndRemove waiting another
  have inside : index ∈ List.range (kernel.releaseAndRemove id process).listOfQueueBlocked.length := by
    rw [List.mem_range]
    by_contra outside
    rw [queue_blocked, List.getD_eq_getElem?_getD, List.getElem?_eq_none (by omega)] at split
    simp at split
  obtain ⟨_, _, _, _, _, instances, _⟩ := finishes.fields
  rw [instances] at available
  obtain ⟨ready, lines, grown, line⟩ :=
    wakeQueues_move_head inside split (by simpa using available) finishes.ran
  refine ⟨head, member, ?_, ?_⟩
  · rw [newLines_eq (finishes.trace_lines grown)]
    simp [line]
  · rw [finishes.queueReady_middle]
    exact ready

/-- Where the resource is not available after the release, nobody is woken. -/
theorem available_of_wokenFrom (finishes : Finishes pid kernel next id process woken middle)
    {index : Nat} (moved : WokenFrom index kernel next) :
    0 < next.allResourcesInstances.getD index 0 := by
  obtain ⟨waiter, _, line, _⟩ := moved
  obtain ⟨lines, grown, only⟩ := wakeQueues_lines finishes.ran
  rw [newLines_eq (finishes.trace_lines grown)] at line
  obtain ⟨_, _, _, _, _, instances, _⟩ := finishes.fields
  rw [instances]
  simpa using only waiter.pid index (by simpa using line)

end Finishes

/-- A line that is no wake-up does not count. -/
theorem wokenFrom_log {index : Nat} {kernel next : Kernel} {message : Message}
    {lines : List KernelEvent}
    (grown : next.trace = lines ++ (kernel.log (.received message)).trace) :
    WokenFrom index (kernel.log (.received message)) next ↔ WokenFrom index kernel next := by
  have before : newLines kernel next = lines ++ [.received message] :=
    newLines_eq (by simp [grown])
  simp [WokenFrom, newLines_eq grown, before]

/-- With the queue that `get_queue_blocked` selects for a resource: it holds the processes blocked
    on it. -/
def blockedOn (kernel : Kernel) (resource : String) : List Pcb :=
  kernel.queue (.blocked (kernel.getQueueBlocked resource))

/-- The count of a resource is kept at the first entry with its name and its blocked processes at
    the last one: the two agree, or the last entry has an instance of its own. -/
def WakesReleased (kernel : Kernel) (resource : String) : Prop :=
  kernel.resourceIndex resource = some (kernel.getQueueBlocked resource) ∨
    0 < kernel.allResourcesInstances.getD (kernel.getQueueBlocked resource) 0

instance (kernel : Kernel) (resource : String) : Decidable (kernel.WakesReleased resource) :=
  inferInstanceAs (Decidable (_ ∨ _))

/-- A release that raises a resource from 0 makes the entry of its blocked queue available exactly
    when the loop is able to see it. -/
theorem available_iff_wakesReleased {config : KernelConfig} {kernel next : Kernel}
    (shape : kernel.Shape config) {resource : String} (valid : resource ∈ kernel.allResources)
    {process : Pcb} (names : next.allResources = kernel.allResources)
    (released : next.allResourcesInstances =
      (kernel.freeResourcesRetained process).allResourcesInstances)
    (after : 0 < next.quantityResourceInstanceAvailable resource) :
    0 < next.allResourcesInstances.getD (kernel.getQueueBlocked resource) 0 ↔
      kernel.WakesReleased resource := by
  obtain ⟨first, found⟩ := resourceIndex_of_valid valid
  have last := (getQueueBlocked_valid shape valid).2
  rw [quantityResourceInstanceAvailable, resourceIndex_congr names, found] at after
  by_cases same : first = kernel.getQueueBlocked resource
  · exact ⟨fun _ => .inl (same ▸ found), fun _ => same ▸ after⟩
  · have unseen : ∀ name, kernel.resourceIndex name ≠ some (kernel.getQueueBlocked resource) := by
      intro name at_last
      have sameName := (getElem?_resourceIndex at_last).symm.trans last
      obtain rfl := Option.some.inj sameName
      exact same (Option.some.inj (found.symm.trans at_last))
    rw [released, getD_freeResourcesRetained shape]
    simp [WakesReleased, unseen]

/-- A finish that raises a resource from 0 wakes a process that waits for it exactly when the loop
    is able to see the release. -/
theorem wokenFrom_finishProcess {config : KernelConfig} {kernel next : Kernel} {pid : UInt32}
    (shape : kernel.Shape config) (finished : kernel.finishProcess pid = some next)
    {resource : String} (valid : resource ∈ kernel.allResources)
    (before : kernel.quantityResourceInstanceAvailable resource = 0)
    (after : 0 < next.quantityResourceInstanceAvailable resource)
    (waiting : ∃ process ∈ kernel.blockedOn resource, process.pid ≠ pid) :
    WokenFrom (kernel.getQueueBlocked resource) kernel next ↔ kernel.WakesReleased resource := by
  rcases finishProcess_cases finished with ⟨_, rfl⟩ | ⟨id, process, woken, middle, finishes⟩
  · have same : (kernel.log (.notFound pid)).quantityResourceInstanceAvailable resource =
        kernel.quantityResourceInstanceAvailable resource :=
      quantityResourceInstanceAvailable_congr (by simp) (by simp) resource
    omega
  · obtain ⟨other, member, another⟩ := waiting
    obtain ⟨_, _, _, _, names, instances, _⟩ := finishes.fields
    rw [← available_iff_wakesReleased shape valid names instances after]
    exact ⟨finishes.available_of_wokenFrom, finishes.wokenFrom member another⟩

/-- What one CPU message can do for the processes blocked on a resource that it raises from 0. -/
theorem wokenFrom_dispatchEffect {config : KernelConfig} {kernel next : Kernel} {message : Message}
    (shape : kernel.Shape config) (effect : DispatchEffect message kernel next)
    {resource : String} (valid : resource ∈ kernel.allResources)
    (before : kernel.quantityResourceInstanceAvailable resource = 0)
    (after : 0 < next.quantityResourceInstanceAvailable resource)
    (waiting : ∃ process ∈ kernel.blockedOn resource,
      ¬ (message.request.CallsFinish message.pcb kernel ∧ message.pcb.pid = process.pid)) :
    WokenFrom (kernel.getQueueBlocked resource) kernel next ↔
      ¬ message.request.AcceptsSignal message.pcb kernel ∧ kernel.WakesReleased resource := by
  have unraised : next.allResources = kernel.allResources →
      next.allResourcesInstances ≠ kernel.allResourcesInstances := by
    intro names instances
    rw [quantityResourceInstanceAvailable_congr names instances] at after
    omega
  have shaped : (kernel.log (.received message)).Shape config :=
    shape.congr (by simp) (by simp) (by simp)
  cases effect with
  | finishes calls finished =>
      obtain ⟨process, member, another⟩ := waiting
      have notAccepted : ¬ message.request.AcceptsSignal message.pcb kernel := by
        cases requested : message.request <;>
          simp_all [CpuRequest.AcceptsSignal, CpuRequest.CallsFinish]
        exact fun known => calls.resolve_left (not_not_intro known)
      have moved : WokenFrom (kernel.getQueueBlocked resource) (kernel.log (.received message)) next ↔
          kernel.WakesReleased resource :=
        wokenFrom_finishProcess shaped finished valid before after
          ⟨process, member, fun same => another ⟨calls, same.symm⟩⟩
      obtain ⟨lines, grown⟩ := trace_finishProcess finished
      rw [← wokenFrom_log grown]
      simpa [notAccepted] using moved
  | interrupts _ result =>
      subst result
      exact absurd (by simp [handleInterrupt, queuePush])
        (unraised (by simp [handleInterrupt, queuePush]))
  | grants taken _ _ _ result =>
      obtain ⟨first, found⟩ := resourceIndex_of_valid valid
      rw [quantityResourceInstanceAvailable, found] at before
      have sameIndex : next.resourceIndex resource = some first :=
        (resourceIndex_congr (by simp [result, removeResourceInstance]) resource).trans found
      rw [quantityResourceInstanceAvailable, sameIndex, result] at after
      have lowered := getD_modifyResourceInstance shaped taken (-1) first
      simp only [sendToCpu_fields, log_fields, removeResourceInstance] at after lowered before
      rw [lowered, before] at after
      split at after <;> omega
  | blocks _ _ _ _ _ _ _ _ _ result =>
      subst result
      exact absurd (by simp) (unraised (by simp))
  | releases given requested known held result =>
      have accepted : message.request.AcceptsSignal message.pcb kernel := by
        rw [requested]
        exact ⟨known, held⟩
      obtain ⟨answer, grown⟩ : ∃ answer, next.trace =
          [.sentToCpu .signalResponse answer, .released message.pcb.pid given,
            .received message] ++ kernel.trace :=
        ⟨{ message.pcb with
            programCounter := message.pcb.programCounter + 1
            resources := message.pcb.resources.erase given }, by
          simp [result, addResourceInstance]⟩
      simp [WokenFrom, newLines_eq grown, accepted]
  | sleeps _ _ result =>
      subst result
      exact absurd (by simp [handleSleepInterruption])
        (unraised (by simp [handleSleepInterruption]))

end Kernel

namespace System

/-- The process that the handling of this event finishes, if `finish_process` finds it. -/
def Finishing (system : System) (pid : UInt32) : Event → Prop
  | .finishProcess other => other = pid
  | .handleDispatch =>
      ∃ message ∈ system.cpuMessages.head?,
        message.request.CallsFinish message.pcb system.kernel ∧ message.pcb.pid = pid
  | _ => False

/-- The event is the handling of a SIGNAL that is accepted. -/
def HandlesAcceptedSignal (system : System) : Event → Prop
  | .handleDispatch =>
      ∃ message ∈ system.cpuMessages.head?,
        message.request.AcceptsSignal message.pcb system.kernel
  | _ => False

instance (system : System) (pid : UInt32) : ∀ event, Decidable (system.Finishing pid event)
  | .finishProcess _ => inferInstanceAs (Decidable (_ = _))
  | .handleDispatch =>
      inferInstanceAs (Decidable (∃ message ∈ system.cpuMessages.head?,
        message.request.CallsFinish message.pcb system.kernel ∧ message.pcb.pid = pid))
  | .createProcess .. | .startPlanning | .stopPlanning | .modifyMultiprogrammingDegree _
  | .longTermPlanner | .shortTermPlanner | .cpuExecute .. | .cpuReadInterrupt
  | .sleepThread _ => isFalse id

instance (system : System) : ∀ event, Decidable (system.HandlesAcceptedSignal event)
  | .handleDispatch =>
      inferInstanceAs (Decidable (∃ message ∈ system.cpuMessages.head?,
        message.request.AcceptsSignal message.pcb system.kernel))
  | .createProcess .. | .finishProcess _ | .startPlanning | .stopPlanning
  | .modifyMultiprogrammingDegree _ | .longTermPlanner | .shortTermPlanner | .cpuExecute ..
  | .cpuReadInterrupt | .sleepThread _ => isFalse id

end System

/-- In every reachable state, a step that raises a resource from 0 while another process is blocked
    on it moves one of the blocked processes to READY if and only if it is not the handling of an
    accepted SIGNAL (and, if the name is configured twice, the loop looks at an entry that has an
    instance). -/
theorem raise_wakes_iff (config : KernelConfig) (events : List Event) (system next : System)
    (event : Event) (resource : String)
    (reaches : run (System.step config) (System.init config) events = some system)
    (taken : system.step config event = some next)
    (valid : resource ∈ config.resources.map Prod.fst)
    (before : system.kernel.quantityResourceInstanceAvailable resource = 0)
    (after : 0 < next.kernel.quantityResourceInstanceAvailable resource)
    (waiting : ∃ process ∈ system.kernel.blockedOn resource,
      ¬ system.Finishing process.pid event) :
    Kernel.WokenFrom (system.kernel.getQueueBlocked resource) system.kernel next.kernel ↔
      ¬ system.HandlesAcceptedSignal event ∧ system.kernel.WakesReleased resource := by
  have shape := System.shape_of_run reaches
  rw [← shape.allResources] at valid
  have unraised : next.kernel.allResources = system.kernel.allResources →
      next.kernel.allResourcesInstances ≠ system.kernel.allResourcesInstances := by
    intro names instances
    rw [Kernel.quantityResourceInstanceAvailable_congr names instances] at after
    omega
  cases System.step_cases taken with
  | finishes pid kernel finished result =>
      subst result
      obtain ⟨process, member, another⟩ := waiting
      rw [Kernel.wokenFrom_finishProcess shape finished valid before after
        ⟨process, member, fun same => another same.symm⟩]
      simp [System.HandlesAcceptedSignal]
  | handles message rest kernel head effect result =>
      subst result
      obtain ⟨process, member, other⟩ := waiting
      have notFinishing : ¬ (message.request.CallsFinish message.pcb system.kernel ∧
          message.pcb.pid = process.pid) := by
        intro finishing
        refine other ⟨message, ?_, finishing⟩
        rw [head]
        rfl
      rw [Kernel.wokenFrom_dispatchEffect shape effect valid before after
        ⟨process, member, notFinishing⟩]
      unfold System.HandlesAcceptedSignal
      rw [head]
      simp
  | creates _ _ _ result =>
      subst result
      exact absurd (by simp [Kernel.receivePcbAndCreate, Kernel.moveProcessToNew,
        Kernel.queuePush, Kernel.sendToMemory]) (unraised (by simp [Kernel.receivePcbAndCreate,
          Kernel.moveProcessToNew, Kernel.queuePush, Kernel.sendToMemory]))
  | modifies newDegree result =>
      subst result
      unfold Kernel.modifyMultiprogrammingDegree at unraised
      split at unraised <;> simp at unraised
  | plans _ quiet => exact absurd quiet.allResourcesInstances (unraised quiet.allResources)
  | admits _ _ admits => exact absurd admits.allResourcesInstances (unraised admits.allResources)
  | dispatches _ _ dispatches =>
      exact absurd dispatches.allResourcesInstances (unraised dispatches.allResources)
  | executes _ _ _ _ _ _ _ result =>
      subst result
      exact absurd rfl (unraised rfl)
  | sleepStarts _ _ _ _ result =>
      subst result
      exact absurd rfl (unraised rfl)
  | sleepEnds _ thread _ sleeping result =>
      subst result
      exact absurd (by simp [Kernel.sleepThreadStep, sleeping, Kernel.queuePush])
        (unraised (by simp [Kernel.sleepThreadStep, sleeping, Kernel.queuePush]))

/-- The first process is granted the resource and sleeps; the second one blocks on it; the first one
    wakes up and is executed again. -/
def secondWaitsForFirst : List Event :=
  dispatchFirst ++
    [.cpuExecute (.wait "REC1") [0, 0, 0, 0] 0, .handleDispatch,
      .cpuExecute (.sleep 5) [0, 0, 0, 0] 1, .handleDispatch, .sleepThread 0] ++
    dispatchNext ++
    [.cpuExecute (.wait "REC1") [0, 0, 0, 0] 0, .handleDispatch, .sleepThread 0] ++
    dispatchNext

theorem raise_wakes_iff_witness :
    ∃ system next,
      run (System.step fifoConfig) (System.init fifoConfig)
          (secondWaitsForFirst ++ [.cpuExecute .finish [0, 0, 0, 0] 2]) = some system ∧
      system.step fifoConfig .handleDispatch = some next ∧
      Kernel.WokenFrom 0 system.kernel next.kernel := by
  refine ⟨_, _, rfl, rfl, ?_⟩
  exact (raise_wakes_iff fifoConfig
    (secondWaitsForFirst ++ [.cpuExecute .finish [0, 0, 0, 0] 2]) _ _ .handleDispatch "REC1" rfl rfl
    (by decide) (by decide) (by decide) (by decide)).mpr (by decide)

/-- The first process SIGNALs the resource that the second one waits for: the instance becomes
    available, and the second process stays blocked. -/
theorem signal_wakes_nobody :
    ∃ system next,
      run (System.step fifoConfig) (System.init fifoConfig)
          (secondWaitsForFirst ++ [.cpuExecute (.signal "REC1") [0, 0, 0, 0] 2]) = some system ∧
      system.step fifoConfig .handleDispatch = some next ∧
      system.kernel.quantityResourceInstanceAvailable "REC1" = 0 ∧
      next.kernel.quantityResourceInstanceAvailable "REC1" = 1 ∧
      (system.kernel.blockedOn "REC1").map Pcb.pid = [1] ∧
      ¬ Kernel.WokenFrom (system.kernel.getQueueBlocked "REC1") system.kernel next.kernel := by
  exact ⟨_, _, rfl, rfl, by decide, by decide, by decide, by decide⟩

end OsSimulator
