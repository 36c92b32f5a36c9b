/-
Module: OsSimulator.Proofs.LastingDeadlocks
Purpose: A deadlock lasts.  Processes that are blocked on resources of which no instance is left and which
  only they retain stay blocked in every run of whole handlers and planner segments, whatever the other
  processes do: nothing but a FINISH_PROCESS of a console for one of them ends it.
Main exports: Pcb.Apart, Kernel.Deadlocked, System.Deadlocked, System.SparesMembers, deadlock_lasts
-/
import OsSimulator.Proofs.Deadlocks
import OsSimulator.Proofs.WakeOrder
import OsSimulator.Proofs.WakeUp

namespace OsSimulator

open Transition

/-- The PCB is of none of the members, and retains none of the resources. -/
def Pcb.Apart (members : Set UInt32) (resources : Set String) (pcb : Pcb) : Prop :=
  pcb.pid ∉ members ∧ ∀ resource ∈ pcb.resources, resource ∉ resources

namespace Kernel

variable {config : KernelConfig} {kernel next : Kernel} {members : Set UInt32}
  {resources : Set String}

/-- The PCBs outside the blocked queues. -/
def unblocked (kernel : Kernel) : List Pcb :=
  kernel.queueNew ++ (kernel.queueReady ++ (kernel.queueExec ++
    (kernel.sleepThreads.map SleepThread.process ++ kernel.cpuDispatchConnection.map Prod.snd)))

/-- Every member waits in a blocked queue of one of the resources, no instance of these is left, and
    all that is retained of them is retained by members that wait. -/
structure Deadlocked (members : Set UInt32) (resources : Set String) (kernel : Kernel) : Prop where
  waits : ∀ pid ∈ members, ∃ index, kernel.InBlockedQueue pid index
  unavailable : ∀ index resource, kernel.allResources[index]? = some resource →
    resource ∈ resources → kernel.allResourcesInstances.getD index 0 ≤ 0
  blocked : ∀ index, ∀ pcb ∈ kernel.queue (.blocked index), pcb.Apart members resources ∨
    pcb.pid ∈ members ∧ ∃ resource ∈ resources, kernel.allResources[index]? = some resource
  unblocked : ∀ pcb ∈ kernel.unblocked, pcb.Apart members resources

namespace Deadlocked

/-- A blocked process that is not a member is apart. -/
theorem apart_of_blocked (deadlocked : kernel.Deadlocked members resources) {pcb : Pcb}
    (inBlocked : pcb ∈ kernel.listOfQueueBlocked.flatten) (outside : pcb.pid ∉ members) :
    pcb.Apart members resources := by
  obtain ⟨index, inQueue⟩ := mem_flatten_iff.mp inBlocked
  rcases deadlocked.blocked index pcb inQueue with apart | ⟨member, _⟩
  · exact apart
  · exact absurd member outside

/-- No instance can be asked for. -/
theorem notMem_of_available (deadlocked : kernel.Deadlocked members resources) {resource : String}
    (available : 0 < kernel.quantityResourceInstanceAvailable resource) : resource ∉ resources := by
  intro inResources
  rw [quantityResourceInstanceAvailable] at available
  cases found : kernel.resourceIndex resource with
  | none => simp [found] at available
  | some index =>
      have nothing := deadlocked.unavailable index resource (getElem?_resourceIndex found) inResources
      rw [found] at available
      exact absurd available (not_lt.mpr nothing)

/-- A name that is not among the resources counts at another index. -/
theorem resourceIndex_ne {index : Nat} {resource other : String}
    (named : kernel.allResources[index]? = some resource) (inResources : resource ∈ resources)
    (outside : other ∉ resources) : kernel.resourceIndex other ≠ some index := by
  intro found
  have same := (getElem?_resourceIndex found).symm.trans named
  exact outside (Option.some.inj same ▸ inResources)

/-- Where the blocked queues and the resource lists stay, it is enough that nothing that is not apart
    gets out. -/
theorem congr (deadlocked : kernel.Deadlocked members resources)
    (blocked : next.listOfQueueBlocked = kernel.listOfQueueBlocked)
    (names : next.allResources = kernel.allResources)
    (instances : ∀ index resource, kernel.allResources[index]? = some resource →
      resource ∈ resources → next.allResourcesInstances.getD index 0 =
        kernel.allResourcesInstances.getD index 0)
    (unblocked : ∀ pcb ∈ next.unblocked, pcb ∈ kernel.unblocked ∨ pcb.Apart members resources) :
    next.Deadlocked members resources := by
  have same (index : Nat) : next.queue (.blocked index) = kernel.queue (.blocked index) := by
    rw [queue_blocked, queue_blocked, blocked]
  refine ⟨fun pid member => ?_, fun index resource named inResources => ?_,
    fun index pcb inQueue => ?_, fun pcb member => ?_⟩
  · obtain ⟨index, waits⟩ := deadlocked.waits pid member
    refine ⟨index, ?_⟩
    rw [InBlockedQueue, same]
    exact waits
  · rw [names] at named
    rw [instances index resource named inResources]
    exact deadlocked.unavailable index resource named inResources
  · rw [same] at inQueue
    rw [names]
    exact deadlocked.blocked index pcb inQueue
  · exact (unblocked pcb member).elim (deadlocked.unblocked pcb) id

end Deadlocked

/-! ### A finish of another process -/

theorem mem_of_mem_everySecond {α : Type} {turns : Nat} {queue : List α} {element : α} :
    (element ∈ (everySecond turns queue).1 → element ∈ queue) ∧
      (element ∈ (everySecond turns queue).2 → element ∈ queue) := by
  fun_induction everySecond turns queue with
  | case1 queue => exact ⟨fun member => absurd member List.not_mem_nil, id⟩
  | case2 => exact ⟨id, id⟩
  | case3 => exact ⟨id, fun member => absurd member List.not_mem_nil⟩
  | case4 turns process passedOver rest moved left result ih =>
      rw [result] at ih
      simp only [List.mem_cons]
      exact ⟨Or.imp_right fun member => .inr (ih.1 member), fun member =>
        .inr (member.imp_right ih.2)⟩

/-- The removal takes the process out of its queue only. -/
theorem queue_releaseAndRemove_blocked (id : QueueId) (process : Pcb) (index : Nat) :
    (kernel.releaseAndRemove id process).queue (.blocked index) =
      if id = .blocked index then
        (kernel.queue (.blocked index)).eraseP (·.pid == process.pid)
      else
        kernel.queue (.blocked index) := by
  by_cases here : id = .blocked index
  · subst here
    rw [if_pos rfl, queue_blocked, releaseAndRemove]
    by_cases inside : index < kernel.listOfQueueBlocked.length
    · simp [queue_freeResourcesRetained, inside]
    · have beyond := not_lt.mp inside
      simp [queue_blocked, beyond]
  · rw [if_neg here]
    cases id with
    | blocked position =>
        have different : position ≠ index := fun same => here (congrArg QueueId.blocked same)
        simp [queue_blocked, releaseAndRemove, List.getElem?_set_ne different]
    | _ => simp [queue_blocked, releaseAndRemove]

theorem mem_queue_of_releaseAndRemove {id : QueueId} {process pcb : Pcb} {index : Nat}
    (member : pcb ∈ (kernel.releaseAndRemove id process).queue (.blocked index)) :
    pcb ∈ kernel.queue (.blocked index) := by
  rw [queue_releaseAndRemove_blocked] at member
  split at member
  · exact List.mem_of_mem_eraseP member
  · exact member

/-- Of another process the removal leaves all PCBs. -/
theorem mem_queue_releaseAndRemove {id : QueueId} {process pcb : Pcb} {index : Nat}
    (another : pcb.pid ≠ process.pid) (member : pcb ∈ kernel.queue (.blocked index)) :
    pcb ∈ (kernel.releaseAndRemove id process).queue (.blocked index) := by
  rw [queue_releaseAndRemove_blocked]
  split
  · exact (List.mem_eraseP_of_neg (by simpa using another)).mpr member
  · exact member

namespace Deadlocked

/-- The finish of a process that is not a member takes one that is apart. -/
theorem apart_of_finishes {pid : UInt32} {id : QueueId} {process : Pcb} {woken : List Pcb}
    {middle : Kernel} (deadlocked : kernel.Deadlocked members resources) (outside : pid ∉ members)
    (finishes : Finishes pid kernel next id process woken middle) :
    process.Apart members resources := by
  have notMember : process.pid ∉ members := finishes.pid_eq ▸ outside
  have inQueue := finishes.mem_queue
  cases id with
  | blocked index =>
      exact deadlocked.apart_of_blocked (mem_flatten_iff.mpr ⟨index, inQueue⟩) notMember
  | new => exact deadlocked.unblocked process (List.mem_append_left _ inQueue)
  | ready =>
      exact deadlocked.unblocked process (List.mem_append_right _ (List.mem_append_left _ inQueue))
  | exec =>
      exact deadlocked.unblocked process
        (List.mem_append_right _ (List.mem_append_right _ (List.mem_append_left _ inQueue)))

section Release

variable {id : QueueId} {process : Pcb} (shape : kernel.Shape config)
  (apart : process.Apart members resources) {index : Nat} {resource : String}
  (named : kernel.allResources[index]? = some resource) (inResources : resource ∈ resources)

include shape apart named inResources

/-- A process that is apart gives back none of the resources. -/
theorem getD_released : (kernel.freeResourcesRetained process).allResourcesInstances.getD index 0 =
    kernel.allResourcesInstances.getD index 0 := by
  have none : process.resources.countP
      (fun held => decide (kernel.resourceIndex held = some index)) = 0 := by
    rw [List.countP_eq_zero]
    intro other held
    simpa using resourceIndex_ne named inResources (apart.2 other held)
  rw [getD_freeResourcesRetained shape, none]
  simp

/-- So the wake-up loop leaves the whole queue. -/
theorem split_releaseAndRemove (deadlocked : kernel.Deadlocked members resources) :
    (kernel.releaseAndRemove id process).split index =
      ([], (kernel.releaseAndRemove id process).queue (.blocked index)) := by
  have released : (kernel.releaseAndRemove id process).allResourcesInstances =
      (kernel.freeResourcesRetained process).allResourcesInstances := by
    simp [releaseAndRemove]
  rw [Kernel.split, released, getD_released shape apart named inResources,
    Int.toNat_of_nonpos (deadlocked.unavailable index resource named inResources)]
  rfl

end Release

/-- The finish of a process that is not a member. -/
theorem finishProcess (deadlocked : kernel.Deadlocked members resources)
    (shape : kernel.Shape config) {pid : UInt32} (outside : pid ∉ members)
    (finished : kernel.finishProcess pid = some next) : next.Deadlocked members resources := by
  rcases finishProcess_cases finished with ⟨_, rfl⟩ | ⟨id, process, woken, middle, finishes⟩
  · exact deadlocked.congr (by simp) (by simp) (by simp) fun pcb member =>
      .inl (by simpa [Kernel.unblocked] using member)
  have apart := deadlocked.apart_of_finishes outside finishes
  obtain ⟨_, _, _, blocked, names, instances, _, sleeping, connection⟩ := finishes.fields
  have moves := checkProcessInBlockedAndSendToReady_moves finishes.ran
  have queue (index : Nat) : next.queue (.blocked index) = middle.queue (.blocked index) := by
    rw [queue_blocked, queue_blocked, blocked]
  refine ⟨fun member isMember => ?_, fun index resource named inResources => ?_,
    fun index pcb inQueue => ?_, fun pcb member => ?_⟩
  · obtain ⟨index, pcb, inQueue, rfl⟩ := deadlocked.waits member isMember
    have another : pcb.pid ≠ process.pid := fun same => apart.1 (same ▸ isMember)
    refine ⟨index, pcb, ?_, rfl⟩
    -- The queue is one of the resources, so it is left as the removal leaves it.
    rcases deadlocked.blocked index pcb inQueue with other | ⟨_, resource, inResources, named⟩
    · exact absurd isMember other.1
    rw [queue, moves.queue, deadlocked.split_releaseAndRemove shape apart named inResources,
      ite_self]
    exact mem_queue_releaseAndRemove another inQueue
  · rw [names] at named
    rw [instances, getD_released shape apart named inResources]
    exact deadlocked.unavailable index resource named inResources
  · rw [names]
    apply deadlocked.blocked index pcb
    rw [queue, moves.queue] at inQueue
    split at inQueue
    · exact mem_queue_of_releaseAndRemove (mem_of_mem_everySecond.2 inQueue)
    · exact mem_queue_of_releaseAndRemove inQueue
  · obtain ⟨inNew, _, inExec, _⟩ := finishes.mem pcb
    simp only [Kernel.unblocked, sleeping, connection, List.mem_append] at member
    have outsideBlocked (there : pcb ∈ kernel.queueNew ∨ pcb ∈ kernel.queueReady ∨
        pcb ∈ kernel.queueExec ∨ pcb ∈ kernel.sleepThreads.map SleepThread.process ∨
        pcb ∈ kernel.cpuDispatchConnection.map Prod.snd) : pcb.Apart members resources :=
      deadlocked.unblocked pcb (by simpa only [Kernel.unblocked, List.mem_append] using there)
    rcases member with member | member | member | member
    · exact outsideBlocked (.inl (inNew member))
    · rw [finishes.queueReady_middle, moves.queueReady, List.mem_append, List.mem_flatMap] at member
      rcases member with old | ⟨index, _, fresh⟩
      · exact outsideBlocked (.inr (.inl
          ((mem_of_mem_releaseAndRemove pcb finishes.found).2.1 old)))
      · obtain ⟨waiter, isMoved, rfl⟩ := List.mem_map.mp fresh
        have inQueue := mem_queue_of_releaseAndRemove (mem_of_mem_everySecond.1 isMoved)
        rcases deadlocked.blocked index waiter inQueue with other | ⟨_, resource, inResources, named⟩
        · exact other
        · rw [deadlocked.split_releaseAndRemove shape apart named inResources] at isMoved
          exact absurd isMoved List.not_mem_nil
    · exact outsideBlocked (.inr (.inr (.inl (inExec member))))
    · exact outsideBlocked (.inr (.inr (.inr member)))

end Deadlocked

/-! ### A message -/

/-- One more process blocks. -/
theorem Deadlocked.pushBlocked (deadlocked : kernel.Deadlocked members resources) {process : Pcb}
    {rest : List Pcb} {index : Nat} (inside : index < kernel.listOfQueueBlocked.length)
    (head : kernel.queueExec = process :: rest) :
    (kernel.pushBlocked process rest index).Deadlocked members resources := by
  have apart : process.Apart members resources :=
    deadlocked.unblocked process (by simp [Kernel.unblocked, head])
  refine ⟨fun pid member => ?_, fun other resource named inResources => ?_,
    fun other pcb inQueue => ?_, fun pcb member => ?_⟩
  · obtain ⟨other, waits⟩ := deadlocked.waits pid member
    exact ⟨other, (inBlockedQueue_pushBlocked inside).mpr (.inl waits)⟩
  · simp only [pushBlocked_fields] at named ⊢
    exact deadlocked.unavailable other resource named inResources
  · simp only [pushBlocked_fields]
    rcases (mem_queue_pushBlocked inside).mp inQueue with older | ⟨rfl, _⟩
    · exact deadlocked.blocked other pcb older
    · exact .inl apart
  · refine deadlocked.unblocked pcb ?_
    simp only [Kernel.unblocked, pushBlocked_fields, List.mem_append] at member ⊢
    rw [head]
    rcases member with old | old | old | old
    · exact .inl old
    · exact .inr (.inl old)
    · exact .inr (.inr (.inl (List.mem_cons_of_mem _ old)))
    · exact .inr (.inr (.inr old))

/-- An answer to the CPU, with an instance more or less of a resource that is not one of them. -/
theorem Deadlocked.answers (deadlocked : kernel.Deadlocked members resources)
    (shape : kernel.Shape config) {resource : String} (outside : resource ∉ resources) (value : Int)
    {event : KernelEvent} {header : OperationCode} {answer : Pcb}
    (apart : answer.Apart members resources) :
    (((kernel.modifyResourceInstance resource value).log event).sendToCpu header answer).Deadlocked
      members resources := by
  refine deadlocked.congr (by simp) (by simp) ?_ ?_
  · intro index named isNamed inResources
    have other := Deadlocked.resourceIndex_ne isNamed inResources outside
    have same := getD_modifyResourceInstance shape resource value index
    rw [if_neg other, Int.add_zero] at same
    exact same
  · intro pcb member
    simp only [Kernel.unblocked, sendToCpu_fields, log_fields, modifyResourceInstance_fields,
      List.map_append, List.map_cons, List.map_nil, List.mem_append, List.mem_singleton] at member ⊢
    rcases member with old | old | old | old | old | rfl
    · exact .inl (.inl old)
    · exact .inl (.inr (.inl old))
    · exact .inl (.inr (.inr (.inl old)))
    · exact .inl (.inr (.inr (.inr (.inl old))))
    · exact .inl (.inr (.inr (.inr (.inr old))))
    · exact .inr apart

/-- A message about a process that is not a member, and retains none of the resources. -/
theorem Deadlocked.dispatchEffect (deadlocked : kernel.Deadlocked members resources)
    (shape : kernel.Shape config) {message : Message}
    (apart : message.pcb.Apart members resources)
    (effect : DispatchEffect message kernel next) : next.Deadlocked members resources := by
  have logged : (kernel.log (.received message)).Deadlocked members resources :=
    deadlocked.congr (by simp) (by simp) (by simp) fun pcb member =>
      .inl (by simpa [Kernel.unblocked] using member)
  have logShape : (kernel.log (.received message)).Shape config :=
    ⟨shape.allResources, shape.listOfQueueBlocked, shape.allResourcesInstances⟩
  cases effect with
  | finishes _ finished => exact logged.finishProcess logShape apart.1 finished
  | interrupts _ result =>
      subst result
      refine deadlocked.congr (by simp [handleInterrupt, queuePush])
        (by simp [handleInterrupt, queuePush]) (by simp [handleInterrupt, queuePush]) ?_
      intro pcb member
      simp only [Kernel.unblocked, handleInterrupt, queuePush, semPost_fields, setQueue_ready,
        setQueue_fields, setQueue_exec, queue_ready, log_fields, List.mem_append,
        List.mem_singleton] at member ⊢
      rcases member with old | (old | rfl) | old | old
      · exact .inl (.inl old)
      · exact .inl (.inr (.inl old))
      · exact .inr apart
      · exact .inl (.inr (.inr (.inl (List.mem_of_mem_tail old))))
      · exact .inl (.inr (.inr (.inr old)))
  | grants resource _ _ available result =>
      subst result
      -- A grant needs an instance, so what the process gets is none of the resources.
      have outside := deadlocked.notMem_of_available available
      refine logged.answers logShape outside (-1) ⟨apart.1, fun held isHeld => ?_⟩
      rcases List.mem_append.mp isHeld with old | new
      · exact apart.2 held old
      · rw [List.mem_singleton.mp new]
        exact outside
  | blocks resource process rest _ valid _ head lines _ result =>
      subst result
      have inside := (getQueueBlocked_valid shape valid).1
      have logHead : (kernel.log (.received message)).queueExec = process :: rest := by
        simpa using head
      have pushed := logged.pushBlocked (by simpa using inside) logHead
      exact pushed.congr rfl rfl (fun _ _ _ _ => rfl) fun pcb member => .inl member
  | releases resource _ _ held result =>
      subst result
      exact logged.answers logShape (apart.2 resource held) 1
        ⟨apart.1, fun other isHeld => apart.2 other (List.mem_of_mem_erase isHeld)⟩
  | sleeps _ _ result =>
      subst result
      refine deadlocked.congr (by simp [handleSleepInterruption]) (by simp [handleSleepInterruption])
        (by simp [handleSleepInterruption]) ?_
      intro pcb member
      simp only [Kernel.unblocked, handleSleepInterruption, semPost_fields, log_fields,
        List.map_append, List.map_cons, List.map_nil, List.mem_append, List.mem_singleton] at member ⊢
      rcases member with old | old | old | (old | rfl) | old
      · exact .inl (.inl old)
      · exact .inl (.inr (.inl old))
      · exact .inl (.inr (.inr (.inl old)))
      · exact .inl (.inr (.inr (.inr (.inl old))))
      · exact .inr apart
      · exact .inl (.inr (.inr (.inr (.inr old))))

end Kernel

/-! ### Every run -/

namespace System

variable {config : KernelConfig} {system next : System} {members : Set UInt32}
  {resources : Set String}

/-- The kernel is deadlocked, and no message of a member is on its way. -/
structure Deadlocked (members : Set UInt32) (resources : Set String) (system : System) : Prop where
  kernel : system.kernel.Deadlocked members resources
  messages : ∀ message ∈ system.cpuMessages, message.pcb.Apart members resources

/-- The step finishes none of the members, and gives none of their pids to a new process. -/
def SparesMembers (members : Set UInt32) (system : System) : Event → Prop
  | .finishProcess pid => pid ∉ members
  | .createProcess .. => system.kernel.idToAssign ∉ members
  | _ => True

instance (members : Set UInt32) [DecidablePred (· ∈ members)] (system : System) :
    ∀ event, Decidable (system.SparesMembers members event)
  | .finishProcess pid => inferInstanceAs (Decidable (pid ∉ members))
  | .createProcess .. => inferInstanceAs (Decidable (system.kernel.idToAssign ∉ members))
  | .startPlanning | .stopPlanning | .modifyMultiprogrammingDegree _ | .longTermPlanner
  | .shortTermPlanner | .cpuExecute .. | .cpuReadInterrupt | .handleDispatch | .sleepThread _ =>
      isTrue trivial

theorem Deadlocked.congr (deadlocked : system.Deadlocked members resources)
    (blocked : next.kernel.listOfQueueBlocked = system.kernel.listOfQueueBlocked)
    (names : next.kernel.allResources = system.kernel.allResources)
    (instances : next.kernel.allResourcesInstances = system.kernel.allResourcesInstances)
    (messages : ∀ message ∈ next.cpuMessages,
      message ∈ system.cpuMessages ∨ message.pcb.Apart members resources)
    (unblocked : ∀ pcb ∈ next.kernel.unblocked,
      pcb ∈ system.kernel.unblocked ∨ pcb.Apart members resources) :
    next.Deadlocked members resources :=
  ⟨deadlocked.kernel.congr blocked names (fun _ _ _ _ => by rw [instances]) unblocked,
    fun message member => (messages message member).elim (deadlocked.messages message) id⟩

/-- The step lemma: nothing but a finish of a member ends the deadlock. -/
theorem StepEffect.deadlocked {event : Event} (effect : StepEffect config system next event)
    (shape : system.kernel.Shape config) (deadlocked : system.Deadlocked members resources)
    (spares : system.SparesMembers members event) : next.Deadlocked members resources := by
  cases effect with
  | creates path quantum clientSocket result =>
      subst result
      refine deadlocked.congr
        (by simp [Kernel.receivePcbAndCreate, Kernel.moveProcessToNew, Kernel.queuePush,
          Kernel.sendToMemory])
        (by simp [Kernel.receivePcbAndCreate, Kernel.moveProcessToNew, Kernel.queuePush,
          Kernel.sendToMemory])
        (by simp [Kernel.receivePcbAndCreate, Kernel.moveProcessToNew, Kernel.queuePush,
          Kernel.sendToMemory])
        (fun _ => .inl) ?_
      intro pcb member
      simp only [Kernel.unblocked, Kernel.receivePcbAndCreate, Kernel.moveProcessToNew,
        Kernel.queuePush, Kernel.sendToMemory, Kernel.semPost_fields, Kernel.log_fields,
        Kernel.setQueue_new, Kernel.setQueue_fields, Kernel.queue_new, List.mem_append,
        List.mem_singleton] at member ⊢
      rcases member with (old | rfl) | old
      · exact .inl (.inl old)
      · exact .inr ⟨spares, fun _ held => absurd held List.not_mem_nil⟩
      · exact .inl (.inr old)
  | finishes pid _ finished result =>
      subst result
      exact ⟨deadlocked.kernel.finishProcess shape spares finished, deadlocked.messages⟩
  | modifies newDegree result =>
      subst result
      obtain ⟨new, ready, exec, blocked, names, instances, _, sleeping, connection, _⟩ :=
        system.kernel.modifyMultiprogrammingDegree_fields newDegree
      refine deadlocked.congr blocked names instances (fun _ => .inl) fun pcb member => .inl ?_
      simpa only [Kernel.unblocked, new, ready, exec, sleeping, connection] using member
  | plans _ quiet =>
      refine deadlocked.congr quiet.listOfQueueBlocked quiet.allResources
        quiet.allResourcesInstances (fun message member => .inl (quiet.cpuMessages ▸ member))
        fun pcb member => .inl ?_
      simpa only [Kernel.unblocked, quiet.queueNew, quiet.queueReady, quiet.queueExec,
        quiet.sleepThreads, quiet.cpuDispatchConnection] using member
  | admits process rest admits =>
      have apart : process.Apart members resources :=
        deadlocked.kernel.unblocked process (by simp [Kernel.unblocked, admits.head])
      refine deadlocked.congr admits.listOfQueueBlocked admits.allResources
        admits.allResourcesInstances (fun message member => .inl (admits.cpuMessages ▸ member)) ?_
      intro pcb member
      simp only [Kernel.unblocked, admits.queueNew, admits.queueReady, admits.queueExec,
        admits.sleepThreads, admits.cpuDispatchConnection, List.mem_append,
        List.mem_singleton] at member ⊢
      rw [admits.head]
      rcases member with old | (old | rfl) | old
      · exact .inl (.inl (List.mem_cons_of_mem _ old))
      · exact .inl (.inr (.inl old))
      · exact .inr apart
      · exact .inl (.inr (.inr old))
  | dispatches process rest dispatches =>
      have apart : process.Apart members resources :=
        deadlocked.kernel.unblocked process (List.mem_append_right _
          (List.mem_append_left _ (dispatches.perm.subset List.mem_cons_self)))
      refine deadlocked.congr dispatches.listOfQueueBlocked dispatches.allResources
        dispatches.allResourcesInstances
        (fun message member => .inl (dispatches.cpuMessages ▸ member)) ?_
      intro pcb member
      simp only [Kernel.unblocked, dispatches.queueNew, dispatches.queueReady,
        dispatches.queueExec, dispatches.sleepThreads, dispatches.cpuDispatchConnection,
        List.map_append, List.map_cons, List.map_nil, List.mem_append,
        List.mem_singleton] at member ⊢
      rcases member with old | old | (old | rfl) | old | old | rfl
      · exact .inl (.inl old)
      · exact .inl (.inr (.inl (dispatches.perm.subset (List.mem_cons_of_mem _ old))))
      · exact .inl (.inr (.inr (.inl old)))
      · exact .inr apart
      · exact .inl (.inr (.inr (.inr (.inl old))))
      · exact .inl (.inr (.inr (.inr (.inr old))))
      · exact .inr apart
  | executes request cpuRegister programCounter header process rest head result =>
      subst result
      have apart : process.Apart members resources :=
        deadlocked.kernel.unblocked process (by simp [Kernel.unblocked, head])
      refine deadlocked.congr rfl rfl rfl ?_ ?_
      · intro message member
        rcases List.mem_append.mp member with old | new
        · exact .inl old
        · rw [List.mem_singleton.mp new]
          exact .inr apart
      · intro pcb member
        simp only [Kernel.unblocked, head, List.map_cons, List.mem_append, List.mem_cons]
          at member ⊢
        rcases member with old | old | old | old | old
        · exact .inl (.inl old)
        · exact .inl (.inr (.inl old))
        · exact .inl (.inr (.inr (.inl old)))
        · exact .inl (.inr (.inr (.inr (.inl old))))
        · exact .inl (.inr (.inr (.inr (.inr (.inr old)))))
  | handles message rest kernel head effect result =>
      subst result
      refine ⟨deadlocked.kernel.dispatchEffect shape
        (deadlocked.messages message (by simp [head])) effect, fun other member => ?_⟩
      exact deadlocked.messages other (head ▸ List.mem_cons_of_mem _ member)
  | sleepStarts index thread at_index starting result =>
      subst result
      refine deadlocked.congr rfl rfl rfl (fun _ => .inl) fun pcb member => .inl ?_
      simp only [Kernel.unblocked, map_process_set at_index, List.mem_append] at member ⊢
      rcases member with old | old | old | old
      · exact .inl old
      · exact .inr (.inl old)
      · exact .inr (.inr (.inl (List.mem_of_mem_tail old)))
      · exact .inr (.inr (.inr old))
  | sleepEnds index thread at_index sleeping result =>
      subst result
      have inThreads : thread ∈ system.kernel.sleepThreads := List.mem_of_getElem? at_index
      have apart : thread.process.Apart members resources :=
        deadlocked.kernel.unblocked thread.process (by
          simp only [Kernel.unblocked, List.mem_append]
          exact .inr (.inr (.inr (.inl (List.mem_map_of_mem inThreads)))))
      refine deadlocked.congr (by simp [Kernel.sleepThreadStep, sleeping, Kernel.queuePush])
        (by simp [Kernel.sleepThreadStep, sleeping, Kernel.queuePush])
        (by simp [Kernel.sleepThreadStep, sleeping, Kernel.queuePush]) (fun _ => .inl) ?_
      intro pcb member
      simp only [Kernel.unblocked, Kernel.sleepThreadStep, sleeping, Kernel.queuePush,
        Kernel.semPost_fields, Kernel.setQueue_ready, Kernel.setQueue_fields, Kernel.queue_ready,
        List.mem_append, List.mem_singleton, List.mem_map] at member ⊢
      rcases member with old | (old | rfl) | old | ⟨other, inErased, rfl⟩ | old
      · exact .inl (.inl old)
      · exact .inl (.inr (.inl old))
      · exact .inr apart
      · exact .inl (.inr (.inr (.inl old)))
      · exact .inl (.inr (.inr (.inr (.inl
          ⟨other, List.mem_of_mem_eraseIdx inErased, rfl⟩))))
      · exact .inl (.inr (.inr (.inr (.inr old))))

end System

/-- A deadlock lasts: from a reachable state where processes wait for resources that only they retain,
    in every run that finishes none of them they wait for these resources, with no instance left. -/
theorem deadlock_lasts (config : KernelConfig) (members : Set UInt32) (resources : Set String)
    (start state : System) (events : List Event)
    (reachable : Reachable (System.step config) (System.init config) start)
    (deadlocked : start.Deadlocked members resources)
    (spares : Meets (System.step config) (System.SparesMembers members) start events)
    (reaches : run (System.step config) start events = some state) :
    state.Deadlocked members resources := by
  obtain ⟨before, arrives⟩ := reachable
  have shape : start.kernel.Shape config := System.shape_of_run arrives
  have kept := invariant_of_guarded_run
    (fun system : System => system.kernel.Shape config ∧ system.Deadlocked members resources)
    (fun holds spares taken =>
      have effect := System.step_cases taken
      ⟨effect.shape holds.1, effect.deadlocked holds.1 holds.2 spares⟩)
    ⟨shape, deadlocked⟩ spares reaches
  exact kept.2

/-- Process 0 is granted REC1 and sleeps.  Process 1 is granted REC2 and blocks on REC1.  Process 0
    wakes up and blocks on REC2. -/
def crossedWaits : List Event :=
  dispatchFirst ++
    [.cpuExecute (.wait "REC1") [0, 0, 0, 0] 0, .handleDispatch,
      .cpuExecute (.sleep 1) [0, 0, 0, 0] 1, .handleDispatch, .sleepThread 0] ++
    dispatchNext ++
    [.cpuExecute (.wait "REC2") [0, 0, 0, 0] 0, .handleDispatch,
      .cpuExecute (.wait "REC1") [0, 0, 0, 0] 1, .handleDispatch, .sleepThread 0] ++
    dispatchNext ++
    [.cpuExecute (.wait "REC2") [0, 0, 0, 0] 2, .handleDispatch]

/-- A third process blocks on REC1, and a console finishes it. -/
def thirdIsFinished : List Event :=
  [.createProcess "C" 0 5, .longTermPlanner, .longTermPlanner, .longTermPlanner] ++ dispatchNext ++
    [.cpuExecute (.wait "REC1") [0, 0, 0, 0] 0, .handleDispatch, .finishProcess 2]

/-- The processes 0 and 1 are deadlocked when they retain REC1 and REC2 and block on the other one. -/
theorem System.deadlocked_of_crossed {system : System} {first second : Pcb}
    (names : system.kernel.allResources = ["REC1", "REC2"])
    (instances : system.kernel.allResourcesInstances = [0, 0])
    (blocked : system.kernel.listOfQueueBlocked = [[second], [first]])
    (zero : first.pid = 0) (one : second.pid = 1) (unblocked : system.kernel.unblocked = [])
    (messages : system.cpuMessages = []) :
    system.Deadlocked {0, 1} {"REC1", "REC2"} := by
  refine ⟨⟨?waits, ?unavailable, ?blocked, ?unblocked⟩, ?messages⟩
  case waits =>
    rintro pid (rfl | rfl)
    · exact ⟨1, first, by simp [Kernel.queue_blocked, blocked], zero⟩
    · exact ⟨0, second, by simp [Kernel.queue_blocked, blocked], one⟩
  case unavailable =>
    intro index resource named _
    rw [names] at named
    rw [instances]
    match index with
    | 0 | 1 => exact le_of_eq rfl
    | index + 2 => cases named
  case blocked =>
    intro index pcb inQueue
    rw [Kernel.queue_blocked, blocked] at inQueue
    rw [names]
    match index with
    | 0 =>
        obtain rfl : pcb = second := List.mem_singleton.mp inQueue
        exact .inr ⟨.inr one, "REC1", .inl rfl, rfl⟩
    | 1 =>
        obtain rfl : pcb = first := List.mem_singleton.mp inQueue
        exact .inr ⟨.inl zero, "REC2", .inr rfl, rfl⟩
    | index + 2 => cases inQueue
  case unblocked =>
    rw [unblocked]
    exact fun _ member => absurd member List.not_mem_nil
  case messages =>
    rw [messages]
    exact fun _ member => absurd member List.not_mem_nil

theorem deadlock_lasts_crossed :
    ∃ start state,
      run (System.step twoResourcesConfig) (System.init twoResourcesConfig) crossedWaits =
          some start ∧
        run (System.step twoResourcesConfig) start thirdIsFinished = some state ∧
        state.Deadlocked {0, 1} {"REC1", "REC2"} := by
  obtain ⟨start, first, second, state, arrives, names, instances, blocked, zero, one, unblocked,
      messages, spares, reaches⟩ : ∃ start first second state,
      run (System.step twoResourcesConfig) (System.init twoResourcesConfig) crossedWaits =
          some start ∧
        start.kernel.allResources = ["REC1", "REC2"] ∧
        start.kernel.allResourcesInstances = [0, 0] ∧
        start.kernel.listOfQueueBlocked = [[second], [first]] ∧ first.pid = 0 ∧
        second.pid = 1 ∧ start.kernel.unblocked = [] ∧ start.cpuMessages = [] ∧
        Meets (System.step twoResourcesConfig) (System.SparesMembers {0, 1}) start
          thirdIsFinished ∧
        run (System.step twoResourcesConfig) start thirdIsFinished = some state :=
    ⟨_, _, _, _, rfl, rfl, rfl, rfl, rfl, rfl, rfl, rfl, by decide +kernel, rfl⟩
  have deadlocked : start.Deadlocked {0, 1} {"REC1", "REC2"} :=
    System.deadlocked_of_crossed names instances blocked zero one unblocked messages
  exact ⟨start, state, arrives, reaches,
    deadlock_lasts twoResourcesConfig _ _ start state thirdIsFinished ⟨crossedWaits, arrives⟩
      deadlocked spares reaches⟩

end OsSimulator
