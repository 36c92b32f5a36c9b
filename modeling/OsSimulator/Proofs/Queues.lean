/-
Module: OsSimulator.Proofs.Queues
Purpose: What the queue operations can do, said once.  `Wakes` is the effect of the wake-up loop of
  `finish_process`; `finishProcess_cases` is the inversion lemma of `finish_process`.  Every
  invariant of the kernel is derived from these.
Main exports: Kernel.Wakes, Kernel.checkProcessInBlockedAndSendToReady_wakes, Kernel.Finishes,
  Kernel.finishProcess_cases
-/
import OsSimulator.Kernel.System
import OsSimulator.Lib.Weigh

namespace OsSimulator

/-- A weight that does not look at the state of a process. -/
def StateBlind (weight : Pcb → Nat) : Prop := ∀ pcb state, weight (pcb.setState state) = weight pcb

/-- The weight that counts the processes with one pid. -/
def pidWeight (pid : UInt32) (pcb : Pcb) : Nat := if pcb.pid = pid then 1 else 0

theorem pidWeight_stateBlind (pid : UInt32) : StateBlind (pidWeight pid) := fun _ _ => rfl

theorem pidWeight_congr {first second : Pcb} (pid : UInt32) (same : first.pid = second.pid) :
    pidWeight pid first = pidWeight pid second := by
  rw [pidWeight, pidWeight, same]

theorem one_stateBlind : StateBlind (fun _ => 1) := fun _ _ => rfl

/-- Whether a queue is one of the blocked queues. -/
def QueueId.isBlocked : QueueId → Bool
  | .blocked _ => true
  | _ => false

theorem findProcessFromQueue_pid {queue : List Pcb} {pid : UInt32} {process : Pcb}
    (found : findProcessFromQueue queue pid = some process) : process.pid = pid := by
  simpa using List.find?_some found

theorem findProcessFromQueue_mem {queue : List Pcb} {pid : UInt32} {process : Pcb}
    (found : findProcessFromQueue queue pid = some process) : process ∈ queue :=
  List.mem_of_find?_eq_some found

theorem findResource_isSome {list : List String} {resource : String} :
    (findResource list resource).isSome ↔ resource ∈ list := by
  simp [findResource, List.find?_isSome]

theorem findResource_isNone {list : List String} {resource : String} :
    (findResource list resource).isNone ↔ resource ∉ list := by
  rw [← findResource_isSome]
  cases findResource list resource <;> simp

namespace Kernel

/-! ### Resource lists -/

@[simp] theorem modifyResourceInstance_fields (kernel : Kernel) (resource : String) (value : Int) :
    (kernel.modifyResourceInstance resource value).queueNew = kernel.queueNew ∧
      (kernel.modifyResourceInstance resource value).queueReady = kernel.queueReady ∧
      (kernel.modifyResourceInstance resource value).queueExec = kernel.queueExec ∧
      (kernel.modifyResourceInstance resource value).listOfQueueBlocked =
        kernel.listOfQueueBlocked ∧
      (kernel.modifyResourceInstance resource value).allResources = kernel.allResources ∧
      (kernel.modifyResourceInstance resource value).sem = kernel.sem ∧
      (kernel.modifyResourceInstance resource value).idToAssign = kernel.idToAssign ∧
      (kernel.modifyResourceInstance resource value).sleepThreads = kernel.sleepThreads ∧
      (kernel.modifyResourceInstance resource value).cpuDispatchConnection =
        kernel.cpuDispatchConnection ∧
      (kernel.modifyResourceInstance resource value).trace = kernel.trace := by
  unfold modifyResourceInstance
  split <;> simp

@[simp] theorem freeResourcesRetained_fields (kernel : Kernel) (process : Pcb) :
    (kernel.freeResourcesRetained process).queueNew = kernel.queueNew ∧
      (kernel.freeResourcesRetained process).queueReady = kernel.queueReady ∧
      (kernel.freeResourcesRetained process).queueExec = kernel.queueExec ∧
      (kernel.freeResourcesRetained process).listOfQueueBlocked = kernel.listOfQueueBlocked ∧
      (kernel.freeResourcesRetained process).allResources = kernel.allResources ∧
      (kernel.freeResourcesRetained process).sem = kernel.sem ∧
      (kernel.freeResourcesRetained process).idToAssign = kernel.idToAssign ∧
      (kernel.freeResourcesRetained process).sleepThreads = kernel.sleepThreads ∧
      (kernel.freeResourcesRetained process).cpuDispatchConnection =
        kernel.cpuDispatchConnection ∧
      (kernel.freeResourcesRetained process).trace = kernel.trace := by
  unfold freeResourcesRetained addResourceInstances
  induction process.resources generalizing kernel with
  | nil => simp
  | cons resource rest ih =>
      simpa [addResourceInstance] using ih (kernel.addResourceInstance resource)

/-! ### The deadlock check -/

/-- The line that `log_deadlock` writes. -/
def deadlockLine (kernel : Kernel) (process : Pcb) : KernelEvent :=
  .deadlock process.pid process.resources (kernel.getRequiredResource process)

/-- One look at `candidate` logs the checked process and `candidate`, or nothing. -/
theorem evaluateDeadlock_eq (kernel : Kernel) (trace : List KernelEvent) (process candidate : Pcb)
    (required : Option String) :
    ∃ lines, evaluateDeadlock process candidate required { kernel with trace := trace } =
        { kernel with trace := lines ++ trace } ∧
      ∀ line, line ∈ lines ↔ ∃ resource, required = some resource ∧
        resource ∈ candidate.resources ∧
        (line = kernel.deadlockLine process ∨ line = kernel.deadlockLine candidate) := by
  cases required with
  | none => exact ⟨[], rfl, by simp⟩
  | some resource =>
      unfold evaluateDeadlock
      by_cases held : resource ∈ candidate.resources
      · refine ⟨[kernel.deadlockLine candidate, kernel.deadlockLine process], ?_, ?_⟩
        · simp only [findResource_isSome.mpr held, if_true]
          rfl
        · intro line
          simp [held, or_comm]
      · refine ⟨[], ?_, by simp [held]⟩
        simp only [mt findResource_isSome.mp held, Bool.false_eq_true, if_false, List.nil_append]

/-- The check adds two lines for every blocked process that retains what the checked process waits
    for. -/
theorem checkDeadlocks_trace (kernel : Kernel) (process : Pcb) :
    ∃ lines, kernel.checkDeadlocks process = { kernel with trace := lines ++ kernel.trace } ∧
      ∀ line, line ∈ lines ↔ ∃ resource, kernel.getRequiredResource process = some resource ∧
        ∃ candidate ∈ kernel.listOfQueueBlocked.flatten, resource ∈ candidate.resources ∧
          (line = kernel.deadlockLine process ∨ line = kernel.deadlockLine candidate) := by
  suffices general : ∀ (evaluated : List Pcb) (trace : List KernelEvent), ∃ lines,
      evaluated.foldl (fun current processToEvaluate =>
          current.evaluateDeadlock process processToEvaluate
            (kernel.getRequiredResource process)) { kernel with trace := trace } =
        { kernel with trace := lines ++ trace } ∧
      ∀ line, line ∈ lines ↔ ∃ resource, kernel.getRequiredResource process = some resource ∧
        ∃ candidate ∈ evaluated, resource ∈ candidate.resources ∧
          (line = kernel.deadlockLine process ∨ line = kernel.deadlockLine candidate) from
    general _ kernel.trace
  intro evaluated
  induction evaluated with
  | nil => exact fun trace => ⟨[], rfl, by simp⟩
  | cons candidate rest ih =>
      intro trace
      obtain ⟨first, firstEq, firstLines⟩ :=
        evaluateDeadlock_eq kernel trace process candidate (kernel.getRequiredResource process)
      obtain ⟨second, secondEq, secondLines⟩ := ih (first ++ trace)
      refine ⟨second ++ first, ?_, ?_⟩
      · rw [List.foldl_cons, firstEq, secondEq, List.append_assoc]
      · intro line
        rw [List.mem_append, firstLines, secondLines]
        simp only [List.exists_mem_cons_iff]
        constructor
        · rintro (⟨resource, required, found⟩ | ⟨resource, required, found⟩)
          · exact ⟨resource, required, .inr found⟩
          · exact ⟨resource, required, .inl found⟩
        · rintro ⟨resource, required, found | found⟩
          · exact .inr ⟨resource, required, found⟩
          · exact .inl ⟨resource, required, found⟩

/-- `check_deadlocks` only logs. -/
theorem checkDeadlocks_eq (kernel : Kernel) (process : Pcb) :
    ∃ lines, kernel.checkDeadlocks process = { kernel with trace := lines ++ kernel.trace } ∧
      ∀ line ∈ lines, ∃ pid retained required, line = .deadlock pid retained required := by
  obtain ⟨lines, checked, lineIff⟩ := checkDeadlocks_trace kernel process
  refine ⟨lines, checked, ?_⟩
  intro line member
  obtain ⟨_, _, candidate, _, _, rfl | rfl⟩ := (lineIff line).mp member
  · exact ⟨_, _, _, rfl⟩
  · exact ⟨_, _, _, rfl⟩

/-! ### The wake-up loop -/

/-- `after` is `before` with the processes `woken` moved from blocked queues to the end of
    `queue_ready`; the two semaphores have moved along, and nothing else has changed. -/
structure Wakes (before after : Kernel) (woken : List Pcb) : Prop where
  queueReady : after.queueReady = before.queueReady ++ woken
  state : ∀ process ∈ woken, process.state = .ready
  origin : ∀ process ∈ woken,
    ∃ blocked ∈ before.listOfQueueBlocked.flatten, process = blocked.setState .ready
  kept : List.Forall₂ List.Sublist after.listOfQueueBlocked before.listOfQueueBlocked
  weight : ∀ {weight : Pcb → Nat}, StateBlind weight →
    weighAll weight after.listOfQueueBlocked + weigh weight woken =
      weighAll weight before.listOfQueueBlocked
  semBlocked : after.sem .processBlocked + woken.length = before.sem .processBlocked
  semReady : after.sem .processReady = before.sem .processReady + woken.length
  semOther : ∀ semaphore, semaphore ≠ .processBlocked → semaphore ≠ .processReady →
    after.sem semaphore = before.sem semaphore
  trace : ∃ lines, after.trace = lines ++ before.trace ∧
    ∀ line ∈ lines, ∃ pid index, line = .blockedToReady pid index
  queueNew : after.queueNew = before.queueNew
  queueExec : after.queueExec = before.queueExec
  allResources : after.allResources = before.allResources
  allResourcesInstances : after.allResourcesInstances = before.allResourcesInstances
  idToAssign : after.idToAssign = before.idToAssign
  sleepThreads : after.sleepThreads = before.sleepThreads
  cpuDispatchConnection : after.cpuDispatchConnection = before.cpuDispatchConnection

namespace Wakes

variable {before middle after : Kernel} {first second : List Pcb}

theorem refl (kernel : Kernel) : Wakes kernel kernel [] where
  queueReady := by simp
  state := by simp
  origin := by simp
  kept := List.forall₂_same.mpr fun _ _ => List.Sublist.refl _
  weight := by simp
  semBlocked := by simp
  semReady := by simp
  semOther := by simp
  trace := ⟨[], by simp⟩
  queueNew := rfl
  queueExec := rfl
  allResources := rfl
  allResourcesInstances := rfl
  idToAssign := rfl
  sleepThreads := rfl
  cpuDispatchConnection := rfl

/-- Blocked queues only shrink, so what is blocked afterwards was blocked before. -/
theorem blocked_of_blocked (wakes : Wakes before after first) {process : Pcb}
    (member : process ∈ after.listOfQueueBlocked.flatten) :
    process ∈ before.listOfQueueBlocked.flatten := by
  obtain ⟨queue, inAfter, inQueue⟩ := List.mem_flatten.mp member
  obtain ⟨index, bound, rfl⟩ := List.getElem_of_mem inAfter
  have lengths := wakes.kept.length_eq
  have sublist := (List.forall₂_iff_get.mp wakes.kept).2 index bound (by omega)
  exact List.mem_flatten.mpr
    ⟨_, List.getElem_mem (by omega), sublist.subset inQueue⟩

theorem length_blocked (wakes : Wakes before after first) :
    after.listOfQueueBlocked.length = before.listOfQueueBlocked.length :=
  wakes.kept.length_eq

theorem trans (one : Wakes before middle first) (two : Wakes middle after second) :
    Wakes before after (first ++ second) where
  queueReady := by rw [two.queueReady, one.queueReady, List.append_assoc]
  state process member := by
    rcases List.mem_append.mp member with earlier | later
    · exact one.state process earlier
    · exact two.state process later
  origin process member := by
    rcases List.mem_append.mp member with earlier | later
    · exact one.origin process earlier
    · obtain ⟨blocked, inMiddle, same⟩ := two.origin process later
      exact ⟨blocked, one.blocked_of_blocked inMiddle, same⟩
  kept := by
    refine List.forall₂_iff_get.mpr
      ⟨by rw [two.length_blocked, one.length_blocked], fun index afterBound beforeBound => ?_⟩
    have middleBound : index < middle.listOfQueueBlocked.length := by
      rw [one.length_blocked]; exact beforeBound
    exact ((List.forall₂_iff_get.mp two.kept).2 index afterBound middleBound).trans
      ((List.forall₂_iff_get.mp one.kept).2 index middleBound beforeBound)
  weight blind := by
    have earlier := one.weight blind
    have later := two.weight blind
    rw [weigh_append]
    omega
  semBlocked := by
    have earlier := one.semBlocked
    have later := two.semBlocked
    rw [List.length_append]
    omega
  semReady := by
    rw [two.semReady, one.semReady, List.length_append, Nat.add_assoc]
  semOther semaphore notBlocked notReady := by
    rw [two.semOther semaphore notBlocked notReady, one.semOther semaphore notBlocked notReady]
  trace := by
    obtain ⟨earlier, earlierTrace, earlierLines⟩ := one.trace
    obtain ⟨later, laterTrace, laterLines⟩ := two.trace
    refine ⟨later ++ earlier, by rw [laterTrace, earlierTrace, List.append_assoc], ?_⟩
    intro line member
    rcases List.mem_append.mp member with inLater | inEarlier
    · exact laterLines line inLater
    · exact earlierLines line inEarlier
  queueNew := two.queueNew.trans one.queueNew
  queueExec := two.queueExec.trans one.queueExec
  allResources := two.allResources.trans one.allResources
  allResourcesInstances := two.allResourcesInstances.trans one.allResourcesInstances
  idToAssign := two.idToAssign.trans one.idToAssign
  sleepThreads := two.sleepThreads.trans one.sleepThreads
  cpuDispatchConnection := two.cpuDispatchConnection.trans one.cpuDispatchConnection

end Wakes

/-- One `move_process_from_block_to_ready` wakes exactly the process at that position. -/
theorem moveProcessFromBlockToReady_wakes {kernel next : Kernel} {position index : Nat}
    (moved : kernel.moveProcessFromBlockToReady position index = some next) :
    ∃ process, (kernel.queue (.blocked index))[position]? = some process ∧
      Wakes kernel next [process.setState .ready] ∧
      next.trace = .blockedToReady process.pid index :: kernel.trace ∧
      next.listOfQueueBlocked =
        kernel.listOfQueueBlocked.set index
          ((kernel.queue (.blocked index)).eraseIdx position) := by
  unfold moveProcessFromBlockToReady at moved
  cases found : (kernel.queue (.blocked index))[position]? with
  | none => simp [found] at moved
  | some process =>
      simp only [found, Option.map_eq_some_iff, semWait_eq_some] at moved
      obtain ⟨_, ⟨positive, rfl⟩, rfl⟩ := moved
      have inside : kernel.listOfQueueBlocked[index]? =
          some (kernel.queue (.blocked index)) := by
        rw [queue_blocked] at found ⊢
        cases at_index : kernel.listOfQueueBlocked[index]? with
        | none => simp [List.getD_eq_getElem?_getD, at_index] at found
        | some queue => simp [List.getD_eq_getElem?_getD, at_index]
      have sameQueue : ((kernel.log (.blockedToReady process.pid index)).queuePush .ready
          (process.setState .ready)).queue (.blocked index) = kernel.queue (.blocked index) := by
        simp [queuePush, queue_blocked]
      refine ⟨process, rfl, ?_, by simp [queuePush], by simp [queuePush, queue_blocked]⟩
      refine
        { queueReady := by simp [queuePush]
          state := by simp
          origin := ?_
          kept := ?_
          weight := ?_
          semBlocked := ?_
          semReady := by simp [queuePush]
          semOther := ?_
          trace := ⟨[.blockedToReady process.pid index], by simp [queuePush], by simp⟩
          queueNew := by simp [queuePush]
          queueExec := by simp [queuePush]
          allResources := by simp [queuePush]
          allResourcesInstances := by simp [queuePush]
          idToAssign := by simp [queuePush]
          sleepThreads := by simp [queuePush]
          cpuDispatchConnection := by simp [queuePush] }
      · intro woken member
        obtain rfl : woken = process.setState .ready := by simpa using member
        exact ⟨process, List.mem_flatten.mpr
          ⟨_, List.mem_of_getElem? inside, List.mem_of_getElem? found⟩, rfl⟩
      · rw [sameQueue]
        refine List.forall₂_iff_get.mpr ⟨by simp [queuePush], fun other afterBound beforeBound => ?_⟩
        simp only [List.get_eq_getElem, semPost_fields, semInit_fields, setQueue_blocked, queuePush,
          setQueue_ready, log_fields, List.getElem_set]
        split
        · rename_i same
          subst same
          have : kernel.listOfQueueBlocked[index] = kernel.queue (.blocked index) := by
            simpa [List.getElem?_eq_getElem beforeBound] using inside
          rw [this]
          exact List.eraseIdx_sublist _ _
        · exact List.Sublist.refl _
      · intro weight blind
        have totals := weighAll_set weight ((kernel.queue (.blocked index)).eraseIdx position) inside
        have erased := weigh_eraseIdx weight found
        rw [sameQueue]
        simp only [semPost_fields, semInit_fields, setQueue_blocked, queuePush, setQueue_ready,
          log_fields, weigh_cons, weigh_nil, blind process .ready]
        omega
      · simp only [semPost_sem, semInit_sem, setQueue_fields, queuePush, log_fields,
          List.length_singleton, reduceCtorEq, if_true, if_false]
        simp only [setQueue_fields, queuePush, log_fields] at positive
        omega
      · intro semaphore notBlocked notReady
        simp [queuePush, notBlocked, notReady]

theorem wakeLoop_wakes {kernel next : Kernel} {index position fuel : Nat} {available : Int}
    (ran : kernel.wakeLoop index available fuel position = some next) :
    ∃ woken, Wakes kernel next woken := by
  induction fuel generalizing kernel position with
  | zero =>
      obtain rfl : kernel = next := by simpa [wakeLoop] using ran
      exact ⟨[], Wakes.refl kernel⟩
  | succ fuel ih =>
      rw [wakeLoop] at ran
      split at ran
      · obtain ⟨middle, moved, rest⟩ := Option.bind_eq_some_iff.mp ran
        obtain ⟨process, _, one, _⟩ := moveProcessFromBlockToReady_wakes moved
        obtain ⟨woken, two⟩ := ih rest
        exact ⟨_, one.trans two⟩
      · obtain rfl : kernel = next := by simpa using ran
        exact ⟨[], Wakes.refl kernel⟩

theorem wakeQueue_wakes {kernel next : Kernel} {index : Nat}
    (ran : kernel.wakeQueue index = some next) : ∃ woken, Wakes kernel next woken := by
  unfold wakeQueue at ran
  simp only at ran
  split at ran
  · exact wakeLoop_wakes ran
  · obtain rfl : kernel = next := by simpa using ran
    exact ⟨[], Wakes.refl kernel⟩

theorem wakeQueues_wakes {indices : List Nat} {kernel next : Kernel}
    (ran : indices.foldlM wakeQueue kernel = some next) : ∃ woken, Wakes kernel next woken := by
  induction indices generalizing kernel with
  | nil =>
      obtain rfl : kernel = next := by simpa using ran
      exact ⟨[], Wakes.refl kernel⟩
  | cons index indices ih =>
      rw [List.foldlM_cons] at ran
      obtain ⟨middle, ranOne, ranRest⟩ := Option.bind_eq_some_iff.mp ran
      obtain ⟨first, one⟩ := wakeQueue_wakes ranOne
      obtain ⟨second, two⟩ := ih ranRest
      exact ⟨first ++ second, one.trans two⟩

/-- All that `check_process_in_blocked_and_send_to_ready` can do. -/
theorem checkProcessInBlockedAndSendToReady_wakes {kernel next : Kernel}
    (ran : kernel.checkProcessInBlockedAndSendToReady = some next) :
    ∃ woken, Wakes kernel next woken :=
  wakeQueues_wakes ran

/-! ### Finishing a process -/

/-- The total weight of the processes in the queues. -/
def weighQueues (weight : Pcb → Nat) (kernel : Kernel) : Nat :=
  weigh weight kernel.queueNew + weigh weight kernel.queueReady + weigh weight kernel.queueExec +
    weighAll weight kernel.listOfQueueBlocked

/-- The search returns an element of the queue it names, the first there with that pid. -/
theorem findInAllQueues_eq_some {kernel : Kernel} {pid : UInt32} {id : QueueId} {process : Pcb}
    (found : kernel.findInAllQueues pid = some (id, process)) :
    findProcessFromQueue (kernel.queue id) pid = some process ∧
      ∀ index, id = .blocked index →
        kernel.listOfQueueBlocked[index]? = some (kernel.queue id) := by
  obtain ⟨_, rfl, _, _, inQueue, rfl⟩ :
      ∃ other, other = id ∧ other ∈ kernel.buildAllQueuesInList ∧
        ∃ element, findProcessFromQueue (kernel.queue other) pid = some element ∧
          element = process := by
    obtain ⟨other, member, result⟩ := List.exists_of_findSome?_eq_some found
    obtain ⟨element, inQueue, pair⟩ := Option.map_eq_some_iff.mp result
    obtain ⟨rfl, rfl⟩ := Prod.mk.inj pair
    exact ⟨_, rfl, member, _, inQueue, rfl⟩
  refine ⟨inQueue, ?_⟩
  rintro index rfl
  rw [queue_blocked] at inQueue ⊢
  cases at_index : kernel.listOfQueueBlocked[index]? with
  | none => simp [List.getD_eq_getElem?_getD, at_index, findProcessFromQueue] at inQueue
  | some queue => simp [List.getD_eq_getElem?_getD, at_index]

/-- A search that finds nothing has looked at every queue. -/
theorem findInAllQueues_eq_none {kernel : Kernel} {pid : UInt32}
    (missing : kernel.findInAllQueues pid = none) :
    kernel.weighQueues (pidWeight pid) = 0 := by
  have absent : ∀ id ∈ kernel.buildAllQueuesInList, ∀ process ∈ kernel.queue id,
      process.pid ≠ pid := by
    intro id member process inQueue
    have nothing := List.findSome?_eq_none_iff.mp missing id member
    simp only [Option.map_eq_none_iff, findProcessFromQueue, List.find?_eq_none] at nothing
    simpa using nothing process inQueue
  have empty : ∀ id ∈ kernel.buildAllQueuesInList,
      weigh (pidWeight pid) (kernel.queue id) = 0 := by
    intro id member
    refine weigh_eq_zero.mpr fun process inQueue => ?_
    simp [pidWeight, absent id member process inQueue]
  have blockedEmpty : weighAll (pidWeight pid) kernel.listOfQueueBlocked = 0 := by
    refine weighAll_eq_zero.mpr fun queue inList process inQueue => ?_
    obtain ⟨index, bound, rfl⟩ := List.getElem_of_mem inList
    have := absent (.blocked index) (by simp [buildAllQueuesInList, bound]) process
      (by simpa [queue_blocked, bound] using inQueue)
    simp [pidWeight, this]
  have new := empty .new (by simp [buildAllQueuesInList])
  have ready := empty .ready (by simp [buildAllQueuesInList])
  have exec := empty .exec (by simp [buildAllQueuesInList])
  simp only [queue_new, queue_ready, queue_exec] at new ready exec
  simp [weighQueues, new, ready, exec, blockedEmpty]

theorem pidWeight_eq_zero {pid : UInt32} {pcb : Pcb} : pidWeight pid pcb = 0 ↔ pcb.pid ≠ pid := by
  simp [pidWeight]

/-- Weight zero for a pid means that no queue holds it. -/
theorem pid_ne_of_weighQueues {kernel : Kernel} {pid : UInt32}
    (zero : kernel.weighQueues (pidWeight pid) = 0) :
    (∀ process ∈ kernel.queueNew, process.pid ≠ pid) ∧
      (∀ process ∈ kernel.queueReady, process.pid ≠ pid) ∧
      (∀ process ∈ kernel.queueExec, process.pid ≠ pid) ∧
      ∀ process ∈ kernel.listOfQueueBlocked.flatten, process.pid ≠ pid := by
  simp only [weighQueues, Nat.add_eq_zero_iff, weigh_eq_zero, weighAll_eq_zero,
    pidWeight_eq_zero] at zero
  obtain ⟨⟨⟨new, ready⟩, exec⟩, blocked⟩ := zero
  refine ⟨new, ready, exec, ?_⟩
  intro process member
  obtain ⟨queue, inList, inQueue⟩ := List.mem_flatten.mp member
  exact blocked queue inList process inQueue

theorem weighQueues_of_pid_ne {kernel : Kernel} {pid : UInt32}
    (new : ∀ process ∈ kernel.queueNew, process.pid ≠ pid)
    (ready : ∀ process ∈ kernel.queueReady, process.pid ≠ pid)
    (exec : ∀ process ∈ kernel.queueExec, process.pid ≠ pid)
    (blocked : ∀ process ∈ kernel.listOfQueueBlocked.flatten, process.pid ≠ pid) :
    kernel.weighQueues (pidWeight pid) = 0 := by
  simp only [weighQueues, Nat.add_eq_zero_iff, weigh_eq_zero, weighAll_eq_zero, pidWeight_eq_zero]
  refine ⟨⟨⟨new, ready⟩, exec⟩, ?_⟩
  intro queue inList process inQueue
  exact blocked process (List.mem_flatten.mpr ⟨queue, inList, inQueue⟩)

@[simp] theorem releaseAndRemove_fields (kernel : Kernel) (id : QueueId) (process : Pcb) :
    (kernel.releaseAndRemove id process).allResources = kernel.allResources ∧
      (kernel.releaseAndRemove id process).allResourcesInstances =
        (kernel.freeResourcesRetained process).allResourcesInstances ∧
      (kernel.releaseAndRemove id process).sem = kernel.sem ∧
      (kernel.releaseAndRemove id process).idToAssign = kernel.idToAssign ∧
      (kernel.releaseAndRemove id process).sleepThreads = kernel.sleepThreads ∧
      (kernel.releaseAndRemove id process).cpuDispatchConnection =
        kernel.cpuDispatchConnection ∧
      (kernel.releaseAndRemove id process).trace = kernel.trace := by
  simp [releaseAndRemove]

theorem queue_freeResourcesRetained (kernel : Kernel) (process : Pcb) (id : QueueId) :
    (kernel.freeResourcesRetained process).queue id = kernel.queue id := by
  cases id <;> simp [queue]

/-- The removal takes exactly the process found out of exactly its queue. -/
theorem weigh_releaseAndRemove {kernel : Kernel} {pid : UInt32} {id : QueueId} {process : Pcb}
    (found : kernel.findInAllQueues pid = some (id, process)) (weight : Pcb → Nat) :
    weigh weight (kernel.releaseAndRemove id process).queueNew +
        (if id = .new then weight process else 0) = weigh weight kernel.queueNew ∧
      weigh weight (kernel.releaseAndRemove id process).queueReady +
        (if id = .ready then weight process else 0) = weigh weight kernel.queueReady ∧
      weigh weight (kernel.releaseAndRemove id process).queueExec +
        (if id = .exec then weight process else 0) = weigh weight kernel.queueExec ∧
      weighAll weight (kernel.releaseAndRemove id process).listOfQueueBlocked +
        (if id.isBlocked then weight process else 0) =
          weighAll weight kernel.listOfQueueBlocked := by
  obtain ⟨inQueue, inList⟩ := findInAllQueues_eq_some found
  obtain rfl : process.pid = pid := findProcessFromQueue_pid inQueue
  have erased := weigh_eraseP weight inQueue
  cases id with
  | new => simpa [releaseAndRemove, QueueId.isBlocked] using erased
  | ready => simpa [releaseAndRemove, QueueId.isBlocked] using erased
  | exec => simpa [releaseAndRemove, QueueId.isBlocked] using erased
  | blocked index =>
      have totals := weighAll_set weight
        ((kernel.queue (.blocked index)).eraseP (·.pid == process.pid)) (inList index rfl)
      simp only [releaseAndRemove, setQueue_blocked, queue_freeResourcesRetained,
        freeResourcesRetained_fields, QueueId.isBlocked, if_true, reduceCtorEq, if_false,
        Nat.add_zero, true_and]
      omega

/-- The queues after the removal hold nothing that they did not hold before. -/
theorem mem_of_mem_releaseAndRemove {kernel : Kernel} {pid : UInt32} {id : QueueId}
    {process : Pcb} (other : Pcb) (found : kernel.findInAllQueues pid = some (id, process)) :
    (other ∈ (kernel.releaseAndRemove id process).queueNew → other ∈ kernel.queueNew) ∧
      (other ∈ (kernel.releaseAndRemove id process).queueReady → other ∈ kernel.queueReady) ∧
      (other ∈ (kernel.releaseAndRemove id process).queueExec → other ∈ kernel.queueExec) ∧
      (other ∈ (kernel.releaseAndRemove id process).listOfQueueBlocked.flatten →
        other ∈ kernel.listOfQueueBlocked.flatten) := by
  cases id with
  | new => simpa [releaseAndRemove] using List.mem_of_mem_eraseP
  | ready => simpa [releaseAndRemove] using List.mem_of_mem_eraseP
  | exec => simpa [releaseAndRemove] using List.mem_of_mem_eraseP
  | blocked index =>
      simp only [releaseAndRemove, setQueue_blocked, queue_freeResourcesRetained,
        freeResourcesRetained_fields, imp_self, true_and]
      intro member
      obtain ⟨queue, inList, inQueue⟩ := List.mem_flatten.mp member
      rcases List.mem_or_eq_of_mem_set inList with old | rfl
      · exact List.mem_flatten.mpr ⟨queue, old, inQueue⟩
      · have at_index := (findInAllQueues_eq_some found).2 index rfl
        exact List.mem_flatten.mpr
          ⟨_, List.mem_of_getElem? at_index, List.mem_of_mem_eraseP inQueue⟩

/-- `update_queue_semaphores` changes semaphores only. -/
theorem updateQueueSemaphores_fields {state : ProcessState} {kernel next : Kernel}
    (updated : kernel.updateQueueSemaphores state = some next) :
    next.queueNew = kernel.queueNew ∧
      next.queueReady = kernel.queueReady ∧
      next.queueExec = kernel.queueExec ∧
      next.listOfQueueBlocked = kernel.listOfQueueBlocked ∧
      next.allResources = kernel.allResources ∧
      next.allResourcesInstances = kernel.allResourcesInstances ∧
      next.idToAssign = kernel.idToAssign ∧
      next.sleepThreads = kernel.sleepThreads ∧
      next.cpuDispatchConnection = kernel.cpuDispatchConnection ∧
      next.trace = kernel.trace := by
  unfold updateQueueSemaphores at updated
  split at updated
  · obtain rfl := Option.some.inj updated
    simp
  · obtain ⟨_, waited, rfl⟩ := Option.map_eq_some_iff.mp updated
    obtain ⟨_, rfl⟩ := (semWait_eq_some ..).mp waited
    simp
  · obtain ⟨_, waited, rfl⟩ := Option.map_eq_some_iff.mp updated
    obtain ⟨_, rfl⟩ := (semWait_eq_some ..).mp waited
    simp
  · obtain ⟨_, rfl⟩ := (semWait_eq_some ..).mp updated
    simp

/-- What `update_queue_semaphores` posts for a state. -/
def finishPosts : ProcessState → Semaphore → Nat
  | .execution, .cpuAvailable => 1
  | .execution, .multiprogrammingDegree => 1
  | .ready, .multiprogrammingDegree => 1
  | .blocked, .multiprogrammingDegree => 1
  | _, _ => 0

/-- What `update_queue_semaphores` waits for in a state. -/
def finishWaits : ProcessState → Semaphore → Nat
  | .ready, .processReady => 1
  | .blocked, .processBlocked => 1
  | .new, .processNew => 1
  | .exit, .processNew => 1
  | _, _ => 0

theorem updateQueueSemaphores_sem {state : ProcessState} {kernel next : Kernel}
    (updated : kernel.updateQueueSemaphores state = some next) (semaphore : Semaphore) :
    next.sem semaphore + finishWaits state semaphore =
      kernel.sem semaphore + finishPosts state semaphore := by
  cases state with
  | execution =>
      obtain rfl := Option.some.inj updated
      cases semaphore <;> simp [finishWaits, finishPosts]
  | ready | blocked =>
      obtain ⟨_, waited, rfl⟩ := Option.map_eq_some_iff.mp updated
      obtain ⟨positive, rfl⟩ := (semWait_eq_some ..).mp waited
      cases semaphore <;> simp [finishWaits, finishPosts]
      omega
  | new | exit =>
      obtain ⟨positive, rfl⟩ := (semWait_eq_some ..).mp updated
      cases semaphore <;> simp [finishWaits, finishPosts]
      omega

/-- What `finish_process` does when it finds the pid: the process `process` leaves the queue `id`,
    the processes `woken` become ready, and the semaphores that belong to its state move. -/
structure Finishes (pid : UInt32) (kernel next : Kernel) (id : QueueId) (process : Pcb)
    (woken : List Pcb) (middle : Kernel) : Prop where
  found : kernel.findInAllQueues pid = some (id, process)
  ran : (kernel.releaseAndRemove id process).checkProcessInBlockedAndSendToReady = some middle
  wakes : Wakes (kernel.releaseAndRemove id process) middle woken
  updated : ((middle.log (.finished process.pid)).sendToMemory .finishProcess
    (process.setState .exit)).updateQueueSemaphores process.state = some next

namespace Finishes

variable {pid : UInt32} {kernel next middle : Kernel} {id : QueueId} {process : Pcb}
  {woken : List Pcb}

theorem pid_eq (finishes : Finishes pid kernel next id process woken middle) :
    process.pid = pid :=
  findProcessFromQueue_pid (findInAllQueues_eq_some finishes.found).1

theorem mem_queue (finishes : Finishes pid kernel next id process woken middle) :
    process ∈ kernel.queue id :=
  findProcessFromQueue_mem (findInAllQueues_eq_some finishes.found).1

/-- The fields afterwards, in terms of the kernel from which only the process was removed. -/
theorem fields (finishes : Finishes pid kernel next id process woken middle) :
    next.queueNew = (kernel.releaseAndRemove id process).queueNew ∧
      next.queueReady = (kernel.releaseAndRemove id process).queueReady ++ woken ∧
      next.queueExec = (kernel.releaseAndRemove id process).queueExec ∧
      next.listOfQueueBlocked = middle.listOfQueueBlocked ∧
      next.allResources = kernel.allResources ∧
      next.allResourcesInstances =
        (kernel.freeResourcesRetained process).allResourcesInstances ∧
      next.idToAssign = kernel.idToAssign ∧
      next.sleepThreads = kernel.sleepThreads ∧
      next.cpuDispatchConnection = kernel.cpuDispatchConnection := by
  obtain ⟨new, ready, exec, blocked, resources, instances, counter, sleeping, connection, _⟩ :=
    updateQueueSemaphores_fields finishes.updated
  have wakes := finishes.wakes
  simp only [sendToMemory, log_fields] at new ready exec blocked resources
  simp only [sendToMemory, log_fields] at instances counter sleeping connection
  refine ⟨new.trans wakes.queueNew, ready.trans wakes.queueReady, exec.trans wakes.queueExec,
    blocked, ?_, ?_, ?_, ?_, ?_⟩
  · rw [resources, wakes.allResources, (releaseAndRemove_fields ..).1]
  · rw [instances, wakes.allResourcesInstances, (releaseAndRemove_fields ..).2.1]
  · rw [counter, wakes.idToAssign]; simp
  · rw [sleeping, wakes.sleepThreads]; simp
  · rw [connection, wakes.cpuDispatchConnection]; simp

theorem trace (finishes : Finishes pid kernel next id process woken middle) :
    ∃ lines, next.trace =
        .sentToMemory .finishProcess (process.setState .exit) :: .finished pid ::
          (lines ++ kernel.trace) ∧
      ∀ line ∈ lines, ∃ pid index, line = .blockedToReady pid index := by
  obtain ⟨_, _, _, _, _, _, _, _, _, same⟩ := updateQueueSemaphores_fields finishes.updated
  obtain ⟨lines, grown, kind⟩ := finishes.wakes.trace
  refine ⟨lines, ?_, kind⟩
  rw [same]
  simp [sendToMemory, grown, finishes.pid_eq]

/-- Exactly the process found leaves its queue, and the woken ones go from blocked to ready. -/
theorem weigh (finishes : Finishes pid kernel next id process woken middle)
    {weight : Pcb → Nat} (blind : StateBlind weight) :
    weigh weight next.queueNew + (if id = .new then weight process else 0) =
        weigh weight kernel.queueNew ∧
      weigh weight next.queueReady + (if id = .ready then weight process else 0) =
        weigh weight kernel.queueReady + weigh weight woken ∧
      weigh weight next.queueExec + (if id = .exec then weight process else 0) =
        weigh weight kernel.queueExec ∧
      weighAll weight next.listOfQueueBlocked + weigh weight woken +
        (if id.isBlocked then weight process else 0) =
          weighAll weight kernel.listOfQueueBlocked := by
  obtain ⟨removedNew, removedReady, removedExec, removedBlocked⟩ :=
    weigh_releaseAndRemove finishes.found weight
  obtain ⟨new, ready, exec, blocked, _⟩ := finishes.fields
  have moved := finishes.wakes.weight blind
  rw [new, ready, exec, blocked, weigh_append]
  refine ⟨removedNew, ?_, removedExec, ?_⟩ <;> omega

/-- All queues together lose exactly the weight of the process found. -/
theorem weighQueues (finishes : Finishes pid kernel next id process woken middle)
    {weight : Pcb → Nat} (blind : StateBlind weight) :
    next.weighQueues weight + weight process = kernel.weighQueues weight := by
  obtain ⟨new, ready, exec, blocked⟩ := finishes.weigh blind
  simp only [Kernel.weighQueues]
  cases id <;> simp only [QueueId.isBlocked, reduceCtorEq, if_true, if_false] at * <;> omega

/-- Nothing is new in the queues but the woken processes in `queue_ready`. -/
theorem mem (finishes : Finishes pid kernel next id process woken middle) (other : Pcb) :
    (other ∈ next.queueNew → other ∈ kernel.queueNew) ∧
      (other ∈ next.queueReady → other ∈ kernel.queueReady ∨ other ∈ woken) ∧
      (other ∈ next.queueExec → other ∈ kernel.queueExec) ∧
      (other ∈ next.listOfQueueBlocked.flatten → other ∈ kernel.listOfQueueBlocked.flatten) := by
  obtain ⟨oldNew, oldReady, oldExec, oldBlocked⟩ :=
    mem_of_mem_releaseAndRemove other finishes.found
  obtain ⟨new, ready, exec, blocked, _⟩ := finishes.fields
  rw [new, ready, exec, blocked, List.mem_append]
  exact ⟨oldNew, Or.imp_left oldReady, oldExec,
    fun member => oldBlocked (finishes.wakes.blocked_of_blocked member)⟩

/-- A woken process was blocked before `finish_process`. -/
theorem origin (finishes : Finishes pid kernel next id process woken middle) {other : Pcb}
    (member : other ∈ woken) :
    ∃ blocked ∈ kernel.listOfQueueBlocked.flatten, other = blocked.setState .ready := by
  obtain ⟨blocked, stillBlocked, same⟩ := finishes.wakes.origin other member
  exact ⟨blocked, (mem_of_mem_releaseAndRemove blocked finishes.found).2.2.2 stillBlocked, same⟩

/-- The semaphores afterwards: those of the woken processes, and those of the state of the process
    found. -/
theorem sem (finishes : Finishes pid kernel next id process woken middle)
    (semaphore : Semaphore) :
    next.sem semaphore + finishWaits process.state semaphore +
        (if semaphore = .processBlocked then woken.length else 0) =
      kernel.sem semaphore + finishPosts process.state semaphore +
        (if semaphore = .processReady then woken.length else 0) := by
  have updated := updateQueueSemaphores_sem finishes.updated semaphore
  have semBlocked := finishes.wakes.semBlocked
  have semReady := finishes.wakes.semReady
  have semOther := finishes.wakes.semOther semaphore
  simp only [sendToMemory, log_fields] at updated
  simp only [releaseAndRemove_fields] at semBlocked semReady semOther
  by_cases isBlocked : semaphore = .processBlocked
  · subst isBlocked
    simp only [if_true, reduceCtorEq, if_false]
    omega
  · by_cases isReady : semaphore = .processReady
    · subst isReady
      simp only [if_true, reduceCtorEq, if_false]
      omega
    · have same := semOther isBlocked isReady
      simp only [isBlocked, isReady, if_false]
      omega

end Finishes

/-- Everything `finish_process` can do. -/
theorem finishProcess_cases {pid : UInt32} {kernel next : Kernel}
    (finished : kernel.finishProcess pid = some next) :
    (kernel.findInAllQueues pid = none ∧ next = kernel.log (.notFound pid)) ∨
      ∃ id process woken middle, Finishes pid kernel next id process woken middle := by
  unfold finishProcess at finished
  cases found : kernel.findInAllQueues pid with
  | none =>
      rw [found] at finished
      exact .inl ⟨rfl, (Option.some.inj finished).symm⟩
  | some result =>
      obtain ⟨id, process⟩ := result
      rw [found] at finished
      obtain ⟨middle, ran, updated⟩ := Option.bind_eq_some_iff.mp finished
      obtain ⟨woken, wakes⟩ := checkProcessInBlockedAndSendToReady_wakes ran
      exact .inr ⟨id, process, woken, middle, found, ran, wakes, updated⟩

theorem allResources_finishProcess {pid : UInt32} {kernel next : Kernel}
    (finished : kernel.finishProcess pid = some next) :
    next.allResources = kernel.allResources := by
  rcases finishProcess_cases finished with ⟨_, rfl⟩ | ⟨_, _, _, _, finishes⟩
  · simp
  · exact finishes.fields.2.2.2.2.1

/-- `finish_process` looks at the queues only: neither the sleep threads nor the CPU notice. -/
theorem threads_finishProcess {pid : UInt32} {kernel next : Kernel}
    (finished : kernel.finishProcess pid = some next) :
    next.sleepThreads = kernel.sleepThreads ∧
      next.cpuDispatchConnection = kernel.cpuDispatchConnection := by
  rcases finishProcess_cases finished with ⟨_, rfl⟩ | ⟨_, _, _, _, finishes⟩
  · simp
  · exact finishes.fields.2.2.2.2.2.2.2

/-- `finish_process` only adds to the trace. -/
theorem trace_finishProcess {pid : UInt32} {kernel next : Kernel}
    (finished : kernel.finishProcess pid = some next) :
    ∃ lines, next.trace = lines ++ kernel.trace := by
  rcases finishProcess_cases finished with ⟨_, rfl⟩ | ⟨id, process, woken, middle, finishes⟩
  · exact ⟨[.notFound pid], by simp⟩
  · obtain ⟨lines, trace, _⟩ := finishes.trace
    exact ⟨_ :: _ :: lines, trace⟩

end Kernel

end OsSimulator
