/-
Module: OsSimulator.Proofs.Deadlocks
Purpose: What `check_deadlocks` reports.  It looks one wait ahead: it logs the process that has just
  blocked with every blocked process that retains the resource it waits for.  The report finds every
  deadlock of the recorded allocation, and it is right about a circular wait exactly when the waits of
  those processes lead back to the one that blocks.
Main exports: Kernel.BlockedOn, Kernel.Retains, Kernel.CircularWait, Kernel.logs_iff,
  Kernel.RecordedDeadlock, checkDeadlocks_logs_recordedDeadlock, reportsCircularWaits_iff
-/
import OsSimulator.Lib.WaitFor
import OsSimulator.Proofs.Steps

namespace OsSimulator

open Transition

namespace Kernel

/-! ### The recorded allocation -/

/-- The blocked queue at `index` holds a process with this pid. -/
def InBlockedQueue (kernel : Kernel) (pid : UInt32) (index : Nat) : Prop :=
  ∃ process ∈ kernel.queue (.blocked index), process.pid = pid

instance (kernel : Kernel) (pid : UInt32) (index : Nat) :
    Decidable (kernel.InBlockedQueue pid index) :=
  inferInstanceAs (Decidable (∃ process ∈ kernel.queue (.blocked index), process.pid = pid))

/-- The process is in a blocked queue of the resource. -/
def BlockedOn (kernel : Kernel) (pid : UInt32) (resource : String) : Prop :=
  ∃ index, kernel.allResources[index]? = some resource ∧ kernel.InBlockedQueue pid index

/-- A blocked process with this pid has the resource in its `resources` list. -/
def Retains (kernel : Kernel) (pid : UInt32) (resource : String) : Prop :=
  ∃ process ∈ kernel.listOfQueueBlocked.flatten, process.pid = pid ∧ resource ∈ process.resources

/-- There are blocked processes from this one back to it, each blocked on a resource that the next one
    retains. -/
def CircularWait (kernel : Kernel) (pid : UInt32) : Prop :=
  WaitFor.CircularWait kernel.BlockedOn kernel.Retains pid

theorem mem_flatten_iff {kernel : Kernel} {process : Pcb} :
    process ∈ kernel.listOfQueueBlocked.flatten ↔
      ∃ index, process ∈ kernel.queue (.blocked index) := by
  simp only [queue_blocked, List.getD_eq_getElem?_getD]
  constructor
  · intro member
    obtain ⟨queue, inList, inQueue⟩ := List.mem_flatten.mp member
    obtain ⟨index, at_index⟩ := List.mem_iff_getElem?.mp inList
    exact ⟨index, by rw [at_index]; exact inQueue⟩
  · rintro ⟨index, member⟩
    cases at_index : kernel.listOfQueueBlocked[index]? with
    | none => simp [at_index] at member
    | some queue =>
        rw [at_index, Option.getD_some] at member
        exact List.mem_flatten.mpr ⟨queue, List.mem_of_getElem? at_index, member⟩

theorem findProcessFromQueue_isSome {queue : List Pcb} {pid : UInt32} :
    (findProcessFromQueue queue pid).isSome ↔ ∃ process ∈ queue, process.pid = pid := by
  simp [findProcessFromQueue, List.find?_isSome]

/-- `get_required_resource` finds the first blocked queue that holds the pid. -/
theorem getRequiredResource_eq_some_iff {kernel : Kernel} {process : Pcb} {resource : String} :
    kernel.getRequiredResource process = some resource ↔
      ∃ first, kernel.InBlockedQueue process.pid first ∧
        (∀ earlier < first, ¬ kernel.InBlockedQueue process.pid earlier) ∧
        kernel.allResources[first]? = some resource := by
  have inside : ∀ {index}, kernel.InBlockedQueue process.pid index →
      index < kernel.listOfQueueBlocked.length := by
    intro index holds
    by_contra beyond
    obtain ⟨other, member, _⟩ := holds
    simp [queue_blocked, List.getD_eq_getElem?_getD, List.getElem?_eq_none (not_lt.mp beyond)]
      at member
  rw [getRequiredResource, Option.bind_eq_some_iff]
  simp only [List.find?_range_eq_some, findProcessFromQueue_isSome, List.mem_range,
    Bool.not_eq_true', ← Bool.not_eq_true]
  constructor
  · rintro ⟨first, ⟨holds, _, before⟩, named⟩
    exact ⟨first, holds, before, named⟩
  · rintro ⟨first, holds, before, named⟩
    exact ⟨first, ⟨holds, inside holds, before⟩, named⟩

/-! ### What the check logs -/

/-- `check_deadlocks` writes this line. -/
def Logs (kernel : Kernel) (process : Pcb) (line : KernelEvent) : Prop :=
  ∃ lines, (kernel.checkDeadlocks process).trace = lines ++ kernel.trace ∧ line ∈ lines

/-- The lines of the check: the checked process and every blocked process that retains the resource
    it waits for. -/
theorem logs_iff {kernel : Kernel} {process : Pcb} {line : KernelEvent} :
    kernel.Logs process line ↔
      ∃ resource, kernel.getRequiredResource process = some resource ∧
        ∃ candidate ∈ kernel.listOfQueueBlocked.flatten, resource ∈ candidate.resources ∧
          (line = kernel.deadlockLine process ∨ line = kernel.deadlockLine candidate) := by
  obtain ⟨lines, checked, lineIff⟩ := checkDeadlocks_trace kernel process
  rw [← lineIff]
  constructor
  · rintro ⟨added, same, member⟩
    rw [checked] at same
    exact (List.append_cancel_right same) ▸ member
  · intro member
    exact ⟨lines, by rw [checked], member⟩

/-! ### Deadlocks of the recorded allocation -/

/-- `members` are blocked processes that wait for each other: each one is blocked on a resource that
    some of the `processes` retain, and whichever of them retain what a member is blocked on are
    members too. -/
structure RecordedDeadlock (kernel : Kernel) (processes members : Set Pcb) : Prop where
  blocked : ∀ process ∈ members, ∃ index, process ∈ kernel.queue (.blocked index)
  retained : ∀ process ∈ members, ∃ resource, kernel.BlockedOn process.pid resource ∧
    ∃ retainer ∈ processes, resource ∈ retainer.resources
  closed : ∀ process ∈ members, ∀ resource, kernel.BlockedOn process.pid resource →
    ∀ retainer ∈ processes, resource ∈ retainer.resources → retainer ∈ members

/-- No pid is in two of the blocked queues. -/
def OneBlockedQueueEach (kernel : Kernel) : Prop :=
  ∀ pid first second, kernel.InBlockedQueue pid first → kernel.InBlockedQueue pid second →
    first = second

/-- With every pid in one blocked queue at most, `get_required_resource` returns what the process is
    blocked on. -/
theorem getRequiredResource_of_blockedOn {kernel : Kernel} {process : Pcb} {resource : String}
    (once : kernel.OneBlockedQueueEach) (blocked : kernel.BlockedOn process.pid resource) :
    kernel.getRequiredResource process = some resource := by
  obtain ⟨index, named, holds⟩ := blocked
  rw [getRequiredResource_eq_some_iff]
  refine ⟨index, holds, ?_, named⟩
  intro earlier before other
  exact before.ne (once process.pid earlier index other holds)

end Kernel

/-- Of a recorded deadlock, `check_deadlocks` logs the process it is called for and a member that
    retains the resource which that process is blocked on. -/
theorem checkDeadlocks_logs_recordedDeadlock (kernel : Kernel) (processes members : Set Pcb)
    (process : Pcb) (once : kernel.OneBlockedQueueEach)
    (deadlock : kernel.RecordedDeadlock processes members) (member : process ∈ members) :
    ∃ resource, kernel.BlockedOn process.pid resource ∧
      kernel.Logs process (.deadlock process.pid process.resources (some resource)) ∧
      ∃ retainer ∈ members, resource ∈ retainer.resources ∧
        ∃ required, kernel.BlockedOn retainer.pid required ∧
          kernel.Logs process (.deadlock retainer.pid retainer.resources (some required)) := by
  obtain ⟨resource, blocked, retainer, recorded, retains⟩ := deadlock.retained process member
  have closed : retainer ∈ members :=
    deadlock.closed process member resource blocked retainer recorded retains
  obtain ⟨index, inQueue⟩ := deadlock.blocked retainer closed
  obtain ⟨required, waits, _⟩ := deadlock.retained retainer closed
  have found : kernel.getRequiredResource process = some resource :=
    Kernel.getRequiredResource_of_blockedOn once blocked
  have inFlatten : retainer ∈ kernel.listOfQueueBlocked.flatten :=
    Kernel.mem_flatten_iff.mpr ⟨index, inQueue⟩
  refine ⟨resource, blocked, ?_, retainer, closed, retains, required, waits, ?_⟩
  · rw [Kernel.logs_iff]
    refine ⟨resource, found, retainer, inFlatten, retains, .inl ?_⟩
    rw [Kernel.deadlockLine, found]
  · rw [Kernel.logs_iff]
    refine ⟨resource, found, retainer, inFlatten, retains, .inr ?_⟩
    rw [Kernel.deadlockLine, Kernel.getRequiredResource_of_blockedOn once waits]

/-- A blocked process that retains one resource. -/
def retaining (pid : UInt32) (resource : String) : Pcb :=
  { createPcb pid "" 0 0 with resources := [resource], state := .blocked }

/-- Two resources with one instance each. -/
def twoResourcesConfig : KernelConfig where
  planningAlgorithm := "FIFO"
  resources := [("REC1", 1), ("REC2", 1)]
  multiprogrammingDegree := 3
  priority := fun _ => 0

/-- Process 0 retains REC1 and is blocked on REC2, process 1 the other way round. -/
def ringKernel : Kernel :=
  { Kernel.init twoResourcesConfig with
    allResourcesInstances := [0, 0]
    listOfQueueBlocked := [[retaining 1 "REC2"], [retaining 0 "REC1"]] }

theorem inBlockedQueue_ringKernel {pid : UInt32} {index : Nat} :
    ringKernel.InBlockedQueue pid index ↔ (pid = 1 ∧ index = 0) ∨ (pid = 0 ∧ index = 1) := by
  match index with
  | 0 | 1 | index + 2 =>
      simp [Kernel.InBlockedQueue, Kernel.queue, ringKernel, retaining, createPcb, eq_comm]

theorem checkDeadlocks_logs_recordedDeadlock_ring :
    ∃ resource, ringKernel.BlockedOn 0 resource ∧
      ringKernel.Logs (retaining 0 "REC1") (.deadlock 0 ["REC1"] (some resource)) := by
  have once : ringKernel.OneBlockedQueueEach := by
    intro pid first second inFirst inSecond
    rw [inBlockedQueue_ringKernel] at inFirst inSecond
    rcases inFirst with ⟨rfl, rfl⟩ | ⟨rfl, rfl⟩ <;> simpa [eq_comm] using inSecond
  have blockedOn : ∀ {pid resource}, ringKernel.BlockedOn pid resource ↔
      (resource = "REC1" ∧ pid = 1) ∨ (resource = "REC2" ∧ pid = 0) := by
    intro pid resource
    have names : ringKernel.allResources = ["REC1", "REC2"] := rfl
    simp [Kernel.BlockedOn, inBlockedQueue_ringKernel, names, and_or_left, exists_or, eq_comm]
  have deadlock : ringKernel.RecordedDeadlock {retaining 0 "REC1", retaining 1 "REC2"}
      {retaining 0 "REC1", retaining 1 "REC2"} := by
    constructor
    · rintro process (rfl | rfl)
      · exact ⟨1, by decide⟩
      · exact ⟨0, by decide⟩
    · rintro process (rfl | rfl)
      · exact ⟨"REC2", blockedOn.mpr (.inr ⟨rfl, rfl⟩), _, .inr rfl, by decide⟩
      · exact ⟨"REC1", blockedOn.mpr (.inl ⟨rfl, rfl⟩), _, .inl rfl, by decide⟩
    · exact fun _ _ _ _ retainer recorded _ => recorded
  obtain ⟨resource, blocked, logged, _⟩ := checkDeadlocks_logs_recordedDeadlock ringKernel _ _
    (retaining 0 "REC1") once deadlock (Set.mem_insert _ _)
  exact ⟨resource, blocked, logged⟩

namespace Kernel

/-! ### The process that has just blocked -/

/-- What `move_process_from_exec_to_blocked` calls `check_deadlocks` with: the process it has taken off
    `queue_exec` and pushed onto the blocked queue at `index`, and the kernel after that. -/
structure JustBlocked where
  process : Pcb
  index : Nat
  kernel : Kernel

/-- The process that the handling of a message blocks, if it blocks one. -/
def justBlocked (message : Message) (kernel : Kernel) : Option JustBlocked :=
  match message.request, kernel.queueExec with
  | .wait resource, process :: rest =>
      if message.request.BlocksOnWait kernel then
        some
          { process := process.setState .blocked
            index := kernel.getQueueBlocked resource
            kernel := (kernel.log (.received message)).pushBlocked process rest
              (kernel.getQueueBlocked resource) }
      else
        none
  | _, _ => none

theorem justBlocked_eq_some {message : Message} {kernel : Kernel} {block : JustBlocked}
    (blocks : kernel.justBlocked message = some block) :
    ∃ resource process rest, message.request = .wait resource ∧
      resource ∈ kernel.allResources ∧ ¬ 0 < kernel.quantityResourceInstanceAvailable resource ∧
      kernel.queueExec = process :: rest ∧
      block =
        { process := process.setState .blocked
          index := kernel.getQueueBlocked resource
          kernel := (kernel.log (.received message)).pushBlocked process rest
            (kernel.getQueueBlocked resource) } := by
  unfold justBlocked at blocks
  split at blocks
  · next resource process rest requested head =>
      split at blocks
      · next waits =>
          rw [requested] at waits
          exact ⟨resource, process, rest, requested, waits.1, waits.2, head,
            (Option.some.inj blocks).symm⟩
      · cases blocks
  · cases blocks

/-- Handling the message ends with `check_deadlocks` for the process that it blocks. -/
theorem handleDispatchConnection_of_justBlocked {message : Message} {kernel : Kernel}
    {block : JustBlocked} (blocks : kernel.justBlocked message = some block) :
    kernel.handleDispatchConnection message = some (block.kernel.checkDeadlocks block.process) := by
  obtain ⟨resource, process, rest, requested, valid, unavailable, head, rfl⟩ :=
    justBlocked_eq_some blocks
  have known : (findResource (kernel.log (.received message)).allResources resource).isNone =
      false := by
    simpa using findResource_isSome.mpr valid
  have none : ¬ 0 < (kernel.log (.received message)).quantityResourceInstanceAvailable resource :=
    unavailable
  simp only [handleDispatchConnection, requested, handleWaitInterruption, known,
    Bool.false_eq_true, if_false, none]
  simp only [moveProcessFromExecToBlocked, log_fields, head]
  rfl

section Push

variable {kernel : Kernel} {process : Pcb} {rest : List Pcb} {index : Nat}
  (inside : index < kernel.listOfQueueBlocked.length)

include inside

theorem mem_queue_pushBlocked {other : Pcb} {queue : Nat} :
    other ∈ (kernel.pushBlocked process rest index).queue (.blocked queue) ↔
      other ∈ kernel.queue (.blocked queue) ∨
        (other = process.setState .blocked ∧ queue = index) := by
  simp only [queue_blocked, pushBlocked_fields, List.getD_eq_getElem?_getD]
  by_cases same : queue = index
  · subst same
    simp [inside]
  · simp [same, List.getElem?_set_ne (Ne.symm same)]

theorem inBlockedQueue_pushBlocked {pid : UInt32} {queue : Nat} :
    (kernel.pushBlocked process rest index).InBlockedQueue pid queue ↔
      kernel.InBlockedQueue pid queue ∨ (pid = process.pid ∧ queue = index) := by
  simp only [InBlockedQueue, mem_queue_pushBlocked inside]
  constructor
  · rintro ⟨other, older | ⟨rfl, rfl⟩, same⟩
    · exact .inl ⟨other, older, same⟩
    · exact .inr ⟨same.symm, rfl⟩
  · rintro (⟨other, older, same⟩ | ⟨rfl, rfl⟩)
    · exact ⟨other, .inl older, same⟩
    · exact ⟨_, .inr ⟨rfl, rfl⟩, rfl⟩

theorem blockedOn_pushBlocked {pid : UInt32} {resource : String} :
    (kernel.pushBlocked process rest index).BlockedOn pid resource ↔
      kernel.BlockedOn pid resource ∨
        (pid = process.pid ∧ kernel.allResources[index]? = some resource) := by
  unfold BlockedOn
  simp only [inBlockedQueue_pushBlocked inside, pushBlocked_fields]
  constructor
  · rintro ⟨queue, named, older | ⟨same, rfl⟩⟩
    · exact .inl ⟨queue, named, older⟩
    · exact .inr ⟨same, named⟩
  · rintro (⟨queue, named, older⟩ | ⟨same, named⟩)
    · exact ⟨queue, named, .inl older⟩
    · exact ⟨index, named, .inr ⟨same, rfl⟩⟩

theorem retains_pushBlocked {pid : UInt32} {resource : String} :
    (kernel.pushBlocked process rest index).Retains pid resource ↔
      kernel.Retains pid resource ∨ (pid = process.pid ∧ resource ∈ process.resources) := by
  simp only [Retains, mem_flatten_iff, mem_queue_pushBlocked inside]
  constructor
  · rintro ⟨other, ⟨queue, older | ⟨rfl, rfl⟩⟩, same, held⟩
    · exact .inl ⟨other, ⟨queue, older⟩, same, held⟩
    · exact .inr ⟨same.symm, held⟩
  · rintro (⟨other, ⟨queue, older⟩, same, held⟩ | ⟨rfl, held⟩)
    · exact ⟨other, ⟨queue, .inl older⟩, same, held⟩
    · exact ⟨_, ⟨index, .inr ⟨rfl, rfl⟩⟩, rfl, held⟩

/-- Blocking one more process adds it to the wait-for graph and changes nothing else. -/
theorem joins_pushBlocked :
    WaitFor.Joins process.pid kernel.BlockedOn kernel.Retains
      (kernel.pushBlocked process rest index).BlockedOn
      (kernel.pushBlocked process rest index).Retains where
  staysBlocked older := (blockedOn_pushBlocked inside).mpr (.inl older)
  staysRetained older := (retains_pushBlocked inside).mpr (.inl older)
  wasBlocked another now := ((blockedOn_pushBlocked inside).mp now).resolve_right
    fun itself => another itself.1
  wasRetained another now := ((retains_pushBlocked inside).mp now).resolve_right
    fun itself => another itself.1

end Push

/-! ### Circular waits -/

section Condition

variable (kernel : Kernel) (process : Pcb) (index : Nat)

/-- The process will be in the blocked queue `queue`: it is there already, or it is about to be pushed
    onto it. -/
def WillBeInQueue (queue : Nat) : Prop := queue = index ∨ kernel.InBlockedQueue process.pid queue

/-- The process has the resource in its list, or a blocked process with its pid has. -/
def WillRetain (resource : String) : Prop :=
  resource ∈ process.resources ∨ kernel.Retains process.pid resource

/-- Before `process` is pushed onto the blocked queue at `index`: if a blocked process retains the
    resource of the first queue in which `process` will be, then `process` itself retains a resource of
    one of its queues, or the waits of a blocked process that retains one lead to a resource that
    `process` retains. -/
def WaitsComeBack : Prop :=
  ∀ first resource, kernel.WillBeInQueue process index first →
    (∀ earlier < first, ¬ kernel.WillBeInQueue process index earlier) →
    kernel.allResources[first]? = some resource → (∃ other, kernel.Retains other resource) →
    ∃ queue asked, kernel.WillBeInQueue process index queue ∧
      kernel.allResources[queue]? = some asked ∧
      (kernel.WillRetain process asked ∨ ∃ other, kernel.Retains other asked ∧
        WaitFor.LeadsTo kernel.BlockedOn kernel.Retains (kernel.WillRetain process) other)

end Condition

/-- The report about the process that has just blocked is right: if `check_deadlocks` logs it, then it
    is in a circular wait. -/
def JustBlocked.ReportsCircularWait (block : JustBlocked) : Prop :=
  (∃ retained required,
      block.kernel.Logs block.process (.deadlock block.process.pid retained required)) →
    block.kernel.CircularWait block.process.pid

/-- The process is logged when a blocked process retains the resource of the first blocked queue that
    holds its pid. -/
theorem logs_itself_iff {kernel : Kernel} {process : Pcb} :
    (∃ retained required, kernel.Logs process (.deadlock process.pid retained required)) ↔
      ∃ first resource, kernel.InBlockedQueue process.pid first ∧
        (∀ earlier < first, ¬ kernel.InBlockedQueue process.pid earlier) ∧
        kernel.allResources[first]? = some resource ∧ ∃ other, kernel.Retains other resource := by
  constructor
  · rintro ⟨retained, required, logged⟩
    obtain ⟨resource, found, candidate, member, held, _⟩ := logs_iff.mp logged
    obtain ⟨first, holds, before, named⟩ := getRequiredResource_eq_some_iff.mp found
    exact ⟨first, resource, holds, before, named, candidate.pid, candidate, member, rfl, held⟩
  · rintro ⟨first, resource, holds, before, named, other, candidate, member, _, held⟩
    have found : kernel.getRequiredResource process = some resource :=
      getRequiredResource_eq_some_iff.mpr ⟨first, holds, before, named⟩
    exact ⟨_, _, logs_iff.mpr ⟨resource, found, candidate, member, held, .inl rfl⟩⟩

section Report

variable {kernel : Kernel} {process : Pcb} {rest : List Pcb} {index : Nat}
  (inside : index < kernel.listOfQueueBlocked.length)

include inside

theorem inBlockedQueue_itself {queue : Nat} :
    (kernel.pushBlocked process rest index).InBlockedQueue process.pid queue ↔
      kernel.WillBeInQueue process index queue := by
  rw [inBlockedQueue_pushBlocked inside, WillBeInQueue]
  simp [or_comm]

theorem retains_itself :
    (kernel.pushBlocked process rest index).Retains process.pid = kernel.WillRetain process := by
  funext resource
  rw [retains_pushBlocked inside, WillRetain]
  simp [or_comm]

/-- After the push the process is in a circular wait when it retains a resource of one of its queues, or
    when the waits of a process that retains one lead to a resource that it retains. -/
theorem circularWait_pushBlocked_iff :
    (kernel.pushBlocked process rest index).CircularWait process.pid ↔
      ∃ queue asked, kernel.WillBeInQueue process index queue ∧
        kernel.allResources[queue]? = some asked ∧
        (kernel.WillRetain process asked ∨ ∃ other, kernel.Retains other asked ∧
          WaitFor.LeadsTo kernel.BlockedOn kernel.Retains (kernel.WillRetain process) other) := by
  rw [CircularWait, (joins_pushBlocked inside).circularWait_iff, retains_itself inside]
  simp only [BlockedOn, inBlockedQueue_itself inside, pushBlocked_fields]
  constructor
  · rintro ⟨asked, ⟨queue, named, holds⟩, comesBack⟩
    exact ⟨queue, asked, holds, named, comesBack⟩
  · rintro ⟨queue, asked, holds, named, comesBack⟩
    exact ⟨asked, ⟨queue, named, holds⟩, comesBack⟩

/-- After the push the process is logged when it, or a process that was blocked before, retains the
    resource of its first queue. -/
theorem logs_pushBlocked_iff :
    (∃ retained required, (kernel.pushBlocked process rest index).Logs (process.setState .blocked)
        (.deadlock (process.setState .blocked).pid retained required)) ↔
      ∃ first resource, kernel.WillBeInQueue process index first ∧
        (∀ earlier < first, ¬ kernel.WillBeInQueue process index earlier) ∧
        kernel.allResources[first]? = some resource ∧
        ∃ other, kernel.Retains other resource ∨
          (other = process.pid ∧ resource ∈ process.resources) := by
  rw [logs_itself_iff]
  simp only [Pcb.setState_pid, inBlockedQueue_itself inside, retains_pushBlocked inside,
    pushBlocked_fields]

/-- One process blocks: the report about it is right exactly when the waits come back. -/
theorem reportsCircularWait_pushBlocked_iff :
    JustBlocked.ReportsCircularWait
        { process := process.setState .blocked
          index := index
          kernel := kernel.pushBlocked process rest index } ↔
      kernel.WaitsComeBack process index := by
  constructor
  · intro right first resource holds before named retained
    obtain ⟨other, retained⟩ := retained
    apply (circularWait_pushBlocked_iff inside).mp
    apply right
    exact (logs_pushBlocked_iff inside).mpr
      ⟨first, resource, holds, before, named, other, .inl retained⟩
  · intro comesBack report
    apply (circularWait_pushBlocked_iff inside).mpr
    obtain ⟨first, resource, holds, before, named, other, older | ⟨_, held⟩⟩ :=
      (logs_pushBlocked_iff inside).mp report
    · exact comesBack first resource holds before named ⟨other, older⟩
    · exact ⟨first, resource, holds, named, .inl (.inl held)⟩

end Report

end Kernel

namespace System

/-- Every report that the step makes about a process it blocks is right. -/
def ReportsCircularWaits (system : System) : Event → Prop
  | .handleDispatch => ∀ message ∈ system.cpuMessages.head?,
      ∀ block ∈ system.kernel.justBlocked message, block.ReportsCircularWait
  | .createProcess .. | .finishProcess _ | .startPlanning | .stopPlanning
  | .modifyMultiprogrammingDegree _ | .longTermPlanner | .shortTermPlanner | .cpuExecute ..
  | .cpuReadInterrupt | .sleepThread _ => True

/-- Whenever the step blocks a process, the waits come back to it. -/
def BlocksWhereWaitsComeBack (system : System) : Event → Prop
  | .handleDispatch => ∀ message ∈ system.cpuMessages.head?,
      ∀ block ∈ system.kernel.justBlocked message,
        system.kernel.WaitsComeBack block.process block.index
  | .createProcess .. | .finishProcess _ | .startPlanning | .stopPlanning
  | .modifyMultiprogrammingDegree _ | .longTermPlanner | .shortTermPlanner | .cpuExecute ..
  | .cpuReadInterrupt | .sleepThread _ => True

theorem reportsCircularWaits_step_iff {config : KernelConfig} {system : System} {event : Event}
    (shape : system.kernel.Shape config) :
    system.ReportsCircularWaits event ↔ system.BlocksWhereWaitsComeBack event := by
  cases event with
  | handleDispatch =>
      apply forall₂_congr
      intro message _
      apply forall₂_congr
      intro block blocks
      obtain ⟨resource, process, rest, _, valid, _, _, rfl⟩ := Kernel.justBlocked_eq_some blocks
      have inside := (Kernel.getQueueBlocked_valid shape valid).1
      have logInside : system.kernel.getQueueBlocked resource <
          (system.kernel.log (.received message)).listOfQueueBlocked.length := by
        simpa using inside
      rw [Kernel.reportsCircularWait_pushBlocked_iff logInside]
      rfl
  | _ => exact Iff.rfl

end System

/-- In every run, the reports about the processes that block are right exactly when, at every step that
    blocks a process, the waits come back to it. -/
theorem reportsCircularWaits_iff (config : KernelConfig) (events : List Event) :
    Meets (System.step config) System.ReportsCircularWaits (System.init config) events ↔
      Meets (System.step config) System.BlocksWhereWaitsComeBack (System.init config) events := by
  exact meets_congr (fun system => system.kernel.Shape config)
    (fun shape taken => (System.step_cases taken).shape shape)
    System.reportsCircularWaits_step_iff (.init config)

/-! ### A chain that does not come back -/

/-- Process 0 is granted REC2 and sleeps.  Process 1 is granted REC1, sleeps, wakes up and blocks on
    REC2.  Process 2 is dispatched and asks for REC1. -/
def waitBehindSleeper : List Event :=
  dispatchFirst ++
    [.cpuExecute (.wait "REC2") [0, 0, 0, 0] 0, .handleDispatch,
      .cpuExecute (.sleep 60) [0, 0, 0, 0] 1, .handleDispatch, .sleepThread 0] ++
    dispatchNext ++
    [.cpuExecute (.wait "REC1") [0, 0, 0, 0] 0, .handleDispatch,
      .cpuExecute (.sleep 1) [0, 0, 0, 0] 1, .handleDispatch, .sleepThread 1, .sleepThread 1] ++
    dispatchNext ++
    [.cpuExecute (.wait "REC2") [0, 0, 0, 0] 2, .handleDispatch,
      .createProcess "C" 0 5, .longTermPlanner, .longTermPlanner, .longTermPlanner] ++
    dispatchNext ++
    [.cpuExecute (.wait "REC1") [0, 0, 0, 0] 0]

/-- The process that the next step of a run blocks. -/
def blockedAfter (config : KernelConfig) (events : List Event) : Option Kernel.JustBlocked :=
  (run (System.step config) (System.init config) events).bind fun system =>
    system.cpuMessages.head?.bind system.kernel.justBlocked

/-- Process 2 is logged, and it retains nothing that anybody could wait for; process 0 will wake up and
    release REC2. -/
theorem reports_chain_as_deadlock :
    ¬ Meets (System.step twoResourcesConfig) System.ReportsCircularWaits
      (System.init twoResourcesConfig) (waitBehindSleeper ++ [.handleDispatch]) := by
  intro meets
  have blocking : (blockedAfter twoResourcesConfig waitBehindSleeper).map (fun block =>
      (decide ((block.kernel.checkDeadlocks block.process).trace =
          [.deadlock 1 ["REC1"] (some "REC2"), .deadlock 2 [] (some "REC1")] ++
            block.kernel.trace),
        block.process.pid,
        block.kernel.listOfQueueBlocked.flatten.map fun process =>
          (process.pid, process.resources))) = some (true, 2, [(2, []), (1, ["REC1"])]) := by
    decide +kernel
  obtain ⟨block, found, facts⟩ := Option.map_eq_some_iff.mp blocking
  simp only [Prod.mk.injEq, decide_eq_true_eq] at facts
  obtain ⟨traced, two, allocation⟩ := facts
  obtain ⟨system, reaches, found⟩ := Option.bind_eq_some_iff.mp found
  obtain ⟨message, head, blocks⟩ := Option.bind_eq_some_iff.mp found
  have right := (meets.append reaches).2.1 message head block blocks
  have circular : block.kernel.CircularWait block.process.pid := by
    apply right
    exact ⟨[], some "REC1", _, traced, by simp [two]⟩
  refine WaitFor.not_circularWait_of_retains_nothing ?_ circular
  rintro resource ⟨process, member, same, held⟩
  have listed := List.mem_map_of_mem (f := fun process => (process.pid, process.resources)) member
  rw [allocation, same, two] at listed
  have nothing : process.resources = [] := by simpa using listed
  rw [nothing] at held
  exact List.not_mem_nil held

end OsSimulator
