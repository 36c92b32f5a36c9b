/-
Module: OsSimulator.Proofs.Conservation
Purpose: When no instance of a resource is lost or released twice.  Grants and releases change the
  copy of a PCB that travels to the CPU and back, while `finish_process` gives back what the copy in
  its queue lists; instances are conserved exactly as long as the two agree.
Main exports: Kernel.held, Kernel.ledger, Kernel.Conserved, System.Accounts, run_conserved_iff,
  run_leaks_granted_instance
-/
import OsSimulator.Lib.Ledger
import OsSimulator.Proofs.Steps

namespace OsSimulator

open Transition

namespace KernelEvent

/-- What a line books to a process: a grant is one more instance, a release is one less. -/
def change (pid : UInt32) (resource : String) : KernelEvent → Int
  | .granted holder name => if holder = pid ∧ name = resource then 1 else 0
  | .released holder name => if holder = pid ∧ name = resource then -1 else 0
  | _ => 0

/-- The process that a line books something to. -/
def holder? : KernelEvent → Option UInt32
  | .granted holder _ | .released holder _ => some holder
  | _ => none

/-- The line neither starts nor ends a process, and books nothing. -/
structure BooksNothing (line : KernelEvent) : Prop where
  created : line.createdPid? = none
  finished : line.finishedPid? = none
  change : ∀ pid resource, line.change pid resource = 0

end KernelEvent

namespace Kernel

/-- The instances a process holds: its granted WAITs minus its accepted SIGNALs. -/
def held (kernel : Kernel) (pid : UInt32) (resource : String) : Int :=
  (kernel.trace.map (KernelEvent.change pid resource)).sum

/-- The processes that were created and have not finished. -/
def live (kernel : Kernel) : Finset UInt32 := kernel.created.toFinset \ kernel.finished.toFinset

theorem mem_live {kernel : Kernel} {pid : UInt32} : pid ∈ kernel.live ↔ kernel.Live pid := by
  simp [live, Live]

/-- The books of a resource: the count in `all_resources_instances`, the live processes, and what
    each process holds. -/
def ledger (kernel : Kernel) (resource : String) : Ledger UInt32 where
  free := kernel.quantityResourceInstanceAvailable resource
  live := kernel.live
  held pid := kernel.held pid resource

/-- For every configured resource, the available instances are not negative, and together with those
    that live processes hold they are the configured number. -/
def Conserved (config : KernelConfig) (kernel : Kernel) : Prop :=
  ∀ entry ∈ config.resources,
    0 ≤ kernel.quantityResourceInstanceAvailable entry.1 ∧
      kernel.quantityResourceInstanceAvailable entry.1 +
        ∑ pid ∈ kernel.live, kernel.held pid entry.1 = entry.2

instance (config : KernelConfig) (kernel : Kernel) : Decidable (kernel.Conserved config) :=
  inferInstanceAs (Decidable (∀ entry ∈ config.resources, _))

/-- If `finish_process` finds the pid, the PCB it finds lists exactly what the process holds, or
    nothing if the process has finished before. -/
def ReleasesHeld (kernel : Kernel) (pid : UInt32) : Prop :=
  match kernel.findInAllQueues pid with
  | some (_, process) =>
      ∀ resource ∈ kernel.allResources,
        (process.resources.count resource : Int) =
          if kernel.Live pid then kernel.held pid resource else 0
  | none => True

instance (kernel : Kernel) (pid : UInt32) : Decidable (kernel.ReleasesHeld pid) :=
  match found : kernel.findInAllQueues pid with
  | some (_, process) =>
      decidable_of_iff
        (∀ resource ∈ kernel.allResources,
          (process.resources.count resource : Int) =
            if kernel.Live pid then kernel.held pid resource else 0)
        (by simp [ReleasesHeld, found])
  | none => isTrue (by simp [ReleasesHeld, found])

end Kernel

namespace System

/-- Whatever finishes gives back what it holds, and only live processes are granted instances or
    release them. -/
def Accounts (system : System) : Event → Prop
  | .finishProcess pid => system.kernel.ReleasesHeld pid
  | .handleDispatch =>
      ∀ message ∈ system.cpuMessages.head?,
        (message.request.CallsFinish message.pcb system.kernel →
            system.kernel.ReleasesHeld message.pcb.pid) ∧
          (message.request.GrantsWait system.kernel ∨
              message.request.AcceptsSignal message.pcb system.kernel →
            system.kernel.Live message.pcb.pid)
  | _ => True

instance (system : System) : ∀ event, Decidable (system.Accounts event)
  | .finishProcess pid => inferInstanceAs (Decidable (system.kernel.ReleasesHeld pid))
  | .handleDispatch =>
      inferInstanceAs (Decidable (∀ message ∈ system.cpuMessages.head?,
        (message.request.CallsFinish message.pcb system.kernel →
            system.kernel.ReleasesHeld message.pcb.pid) ∧
          (message.request.GrantsWait system.kernel ∨
              message.request.AcceptsSignal message.pcb system.kernel →
            system.kernel.Live message.pcb.pid)))
  | .createProcess .. | .startPlanning | .stopPlanning | .modifyMultiprogrammingDegree _
  | .longTermPlanner | .shortTermPlanner | .cpuExecute .. | .cpuReadInterrupt
  | .sleepThread _ => isTrue trivial

end System

/-! ### What each operation books -/

namespace Kernel

variable {config : KernelConfig} {kernel next : Kernel}

/-- Lines that book nothing leave the live processes and their holdings alone. -/
theorem ledger_of_lines {lines : List KernelEvent}
    (grown : next.trace = lines ++ kernel.trace) (nothing : ∀ line ∈ lines, line.BooksNothing) :
    next.live = kernel.live ∧ ∀ pid resource, next.held pid resource = kernel.held pid resource := by
  have created : lines.filterMap KernelEvent.createdPid? = [] :=
    List.filterMap_eq_nil_iff.mpr fun line member => (nothing line member).created
  have finished : lines.filterMap KernelEvent.finishedPid? = [] :=
    List.filterMap_eq_nil_iff.mpr fun line member => (nothing line member).finished
  refine ⟨?_, ?_⟩
  · rw [live, live, Kernel.created, Kernel.created, Kernel.finished, Kernel.finished, grown,
      List.filterMap_append, List.filterMap_append, created, finished, List.nil_append,
      List.nil_append]
  · intro pid resource
    have zero : (lines.map (KernelEvent.change pid resource)).sum = 0 := by
      apply List.sum_eq_zero
      intro amount member
      obtain ⟨line, inLines, rfl⟩ := List.mem_map.mp member
      exact (nothing line inLines).change pid resource
    rw [held, held, grown, List.map_append, List.sum_append, zero, zero_add]

/-- The ledger is the same if the counts are and the trace books nothing. -/
theorem ledger_congr (lines : List KernelEvent) (names : next.allResources = kernel.allResources)
    (instances : next.allResourcesInstances = kernel.allResourcesInstances)
    (grown : next.trace = lines ++ kernel.trace) (nothing : ∀ line ∈ lines, line.BooksNothing)
    (resource : String) : next.ledger resource = kernel.ledger resource := by
  obtain ⟨live, held⟩ := ledger_of_lines grown nothing
  have index : next.resourceIndex resource = kernel.resourceIndex resource :=
    resourceIndex_congr names resource
  simp only [ledger, live, held, quantityResourceInstanceAvailable, index, instances]

/-- Two names are found at one index only if they are the same. -/
theorem resourceIndex_eq_iff {resource name : String} {index : Nat}
    (found : kernel.resourceIndex resource = some index) :
    kernel.resourceIndex name = some index ↔ name = resource := by
  constructor
  · intro same
    exact Option.some.inj ((getElem?_resourceIndex same).symm.trans (getElem?_resourceIndex found))
  · rintro rfl
    exact found

/-- One name changes at most one count. -/
theorem available_modifyResourceInstance (shape : kernel.Shape config) {resource : String}
    (valid : resource ∈ kernel.allResources) (name : String) (value : Int) :
    (kernel.modifyResourceInstance name value).quantityResourceInstanceAvailable resource =
      kernel.quantityResourceInstanceAvailable resource + if name = resource then value else 0 := by
  obtain ⟨index, found⟩ := resourceIndex_of_valid valid
  have sameIndex : (kernel.modifyResourceInstance name value).resourceIndex resource =
      some index :=
    (resourceIndex_congr (by simp) resource).trans found
  rw [quantityResourceInstanceAvailable, sameIndex, quantityResourceInstanceAvailable, found]
  simp only [getD_modifyResourceInstance shape, resourceIndex_eq_iff found]

/-- `free_resources_retained` raises a count by the number of times the PCB lists the name. -/
theorem available_freeResourcesRetained (shape : kernel.Shape config) {resource : String}
    (valid : resource ∈ kernel.allResources) (process : Pcb) :
    (kernel.freeResourcesRetained process).quantityResourceInstanceAvailable resource =
      kernel.quantityResourceInstanceAvailable resource + process.resources.count resource := by
  obtain ⟨index, found⟩ := resourceIndex_of_valid valid
  have sameIndex : (kernel.freeResourcesRetained process).resourceIndex resource = some index :=
    (resourceIndex_congr (by simp) resource).trans found
  rw [quantityResourceInstanceAvailable, sameIndex, quantityResourceInstanceAvailable, found]
  simp only [getD_freeResourcesRetained shape, resourceIndex_eq_iff found]
  rfl

/-- A finish closes the account of the process with what the PCB in the queue lists. -/
theorem Finishes.ledger {pid : UInt32} {middle : Kernel} {id : QueueId} {process : Pcb}
    {woken : List Pcb} (finishes : Finishes pid kernel next id process woken middle)
    (shape : kernel.Shape config) {resource : String} (valid : resource ∈ kernel.allResources) :
    next.ledger resource =
      (kernel.ledger resource).close pid (process.resources.count resource) := by
  obtain ⟨_, _, _, _, names, instances, _⟩ := finishes.fields
  ext
  · have released := available_freeResourcesRetained shape valid process
    rw [← quantityResourceInstanceAvailable_congr (names.trans (by simp)) instances] at released
    exact released
  · simp only [Kernel.ledger, Ledger.close, live, finishes.finished, List.toFinset_cons,
      finishes.created, Finset.sdiff_insert]
  · rename_i holder
    obtain ⟨lines, trace, kind⟩ := finishes.trace
    have zero : (lines.map (KernelEvent.change holder resource)).sum = 0 := by
      apply List.sum_eq_zero
      intro amount member
      obtain ⟨line, inLines, rfl⟩ := List.mem_map.mp member
      obtain ⟨pid, index, rfl⟩ := kind line inLines
      rfl
    simp [Kernel.ledger, Ledger.close, held, trace, KernelEvent.change, zero]

/-- Every configured name is one of `all_resources`, and every name there is configured. -/
theorem mem_allResources (shape : kernel.Shape config) {resource : String} :
    resource ∈ kernel.allResources ↔ ∃ entry ∈ config.resources, entry.1 = resource := by
  rw [shape.allResources, List.mem_map]

/-- The books in terms of the ledgers. -/
theorem conserved_iff :
    kernel.Conserved config ↔ ∀ entry ∈ config.resources,
      0 ≤ (kernel.ledger entry.1).free ∧ (kernel.ledger entry.1).total = entry.2 :=
  Iff.rfl

theorem conserved_of_ledger (conserved : kernel.Conserved config)
    (same : ∀ resource, next.ledger resource = kernel.ledger resource) :
    next.Conserved config := by
  rw [conserved_iff] at conserved ⊢
  intro entry member
  rw [same]
  exact conserved entry member

/-- When a process leaves, the books stay right exactly if it gives back what it holds. -/
theorem conserved_close_iff (shape : kernel.Shape config) (conserved : kernel.Conserved config)
    {pid : UInt32} {returned : String → Nat}
    (closed : ∀ resource ∈ kernel.allResources,
      next.ledger resource = (kernel.ledger resource).close pid (returned resource)) :
    next.Conserved config ↔ ∀ resource ∈ kernel.allResources,
      (returned resource : Int) = if kernel.Live pid then kernel.held pid resource else 0 := by
  have total : ∀ resource ∈ kernel.allResources, (next.ledger resource).total =
      (kernel.ledger resource).total + returned resource -
        if kernel.Live pid then kernel.held pid resource else 0 := by
    intro resource valid
    rw [closed resource valid, Ledger.total_close]
    simp only [ledger, mem_live]
  rw [conserved_iff] at conserved ⊢
  constructor
  · intro after resource valid
    obtain ⟨entry, member, rfl⟩ := (mem_allResources shape).mp valid
    have balanced := total entry.1 valid
    rw [(after entry member).2, (conserved entry member).2] at balanced
    omega
  · intro gives entry member
    have valid := (mem_allResources shape).mpr ⟨entry, member, rfl⟩
    obtain ⟨notNegative, balanced⟩ := conserved entry member
    refine ⟨?_, ?_⟩
    · rw [closed _ valid]
      simp only [Ledger.close]
      omega
    · rw [total _ valid, balanced, gives _ valid]
      omega

/-- When an instance changes hands, the books stay right exactly if the process is live. -/
theorem conserved_move_iff (shape : kernel.Shape config) (conserved : kernel.Conserved config)
    {pid : UInt32} {name : String} (valid : name ∈ kernel.allResources) {amount : Int}
    (some_instance : amount ≠ 0)
    (enough : amount ≤ kernel.quantityResourceInstanceAvailable name)
    (moved : ∀ resource ∈ kernel.allResources, next.ledger resource =
      (kernel.ledger resource).move pid (if name = resource then amount else 0)) :
    next.Conserved config ↔ kernel.Live pid := by
  have total : ∀ resource ∈ kernel.allResources, (next.ledger resource).total =
      (kernel.ledger resource).total -
        if kernel.Live pid then 0 else if name = resource then amount else 0 := by
    intro resource known
    rw [moved resource known, Ledger.total_move]
    simp only [ledger, mem_live]
  rw [conserved_iff] at conserved ⊢
  constructor
  · intro after
    obtain ⟨entry, member, rfl⟩ := (mem_allResources shape).mp valid
    have balanced := total entry.1 valid
    rw [(after entry member).2, (conserved entry member).2] at balanced
    by_contra dead
    simp only [dead, if_true, if_false] at balanced
    omega
  · intro alive entry member
    have known := (mem_allResources shape).mpr ⟨entry, member, rfl⟩
    obtain ⟨notNegative, balanced⟩ := conserved entry member
    refine ⟨?_, ?_⟩
    · rw [moved _ known]
      simp only [Ledger.move]
      split
      · rename_i same
        subst same
        exact Int.sub_nonneg_of_le enough
      · simpa using notNegative
    · rw [total _ known, balanced, if_pos alive]
      omega

/-- The console's finish, and every message that finishes, keep the books exactly if the process
    gives back what it holds. -/
theorem conserved_finishProcess_iff (shape : kernel.Shape config)
    (conserved : kernel.Conserved config) {pid : UInt32}
    (finished : kernel.finishProcess pid = some next) :
    next.Conserved config ↔ kernel.ReleasesHeld pid := by
  rcases finishProcess_cases finished with
    ⟨missing, rfl⟩ | ⟨id, process, woken, middle, finishes⟩
  · simp only [ReleasesHeld, missing, iff_true]
    exact conserved_of_ledger conserved
      (ledger_congr [.notFound pid] (by simp) (by simp) (by simp)
        (fun line member => by
          rw [List.mem_singleton.mp member]
          exact ⟨rfl, rfl, fun _ _ => rfl⟩))
  · rw [conserved_close_iff shape conserved fun resource valid =>
      finishes.ledger shape valid]
    simp only [ReleasesHeld, finishes.found]

/-- Whether a finish gives back what is held does not depend on lines that book nothing. -/
theorem releasesHeld_log {line : KernelEvent} (nothing : line.BooksNothing) (pid : UInt32) :
    (kernel.log line).ReleasesHeld pid ↔ kernel.ReleasesHeld pid := by
  have grown : (kernel.log line).trace = [line] ++ kernel.trace := rfl
  obtain ⟨live, held⟩ := ledger_of_lines grown (by simpa using nothing)
  have sameLive : (kernel.log line).Live pid ↔ kernel.Live pid := by
    rw [← mem_live, live, mem_live]
  have sameFound : (kernel.log line).findInAllQueues pid = kernel.findInAllQueues pid := rfl
  unfold ReleasesHeld
  rw [sameFound]
  cases kernel.findInAllQueues pid with
  | none => rfl
  | some found => simp only [log_fields, held, sameLive]

/-- A message that finishes a process neither grants nor releases. -/
theorem callsFinish_excludes {message : Message}
    (calls : message.request.CallsFinish message.pcb kernel) :
    ¬ (message.request.GrantsWait kernel ∨ message.request.AcceptsSignal message.pcb kernel) := by
  cases requested : message.request <;>
    simp_all [CpuRequest.CallsFinish, CpuRequest.GrantsWait, CpuRequest.AcceptsSignal]
  exact fun known => calls.resolve_left (not_not_intro known)

/-- An answer to a WAIT or a SIGNAL moves one instance. -/
theorem ledger_answer (shape : kernel.Shape config) {message : Message} {name : String}
    {line : KernelEvent} {header : OperationCode} {answer : Pcb} {amount : Int}
    (result : next = (((kernel.log (.received message)).modifyResourceInstance name (-amount)).log
      line).sendToCpu header answer)
    (created : line.createdPid? = none) (finished : line.finishedPid? = none)
    (change : ∀ pid resource, line.change pid resource =
      if message.pcb.pid = pid ∧ name = resource then amount else 0)
    {resource : String} (valid : resource ∈ kernel.allResources) :
    next.ledger resource =
      (kernel.ledger resource).move message.pcb.pid (if name = resource then amount else 0) := by
  have shaped : (kernel.log (.received message)).Shape config :=
    shape.congr (by simp) (by simp) (by simp)
  have names : next.allResources =
      ((kernel.log (.received message)).modifyResourceInstance name (-amount)).allResources := by
    simp [result]
  have instances : next.allResourcesInstances =
      ((kernel.log (.received message)).modifyResourceInstance name
        (-amount)).allResourcesInstances := by
    simp [result]
  have trace : next.trace =
      .sentToCpu header answer :: line :: .received message :: kernel.trace := by
    simp [result]
  ext
  · have counted : (kernel.log (.received message)).quantityResourceInstanceAvailable resource =
        kernel.quantityResourceInstanceAvailable resource :=
      quantityResourceInstanceAvailable_congr (by simp) (by simp) resource
    have available := available_modifyResourceInstance shaped (by simpa using valid) name (-amount)
    rw [← quantityResourceInstanceAvailable_congr names instances, counted] at available
    simp only [ledger, Ledger.move, available]
    split <;> omega
  · have sameCreated : next.created = kernel.created := by
      rw [Kernel.created, trace, List.filterMap_cons_none rfl, List.filterMap_cons_none created,
        List.filterMap_cons_none rfl, Kernel.created]
    have sameFinished : next.finished = kernel.finished := by
      rw [Kernel.finished, trace, List.filterMap_cons_none rfl, List.filterMap_cons_none finished,
        List.filterMap_cons_none rfl, Kernel.finished]
    simp only [ledger, Ledger.move, live, sameCreated, sameFinished]
  · rename_i holder
    have sent : KernelEvent.change holder resource (.sentToCpu header answer) = 0 := rfl
    have received : KernelEvent.change holder resource (.received message) = 0 := rfl
    simp only [ledger, Ledger.move, held, trace, List.map_cons, List.sum_cons, change, sent,
      received]
    by_cases same : message.pcb.pid = holder
    · simp only [same, true_and, if_true]
      omega
    · simp only [same, false_and, Ne.symm same, if_false]
      omega

/-- Handling a message keeps the books exactly if what finishes gives back what it holds and what is
    granted or releases is live. -/
theorem conserved_dispatchEffect_iff (shape : kernel.Shape config)
    (conserved : kernel.Conserved config) {message : Message}
    (effect : DispatchEffect message kernel next) :
    next.Conserved config ↔
      (message.request.CallsFinish message.pcb kernel → kernel.ReleasesHeld message.pcb.pid) ∧
        (message.request.GrantsWait kernel ∨ message.request.AcceptsSignal message.pcb kernel →
          kernel.Live message.pcb.pid) := by
  have received : (KernelEvent.received message).BooksNothing := ⟨rfl, rfl, fun _ _ => rfl⟩
  have shaped : (kernel.log (.received message)).Shape config :=
    shape.congr (by simp) (by simp) (by simp)
  have logged : (kernel.log (.received message)).Conserved config :=
    conserved_of_ledger conserved (ledger_congr [.received message] (by simp) (by simp) (by simp)
      (by simpa using received))
  cases effect with
  | finishes calls finished =>
      rw [conserved_finishProcess_iff shaped logged finished, releasesHeld_log received]
      simp [calls, callsFinish_excludes calls]
  | interrupts requested result =>
      subst result
      simp only [requested, CpuRequest.CallsFinish, CpuRequest.GrantsWait,
        CpuRequest.AcceptsSignal, false_imp_iff, or_self, and_self, iff_true]
      exact conserved_of_ledger conserved (ledger_congr [.received message]
        (by simp [handleInterrupt, queuePush]) (by simp [handleInterrupt, queuePush])
        (by simp [handleInterrupt, queuePush]) (by simpa using received))
  | grants name requested valid available result =>
      have moves : ∀ resource ∈ kernel.allResources, next.ledger resource =
          (kernel.ledger resource).move message.pcb.pid (if name = resource then 1 else 0) :=
        fun resource known => ledger_answer shape result rfl rfl (fun _ _ => rfl) known
      rw [conserved_move_iff shape conserved valid (by decide) available moves]
      simp [requested, CpuRequest.CallsFinish, CpuRequest.GrantsWait, CpuRequest.AcceptsSignal,
        valid, available]
  | blocks name process rest requested valid unavailable head lines kind result =>
      subst result
      have granted : ¬ message.request.GrantsWait kernel := by
        simp [requested, CpuRequest.GrantsWait, unavailable]
      have calls : ¬ message.request.CallsFinish message.pcb kernel := by
        simp [requested, CpuRequest.CallsFinish, valid]
      have accepted : ¬ message.request.AcceptsSignal message.pcb kernel := by
        simp [requested, CpuRequest.AcceptsSignal]
      simp only [calls, granted, accepted, false_imp_iff, or_self, and_self, iff_true]
      apply conserved_of_ledger conserved
      apply ledger_congr (lines ++ [.execToBlocked process.pid, .received message]) (by simp)
        (by simp) (by simp)
      intro line member
      rcases List.mem_append.mp member with deadlock | rest
      · obtain ⟨pid, retained, required, rfl⟩ := kind line deadlock
        exact ⟨rfl, rfl, fun _ _ => rfl⟩
      · rcases List.mem_pair.mp rest with rfl | rfl <;> exact ⟨rfl, rfl, fun _ _ => rfl⟩
  | releases name requested valid held result =>
      have moves : ∀ resource ∈ kernel.allResources, next.ledger resource =
          (kernel.ledger resource).move message.pcb.pid (if name = resource then -1 else 0) :=
        fun resource known => ledger_answer shape result rfl rfl (fun _ _ => rfl) known
      obtain ⟨entry, member, same⟩ := (mem_allResources shape).mp valid
      have notNegative := (conserved entry member).1
      rw [conserved_move_iff shape conserved valid (by decide) (by rw [← same]; omega) moves]
      simp [requested, CpuRequest.CallsFinish, CpuRequest.GrantsWait, CpuRequest.AcceptsSignal,
        valid, held]
  | sleeps time requested result =>
      subst result
      simp only [requested, CpuRequest.CallsFinish, CpuRequest.GrantsWait,
        CpuRequest.AcceptsSignal, false_imp_iff, or_self, and_self, iff_true]
      exact conserved_of_ledger conserved (ledger_congr [.received message]
        (by simp [handleSleepInterruption]) (by simp [handleSleepInterruption])
        (by simp [handleSleepInterruption]) (by simpa using received))

/-! ### Whose instances are booked -/

/-- The processes that were ever granted or have ever released an instance. -/
def holders (kernel : Kernel) : List UInt32 := kernel.trace.filterMap KernelEvent.holder?

theorem held_of_notMem_holders {pid : UInt32} (never : pid ∉ kernel.holders) (resource : String) :
    kernel.held pid resource = 0 := by
  apply List.sum_eq_zero
  intro amount member
  obtain ⟨line, inTrace, rfl⟩ := List.mem_map.mp member
  have notHolder : line.holder? ≠ some pid :=
    fun holder => never (List.mem_filterMap.mpr ⟨line, inTrace, holder⟩)
  cases line with
  | granted holder name =>
      have other : holder ≠ pid := fun same => notHolder (congrArg some same)
      simp [KernelEvent.change, other]
  | released holder name =>
      have other : holder ≠ pid := fun same => notHolder (congrArg some same)
      simp [KernelEvent.change, other]
  | _ => rfl

theorem holders_finishProcess {pid : UInt32} (finished : kernel.finishProcess pid = some next) :
    next.holders = kernel.holders :=
  filterMap_finishProcess ⟨fun _ _ => rfl, fun _ => rfl, fun _ => rfl, fun _ _ => rfl⟩ finished

/-- Only the process of a message is booked while the message is handled. -/
theorem holders_dispatchEffect {message : Message} (effect : DispatchEffect message kernel next) :
    next.holders = kernel.holders ∨ next.holders = message.pcb.pid :: kernel.holders := by
  cases effect with
  | finishes _ finished => exact .inl ((holders_finishProcess finished).trans rfl)
  | interrupts _ result =>
      subst result
      exact .inl (by simp [handleInterrupt, queuePush, holders, KernelEvent.holder?,
        List.filterMap_cons])
  | grants _ _ _ _ result =>
      subst result
      exact .inr (by simp [removeResourceInstance, holders, KernelEvent.holder?,
        List.filterMap_cons])
  | blocks _ _ _ _ _ _ _ lines kind result =>
      subst result
      have silent : lines.filterMap KernelEvent.holder? = [] := by
        apply List.filterMap_eq_nil_iff.mpr
        intro line member
        obtain ⟨pid, retained, required, rfl⟩ := kind line member
        rfl
      exact .inl (by simp [holders, silent, KernelEvent.holder?, List.filterMap_cons])
  | releases _ _ _ _ result =>
      subst result
      exact .inr (by simp [addResourceInstance, holders, KernelEvent.holder?,
        List.filterMap_cons])
  | sleeps _ _ result =>
      subst result
      exact .inl (by simp [handleSleepInterruption, holders, KernelEvent.holder?,
        List.filterMap_cons])

end Kernel

namespace System

variable {config : KernelConfig} {system next : System}

/-- Only the handling of a message adds to the holders. -/
theorem StepEffect.holders {event : Event} {pid : UInt32}
    (effect : StepEffect config system next event) (member : pid ∈ next.kernel.holders) :
    pid ∈ system.kernel.holders ∨ ∃ message ∈ system.cpuMessages, message.pcb.pid = pid := by
  have silent : ∀ lines : List KernelEvent, next.kernel.trace = lines ++ system.kernel.trace →
      lines.filterMap KernelEvent.holder? = [] → pid ∈ system.kernel.holders := by
    intro lines grown nobody
    simpa only [Kernel.holders, grown, List.filterMap_append, nobody, List.nil_append] using member
  cases effect with
  | creates path quantum clientSocket result =>
      refine .inl (silent [.created system.kernel.idToAssign, .sentToMemory .createProcess
        (createPcb system.kernel.idToAssign path quantum clientSocket)] ?_ rfl)
      subst result
      simp [Kernel.receivePcbAndCreate, Kernel.moveProcessToNew, Kernel.queuePush,
        Kernel.sendToMemory, createPcb]
  | finishes _ kernel finished result =>
      subst result
      exact .inl (Kernel.holders_finishProcess finished ▸ member)
  | modifies newDegree result =>
      refine .inl (silent [.newDegree newDegree.toInt] ?_ rfl)
      subst result
      obtain ⟨_, _, _, _, _, _, _, _, _, logged, _⟩ :=
        system.kernel.modifyMultiprogrammingDegree_fields newDegree
      exact logged
  | plans _ quiet => exact .inl (silent [] quiet.trace rfl)
  | admits process _ admits => exact .inl (silent [.newToReady process.pid] admits.trace rfl)
  | dispatches process _ dispatches => exact .inl (silent [_] dispatches.trace rfl)
  | executes _ _ _ _ _ _ _ result => subst result; exact .inl member
  | handles message rest kernel head effect result =>
      subst result
      rcases Kernel.holders_dispatchEffect effect with same | more
      · exact .inl (same ▸ member)
      · rw [more] at member
        rcases List.mem_cons.mp member with rfl | old
        · exact .inr ⟨message, by simp [head], rfl⟩
        · exact .inl old
  | sleepStarts _ _ _ _ result => subst result; exact .inl member
  | sleepEnds index thread _ sleeping result =>
      refine .inl (silent [] ?_ rfl)
      subst result
      simp [Kernel.sleepThreadStep, sleeping, Kernel.queuePush]

/-- Every pid in the system, and every holder, was given to a created process. -/
structure BooksKnown (config : KernelConfig) (system : System) : Prop
    extends KnowsPids config system where
  holders : ∀ pid ∈ system.kernel.holders, pid ∈ system.kernel.created

theorem BooksKnown.init (config : KernelConfig) : BooksKnown config (System.init config) where
  toKnowsPids := .init config
  holders := by simp [System.init, Kernel.init, Kernel.holders]

theorem BooksKnown.step {event : Event} (known : BooksKnown config system)
    (taken : system.step config event = some next) : BooksKnown config next where
  toKnowsPids := known.toKnowsPids.step taken
  holders := by
    intro pid member
    apply (step_cases taken).created_mono
    rcases (step_cases taken).holders member with old | ⟨message, inMessages, rfl⟩
    · exact known.holders pid old
    · exact known.carried message.pcb
        (List.mem_append_right _ (List.mem_map_of_mem inMessages))

/-- A creation enters a process that holds nothing. -/
theorem conserved_creates (known : BooksKnown config system) {path : String}
    {quantum clientSocket : Int32}
    (fresh : system.CreatesFresh (.createProcess path quantum clientSocket))
    (conserved : system.kernel.Conserved config) :
    (system.kernel.receivePcbAndCreate path quantum clientSocket).Conserved config := by
  have nothing : ∀ resource, system.kernel.held system.kernel.idToAssign resource = 0 :=
    Kernel.held_of_notMem_holders fun holder => fresh (known.holders _ holder)
  have trace : (system.kernel.receivePcbAndCreate path quantum clientSocket).trace =
      [.created system.kernel.idToAssign, .sentToMemory .createProcess
        (createPcb system.kernel.idToAssign path quantum clientSocket)] ++
          system.kernel.trace := by
    simp [Kernel.receivePcbAndCreate, Kernel.moveProcessToNew, Kernel.queuePush,
      Kernel.sendToMemory, createPcb]
  have available : ∀ resource,
      (system.kernel.receivePcbAndCreate path quantum
          clientSocket).quantityResourceInstanceAvailable resource =
        system.kernel.quantityResourceInstanceAvailable resource :=
    Kernel.quantityResourceInstanceAvailable_congr
      (by simp [Kernel.receivePcbAndCreate, Kernel.moveProcessToNew, Kernel.queuePush,
        Kernel.sendToMemory])
      (by simp [Kernel.receivePcbAndCreate, Kernel.moveProcessToNew, Kernel.queuePush,
        Kernel.sendToMemory])
  have held : ∀ pid resource,
      (system.kernel.receivePcbAndCreate path quantum clientSocket).held pid resource =
        system.kernel.held pid resource := by
    intro pid resource
    simp [Kernel.held, trace, KernelEvent.change]
  have finished : (system.kernel.receivePcbAndCreate path quantum clientSocket).finished =
      system.kernel.finished := by
    rw [Kernel.finished, trace]
    rfl
  have live : (system.kernel.receivePcbAndCreate path quantum clientSocket).live =
      if system.kernel.idToAssign ∈ system.kernel.finished then system.kernel.live
      else insert system.kernel.idToAssign system.kernel.live := by
    rw [Kernel.live, Kernel.created_receivePcbAndCreate, finished, List.toFinset_cons]
    split
    · rename_i gone
      exact Finset.insert_sdiff_of_mem _ (List.mem_toFinset.mpr gone)
    · rename_i notGone
      exact Finset.insert_sdiff_of_notMem _ (mt List.mem_toFinset.mp notGone)
  have total : ∀ resource,
      ((system.kernel.receivePcbAndCreate path quantum clientSocket).ledger resource).total =
        (system.kernel.ledger resource).total := by
    intro resource
    have entered := Ledger.total_enter (system.kernel.ledger resource) _ (nothing resource)
    simp only [Ledger.total, Ledger.enter, Kernel.ledger, available, held, live] at entered ⊢
    split
    · rfl
    · exact entered
  rw [Kernel.conserved_iff] at conserved ⊢
  intro entry member
  obtain ⟨notNegative, balanced⟩ := conserved entry member
  refine ⟨?_, (total entry.1).trans balanced⟩
  simp only [Kernel.ledger, available] at notNegative ⊢
  exact notNegative

/-- Only finishes and messages have to account for anything. -/
theorem accounts_of_planning {event : Event} (planning : event.IsPlanning) :
    system.Accounts event := by
  cases event <;> trivial

/-- The step lemma: from right books, exactly the steps that account lead to right books. -/
theorem conserved_step_iff {event : Event} (known : BooksKnown config system)
    (fresh : system.CreatesFresh event) (taken : system.step config event = some next)
    (conserved : system.kernel.Conserved config) :
    next.kernel.Conserved config ↔ system.Accounts event := by
  have unbooked : ∀ {lines : List KernelEvent} {after : Kernel},
      after.allResources = system.kernel.allResources →
      after.allResourcesInstances = system.kernel.allResourcesInstances →
      after.trace = lines ++ system.kernel.trace → (∀ line ∈ lines, line.BooksNothing) →
      after.Conserved config := by
    intro lines after names instances grown nothing
    exact Kernel.conserved_of_ledger conserved
      (Kernel.ledger_congr lines names instances grown nothing)
  cases step_cases taken with
  | creates path quantum clientSocket result =>
      subst result
      exact iff_of_true (conserved_creates known fresh conserved) trivial
  | finishes pid kernel finished result =>
      subst result
      exact Kernel.conserved_finishProcess_iff known.shape conserved finished
  | modifies newDegree result =>
      subst result
      obtain ⟨_, _, _, _, names, instances, _, _, _, logged, _⟩ :=
        system.kernel.modifyMultiprogrammingDegree_fields newDegree
      have grown : (system.kernel.modifyMultiprogrammingDegree newDegree).trace =
          [.newDegree newDegree.toInt] ++ system.kernel.trace := logged
      exact iff_of_true (unbooked names instances grown
        (by simpa using ⟨rfl, rfl, fun _ _ => rfl⟩)) trivial
  | plans _ quiet planning =>
      have grown : next.kernel.trace = [] ++ system.kernel.trace := quiet.trace
      exact iff_of_true (unbooked quiet.allResources quiet.allResourcesInstances grown (by simp))
        (accounts_of_planning planning)
  | admits process rest admits =>
      have grown : next.kernel.trace = [.newToReady process.pid] ++ system.kernel.trace :=
        admits.trace
      exact iff_of_true (unbooked admits.allResources admits.allResourcesInstances grown
        (by simpa using ⟨rfl, rfl, fun _ _ => rfl⟩)) trivial
  | dispatches process rest dispatches =>
      have grown : next.kernel.trace =
          [.sentToCpu .executeProcess (process.setState .execution)] ++ system.kernel.trace :=
        dispatches.trace
      exact iff_of_true (unbooked dispatches.allResources dispatches.allResourcesInstances grown
        (by simpa using ⟨rfl, rfl, fun _ _ => rfl⟩)) trivial
  | executes _ _ _ _ _ _ _ result =>
      subst result
      exact iff_of_true conserved trivial
  | handles message rest kernel head effect result =>
      subst result
      rw [Kernel.conserved_dispatchEffect_iff known.shape conserved effect]
      unfold Accounts
      rw [head]
      simp
  | sleepStarts _ _ _ _ result =>
      subst result
      exact iff_of_true conserved trivial
  | sleepEnds index thread _ sleeping result =>
      subst result
      have grown : (system.kernel.sleepThreadStep thread index).trace =
          [] ++ system.kernel.trace := by
        simp [Kernel.sleepThreadStep, sleeping, Kernel.queuePush]
      exact iff_of_true (unbooked (by simp [Kernel.sleepThreadStep, sleeping, Kernel.queuePush])
        (by simp [Kernel.sleepThreadStep, sleeping, Kernel.queuePush]) grown (by simp)) trivial

/-- At the start everything is free. -/
theorem conserved_init (distinct : (config.resources.map Prod.fst).Nodup)
    (notNegative : ∀ entry ∈ config.resources, 0 ≤ entry.2) :
    (System.init config).kernel.Conserved config := by
  intro entry member
  have valid : entry.1 ∈ (Kernel.init config).allResources := List.mem_map_of_mem member
  obtain ⟨index, found⟩ := Kernel.resourceIndex_of_valid valid
  have named : (config.resources.map Prod.fst)[index]? = some entry.1 :=
    Kernel.getElem?_resourceIndex found
  obtain ⟨position, bound, rfl⟩ := List.getElem_of_mem member
  have samePosition : position = index := by
    apply (List.getElem?_inj (by simpa using bound) distinct).mp
    rw [named]
    simp [bound]
  subst samePosition
  have available : (System.init config).kernel.quantityResourceInstanceAvailable
      config.resources[position].1 = config.resources[position].2 := by
    rw [Kernel.quantityResourceInstanceAvailable, show (System.init config).kernel.resourceIndex
      config.resources[position].1 = some position from found]
    simp [System.init, Kernel.init, List.getD_eq_getElem?_getD, bound]
  rw [available]
  refine ⟨notNegative _ member, ?_⟩
  simp [System.init, Kernel.init, Kernel.live, Kernel.created]

end System

/-- Resource names are distinct and instance counts are not negative. -/
structure KernelConfig.ResourcesValid (config : KernelConfig) : Prop where
  distinct : (config.resources.map Prod.fst).Nodup
  notNegative : ∀ entry ∈ config.resources, 0 ≤ entry.2

/-- In every run whose pids are fresh, every state conserves the resources if and only if every step
    accounts for the instances: whatever finishes gives back exactly what it holds, and only live
    processes are granted instances or release them. -/
theorem run_conserved_iff (config : KernelConfig) (valid : config.ResourcesValid)
    (events : List Event) (system : System)
    (reaches : run (System.step config) (System.init config) events = some system)
    (fresh : Meets (System.step config) System.CreatesFresh (System.init config) events) :
    Throughout (System.step config) (fun system => system.kernel.Conserved config)
        (System.init config) events ↔
      Meets (System.step config) System.Accounts (System.init config) events :=
  throughout_iff_meets (System.BooksKnown config) (fun known taken => known.step taken)
    (fun known fresh taken conserved => System.conserved_step_iff known fresh taken conserved)
    (.init config) (System.conserved_init valid.distinct valid.notNegative) fresh reaches

/-- The first process is granted the resource, sleeps while it holds it, and ends when it is executed
    again. -/
def sleepsHolding : List Event :=
  dispatchFirst ++
    [.cpuExecute (.wait "REC1") [0, 0, 0, 0] 0, .handleDispatch,
      .cpuExecute (.sleep 5) [0, 0, 0, 0] 1, .handleDispatch, .sleepThread 0, .sleepThread 0] ++
    dispatchNext ++ [.cpuExecute .finish [0, 0, 0, 0] 1, .handleDispatch] ++
    dispatchNext ++ [.cpuExecute .finish [0, 0, 0, 0] 2, .handleDispatch]

theorem run_conserved_iff_witness :
    Throughout (System.step fifoConfig) (fun system => system.kernel.Conserved fifoConfig)
      (System.init fifoConfig) sleepsHolding :=
  (run_conserved_iff fifoConfig ⟨by decide, by decide⟩ sleepsHolding _ rfl (by decide)).mpr
    (by decide)

/-- The first process is granted the only instance and ends in the same turn: the PCB in `queue_exec`
    still lists nothing, so the instance is lost. -/
theorem run_leaks_granted_instance :
    fifoConfig.ResourcesValid ∧ ∃ system,
      run (System.step fifoConfig) (System.init fifoConfig)
          (dispatchFirst ++
            [.cpuExecute (.wait "REC1") [0, 0, 0, 0] 0, .handleDispatch,
              .cpuExecute .finish [0, 0, 0, 0] 1, .handleDispatch]) = some system ∧
      system.kernel.live = {1} ∧ system.kernel.held 1 "REC1" = 0 ∧
      system.kernel.quantityResourceInstanceAvailable "REC1" = 0 ∧
      ¬ system.kernel.Conserved fifoConfig := by
  exact ⟨⟨by decide, by decide⟩, _, rfl, by decide, by decide, by decide, by decide⟩

end OsSimulator
