/-
Module: OsSimulator.Proofs.History
Purpose: What the trace of the kernel says: which pids were created, admitted and finished, and which
  degree was set last.  While the 32-bit counter has not wrapped around, the next pid is fresh.
Main exports: Kernel.created, Kernel.finished, Kernel.admitted, Kernel.Live, Kernel.PidCounter,
  SkipsMessages
-/
import OsSimulator.Proofs.Handlers

namespace OsSimulator

namespace KernelEvent

/-- The pid of a line "Process was created with ID". -/
def createdPid? : KernelEvent → Option UInt32
  | .created pid => some pid
  | _ => none

/-- The pid of a line "Process with pid has been finished". -/
def finishedPid? : KernelEvent → Option UInt32
  | .finished pid => some pid
  | _ => none

/-- The pid of a line that tells of a process going from NEW to READY. -/
def admittedPid? : KernelEvent → Option UInt32
  | .newToReady pid => some pid
  | _ => none

/-- The degree that a `MODIFY_MULTIPROGRAMMING_DEGREE` asked for. -/
def newDegree? : KernelEvent → Option Int
  | .newDegree degree => some degree
  | _ => none

end KernelEvent

/-! ### Projections of the trace -/

section Projections

variable {β : Type}

/-- The projection skips the lines that `finish_process` writes. -/
structure SkipsFinish (project : KernelEvent → Option β) : Prop where
  blockedToReady : ∀ pid index, project (.blockedToReady pid index) = none
  finished : ∀ pid, project (.finished pid) = none
  notFound : ∀ pid, project (.notFound pid) = none
  sentToMemory : ∀ header pcb, project (.sentToMemory header pcb) = none

/-- The projection skips all the lines that a message handler writes. -/
structure SkipsMessages (project : KernelEvent → Option β) : Prop extends SkipsFinish project where
  received : ∀ message, project (.received message) = none
  granted : ∀ pid resource, project (.granted pid resource) = none
  released : ∀ pid resource, project (.released pid resource) = none
  execToBlocked : ∀ pid, project (.execToBlocked pid) = none
  deadlock : ∀ pid retained required, project (.deadlock pid retained required) = none
  sentToCpu : ∀ header pcb, project (.sentToCpu header pcb) = none

theorem createdPid?_skips : SkipsMessages KernelEvent.createdPid? := by
  constructor
  · constructor <;> intros <;> rfl
  all_goals intros; rfl

theorem admittedPid?_skips : SkipsMessages KernelEvent.admittedPid? := by
  constructor
  · constructor <;> intros <;> rfl
  all_goals intros; rfl

theorem newDegree?_skips : SkipsMessages KernelEvent.newDegree? := by
  constructor
  · constructor <;> intros <;> rfl
  all_goals intros; rfl

variable {project : KernelEvent → Option β}

/-- A projection that skips the wake-ups sees only the removal itself. -/
theorem Kernel.Finishes.filterMap_trace {pid : UInt32} {kernel next middle : Kernel} {id : QueueId}
    {process : Pcb} {woken : List Pcb}
    (finishes : Kernel.Finishes pid kernel next id process woken middle)
    (skips : ∀ pid index, project (.blockedToReady pid index) = none) :
    next.trace.filterMap project =
      ([.sentToMemory .finishProcess (process.setState .exit), .finished pid].filterMap project) ++
        kernel.trace.filterMap project := by
  obtain ⟨lines, trace, kind⟩ := finishes.trace
  have silent : lines.filterMap project = [] := by
    apply List.filterMap_eq_nil_iff.mpr
    intro line member
    obtain ⟨pid, index, rfl⟩ := kind line member
    exact skips pid index
  have shape : next.trace =
      [.sentToMemory .finishProcess (process.setState .exit), .finished pid] ++
        (lines ++ kernel.trace) := trace
  rw [shape, List.filterMap_append, List.filterMap_append, silent, List.nil_append]

theorem filterMap_finishProcess {pid : UInt32} {kernel next : Kernel}
    (skips : SkipsFinish project) (finished : kernel.finishProcess pid = some next) :
    next.trace.filterMap project = kernel.trace.filterMap project := by
  rcases Kernel.finishProcess_cases finished with
    ⟨_, rfl⟩ | ⟨id, process, woken, middle, finishes⟩
  · simp [skips.notFound]
  · rw [finishes.filterMap_trace skips.blockedToReady]
    simp [skips.sentToMemory, skips.finished]

theorem filterMap_dispatchEffect {message : Message} {kernel next : Kernel}
    (skips : SkipsMessages project) (effect : Kernel.DispatchEffect message kernel next) :
    next.trace.filterMap project = kernel.trace.filterMap project := by
  cases effect with
  | finishes _ finished =>
      rw [filterMap_finishProcess skips.toSkipsFinish finished]
      simp [skips.received]
  | interrupts _ result =>
      subst result
      simp [Kernel.handleInterrupt, Kernel.queuePush, skips.received]
  | grants _ _ _ _ result =>
      subst result
      simp [Kernel.removeResourceInstance, skips.received, skips.granted, skips.sentToCpu]
  | blocks _ _ _ _ _ _ _ lines kind result =>
      subst result
      have silent : lines.filterMap project = [] := by
        apply List.filterMap_eq_nil_iff.mpr
        intro line member
        obtain ⟨pid, retained, required, rfl⟩ := kind line member
        exact skips.deadlock pid retained required
      simp [silent, skips.received, skips.execToBlocked]
  | releases _ _ _ _ result =>
      subst result
      simp [Kernel.addResourceInstance, skips.received, skips.released, skips.sentToCpu]
  | sleeps _ _ result =>
      subst result
      simp [Kernel.handleSleepInterruption, skips.received]

end Projections

namespace Kernel

/-- The pids of all processes created so far, the newest first. -/
def created (kernel : Kernel) : List UInt32 := kernel.trace.filterMap KernelEvent.createdPid?

/-- The pids of all processes that `finish_process` has taken out of a queue. -/
def finished (kernel : Kernel) : List UInt32 := kernel.trace.filterMap KernelEvent.finishedPid?

/-- The pids of all processes that the long-term planner has admitted. -/
def admitted (kernel : Kernel) : List UInt32 := kernel.trace.filterMap KernelEvent.admittedPid?

/-- Created and not finished. -/
def Live (kernel : Kernel) (pid : UInt32) : Prop :=
  pid ∈ kernel.created ∧ pid ∉ kernel.finished

instance (kernel : Kernel) (pid : UInt32) : Decidable (kernel.Live pid) :=
  inferInstanceAs (Decidable (_ ∧ _))

theorem created_finishProcess {pid : UInt32} {kernel next : Kernel}
    (finished : kernel.finishProcess pid = some next) : next.created = kernel.created :=
  filterMap_finishProcess createdPid?_skips.toSkipsFinish finished

theorem created_dispatchEffect {message : Message} {kernel next : Kernel}
    (effect : DispatchEffect message kernel next) : next.created = kernel.created :=
  filterMap_dispatchEffect createdPid?_skips effect

theorem admitted_finishProcess {pid : UInt32} {kernel next : Kernel}
    (finished : kernel.finishProcess pid = some next) : next.admitted = kernel.admitted :=
  filterMap_finishProcess admittedPid?_skips.toSkipsFinish finished

theorem admitted_dispatchEffect {message : Message} {kernel next : Kernel}
    (effect : DispatchEffect message kernel next) : next.admitted = kernel.admitted :=
  filterMap_dispatchEffect admittedPid?_skips effect

/-- The pid that was found is the one new entry among the finished ones. -/
theorem Finishes.finished {pid : UInt32} {kernel next middle : Kernel} {id : QueueId}
    {process : Pcb} {woken : List Pcb}
    (finishes : Finishes pid kernel next id process woken middle) :
    next.finished = pid :: kernel.finished :=
  finishes.filterMap_trace fun _ _ => rfl

theorem Finishes.created {pid : UInt32} {kernel next middle : Kernel} {id : QueueId}
    {process : Pcb} {woken : List Pcb}
    (finishes : Finishes pid kernel next id process woken middle) :
    next.created = kernel.created :=
  finishes.filterMap_trace fun _ _ => rfl

/-- A message finishes a process only by calling `finish_process`. -/
theorem finished_dispatchEffect {message : Message} {kernel next : Kernel}
    (effect : DispatchEffect message kernel next) :
    (next.finished = kernel.finished ∧ next.sem .multiprogrammingDegree =
        kernel.sem .multiprogrammingDegree) ∨
      (message.request.CallsFinish message.pcb kernel ∧
        (kernel.log (.received message)).finishProcess message.pcb.pid = some next) := by
  cases effect with
  | finishes calls finished => exact .inr ⟨calls, finished⟩
  | interrupts _ result =>
      subst result
      simp [handleInterrupt, queuePush, Kernel.finished, KernelEvent.finishedPid?,
        List.filterMap_cons]
  | grants _ _ _ _ result =>
      subst result
      simp [removeResourceInstance, Kernel.finished, KernelEvent.finishedPid?, List.filterMap_cons]
  | blocks _ _ _ _ _ _ _ lines kind result =>
      subst result
      have silent : lines.filterMap KernelEvent.finishedPid? = [] := by
        apply List.filterMap_eq_nil_iff.mpr
        intro line member
        obtain ⟨pid, retained, required, rfl⟩ := kind line member
        rfl
      simp [Kernel.finished, KernelEvent.finishedPid?, List.filterMap_cons, silent, pushBlocked_sem]
  | releases _ _ _ _ result =>
      subst result
      simp [addResourceInstance, Kernel.finished, KernelEvent.finishedPid?, List.filterMap_cons]
  | sleeps _ _ result =>
      subst result
      simp [handleSleepInterruption, Kernel.finished, KernelEvent.finishedPid?,
        List.filterMap_cons]

theorem idToAssign_finishProcess {pid : UInt32} {kernel next : Kernel}
    (finished : kernel.finishProcess pid = some next) :
    next.idToAssign = kernel.idToAssign := by
  rcases finishProcess_cases finished with ⟨_, rfl⟩ | ⟨id, process, woken, middle, finishes⟩
  · simp
  · exact finishes.fields.2.2.2.2.2.2.1

theorem idToAssign_dispatchEffect {message : Message} {kernel next : Kernel}
    (effect : DispatchEffect message kernel next) : next.idToAssign = kernel.idToAssign := by
  cases effect with
  | finishes _ finished => exact (idToAssign_finishProcess finished).trans (by simp)
  | interrupts _ result => subst result; simp [handleInterrupt, queuePush]
  | grants _ _ _ _ result => subst result; simp [removeResourceInstance]
  | blocks _ _ _ _ _ _ _ _ _ result => subst result; simp
  | releases _ _ _ _ result => subst result; simp [addResourceInstance]
  | sleeps _ _ result => subst result; simp [handleSleepInterruption]

theorem created_receivePcbAndCreate (kernel : Kernel) (path : String)
    (quantum clientSocket : Int32) :
    (kernel.receivePcbAndCreate path quantum clientSocket).created =
      kernel.idToAssign :: kernel.created := by
  simp [receivePcbAndCreate, moveProcessToNew, queuePush, sendToMemory, Kernel.created,
    KernelEvent.createdPid?, createPcb, List.filterMap_cons]

/-! ### The pid counter -/

/-- `id_to_assign` counts the creations modulo `2 ^ 32`, and every pid was a value of the counter. -/
structure PidCounter (kernel : Kernel) : Prop where
  next : kernel.idToAssign = UInt32.ofNat kernel.created.length
  earlier : ∀ pid ∈ kernel.created, pid.toNat < kernel.created.length

/-- Until the counter wraps around, the next pid has not been given to any process. -/
theorem PidCounter.fresh {kernel : Kernel} (counter : kernel.PidCounter)
    (bound : kernel.created.length < 2 ^ 32) : kernel.idToAssign ∉ kernel.created := by
  intro member
  have smaller := counter.earlier _ member
  rw [counter.next, UInt32.toNat_ofNat_of_lt' (by simpa [UInt32.size] using bound)] at smaller
  exact Nat.lt_irrefl _ smaller

theorem PidCounter.init (config : KernelConfig) : (Kernel.init config).PidCounter where
  next := rfl
  earlier := by simp [Kernel.init, Kernel.created]

theorem PidCounter.congr {kernel next : Kernel} (counter : kernel.PidCounter)
    (created : next.created = kernel.created) (idToAssign : next.idToAssign = kernel.idToAssign) :
    next.PidCounter where
  next := by rw [idToAssign, created, counter.next]
  earlier := by rw [created]; exact counter.earlier

theorem PidCounter.receivePcbAndCreate {kernel : Kernel} (counter : kernel.PidCounter)
    (path : String) (quantum clientSocket : Int32) :
    (kernel.receivePcbAndCreate path quantum clientSocket).PidCounter where
  next := by
    rw [created_receivePcbAndCreate, List.length_cons, UInt32.ofNat_add, ← counter.next]
    simp [Kernel.receivePcbAndCreate, moveProcessToNew, queuePush, sendToMemory]
  earlier := by
    rw [created_receivePcbAndCreate]
    intro pid member
    rw [List.length_cons]
    rcases List.mem_cons.mp member with rfl | old
    · rw [counter.next, UInt32.toNat_ofNat']
      exact Nat.lt_succ_of_le (Nat.mod_le _ _)
    · exact Nat.lt_succ_of_lt (counter.earlier pid old)

end Kernel

end OsSimulator
