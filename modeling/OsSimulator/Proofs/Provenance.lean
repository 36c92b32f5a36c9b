/-
Module: OsSimulator.Proofs.Provenance
Purpose: Where the processes come from that the threads put into queues, send to the CPU and let
  sleep: from a queue, from a message of the CPU, from a created thread or from a creation.  As long as
  these are some processes only, every thread keeps to them, whatever it is interleaved with.
Main exports: Memory.PointsTo, Memory.KeepsTo, kernelRely, Code.KeepsTo, Role.keepsTo_code,
  World.KeepsTo, World.KeepsTo.step, World.keepsTo_of_run
-/
import OsSimulator.Lib.Relies
import OsSimulator.Proofs.Queues
import OsSimulator.Proofs.Quiet
import OsSimulator.Proofs.Snapshots

namespace OsSimulator

open Threads Transition

/-- The request makes the kernel call `finish_process`, whatever is available: a WAIT or SIGNAL that is
    refused, or a `FINISH_PROCESS`. -/
def CpuRequest.OnlyFinishes (config : KernelConfig) (pcb : Pcb) : CpuRequest → Prop
  | .finish => True
  | .wait resource => resource ∉ config.resources.map Prod.fst
  | .signal resource => resource ∉ config.resources.map Prod.fst ∨ resource ∉ pcb.resources
  | .interrupt | .sleep _ => False

namespace Memory

variable {config : KernelConfig} {pids : UInt32 → Prop} {memory now after : Memory}
  {process : PcbPointer}

/-- The pointer is valid, and what it points to is one of the processes. -/
def PointsTo (memory : Memory) (pids : UInt32 → Prop) (process : PcbPointer) : Prop :=
  process < memory.pcbs.length ∧ pids (memory.pcb process).pid

/-- Only these processes are in queues, in created threads and on their way to the CPU, and a process
    that is created now is one of them. -/
structure KeepsTo (config : KernelConfig) (pids : UInt32 → Prop) (memory : Memory) : Prop where
  queues : ∀ id, ∀ process ∈ memory.queue id, memory.PointsTo pids process
  createdThreads : ∀ created ∈ memory.createdThreads, memory.PointsTo pids created.1
  cpuDispatchConnection : ∀ sent ∈ memory.cpuDispatchConnection, pids sent.2.pid
  idToAssign : pids memory.idToAssign
  allResources : memory.allResources = config.resources.map Prod.fst

/-- PCBs stay allocated and keep their pids, and those of other processes keep their resources. -/
structure Continues (pids : UInt32 → Prop) (memory now : Memory) : Prop where
  length : memory.pcbs.length ≤ now.pcbs.length
  pid : ∀ process < memory.pcbs.length, (now.pcb process).pid = (memory.pcb process).pid
  resources : ∀ process < memory.pcbs.length, ¬ pids (memory.pcb process).pid →
    (now.pcb process).resources = (memory.pcb process).resources

theorem Continues.of_pcbs (same : now.pcbs = memory.pcbs) : memory.Continues pids now := by
  have pcb : ∀ process, now.pcb process = memory.pcb process := by
    intro process
    rw [Memory.pcb, Memory.pcb, same]
  exact ⟨by rw [same], fun process _ => by rw [pcb], fun process _ _ => by rw [pcb]⟩

theorem Continues.refl (memory : Memory) : memory.Continues pids memory := .of_pcbs rfl

theorem Continues.trans (first : memory.Continues pids now) (second : now.Continues pids after) :
    memory.Continues pids after where
  length := first.length.trans second.length
  pid process inside :=
    (second.pid process (inside.trans_le first.length)).trans (first.pid process inside)
  resources process inside foreign := by
    have still : ¬ pids (now.pcb process).pid := by rwa [first.pid process inside]
    exact (second.resources process (inside.trans_le first.length) still).trans
      (first.resources process inside foreign)

theorem PointsTo.later (points : memory.PointsTo pids process) (later : memory.Continues pids now) :
    now.PointsTo pids process := by
  refine ⟨points.1.trans_le later.length, ?_⟩
  rw [later.pid process points.1]
  exact points.2

/-- A new PCB leaves the old ones as they are. -/
theorem continues_allocate (pcb : Pcb) :
    memory.Continues pids { memory with pcbs := memory.pcbs ++ [pcb] } := by
  have old : ∀ process < memory.pcbs.length,
      (memory.pcbs ++ [pcb]).getD process noPcb = memory.pcb process :=
    fun process inside => by
      rw [Memory.pcb, List.getD_eq_getElem?_getD, List.getD_eq_getElem?_getD,
        List.getElem?_append_left inside]
  refine ⟨?_, ?_, ?_⟩
  · simp
  · intro process inside
    exact congrArg Pcb.pid (old process inside)
  · intro process inside _
    exact congrArg Pcb.resources (old process inside)

/-- A PCB is written to: either it is one of the processes, or it keeps its resources. -/
theorem continues_modifyPcb {change : Pcb → Pcb} (pid : ∀ pcb, (change pcb).pid = pcb.pid)
    (resources : pids (memory.pcb process).pid ∨ ∀ pcb, (change pcb).resources = pcb.resources) :
    memory.Continues pids (memory.modifyPcb process change) := by
  refine ⟨?_, ?_, ?_⟩
  · simp [modifyPcb]
  · intro other inside
    by_cases same : other = process
    · subst same
      rw [pcb_modifyPcb_self inside, pid]
    · rw [pcb_modifyPcb_of_ne same]
  · intro other inside foreign
    by_cases same : other = process
    · subst same
      rcases resources with keeps | unchanged
      · exact absurd keeps foreign
      · rw [pcb_modifyPcb_self inside, unchanged]
    · rw [pcb_modifyPcb_of_ne same]

/-- What the queues and the connections hold now were processes to keep to before. -/
theorem keepsTo_later (later : memory.Continues pids now)
    (queues : ∀ id, ∀ process ∈ now.queue id, memory.PointsTo pids process)
    (createdThreads : ∀ created ∈ now.createdThreads, memory.PointsTo pids created.1)
    (cpuDispatchConnection : ∀ sent ∈ now.cpuDispatchConnection, pids sent.2.pid)
    (idToAssign : pids now.idToAssign)
    (allResources : now.allResources = config.resources.map Prod.fst) : now.KeepsTo config pids where
  queues id process member := (queues id process member).later later
  createdThreads created member := (createdThreads created member).later later
  cpuDispatchConnection := cpuDispatchConnection
  idToAssign := idToAssign
  allResources := allResources

/-- Store a queue. -/
theorem KeepsTo.setQueue (keeps : memory.KeepsTo config pids) (id : QueueId)
    {elements : List PcbPointer} (points : ∀ process ∈ elements, memory.PointsTo pids process) :
    (memory.setQueue elements id).KeepsTo config pids := by
  have queues : ∀ other, ∀ process ∈ (memory.setQueue elements id).queue other,
      memory.PointsTo pids process := by
    intro other process member
    rw [queue_setQueue] at member
    split at member
    · exact points process member
    · exact keeps.queues other process member
  have later : memory.Continues pids (memory.setQueue elements id) :=
    .of_pcbs (pcbs_setQueue id)
  cases id <;> exact keepsTo_later later queues keeps.createdThreads
    keeps.cpuDispatchConnection keeps.idToAssign keeps.allResources

end Memory

namespace Operation

variable {config : KernelConfig} {pids : UInt32 → Prop} {memory after : Memory} {op : Operation}

/-- The process that the operation puts into a queue, sends to the CPU or lets sleep, or whose
    resources it changes. -/
@[simp] def handled : Operation → Option PcbPointer
  | .push _ process | .sendToCpu _ process | .createThread process _ | .addResource process _
  | .removeResource process _ => some process
  | _ => none

/-- The operation handles no process. -/
@[simp] def HandlesNone (op : Operation) : Prop := op.handled = none

/-- The operation handles one of the processes, or none. -/
def KeepsTo (pids : UInt32 → Prop) (memory : Memory) (op : Operation) : Prop :=
  ∀ process ∈ op.handled, memory.PointsTo pids process

theorem HandlesNone.keepsTo (nothing : op.HandlesNone) : op.KeepsTo pids memory := by
  intro process member
  rw [show op.handled = none from nothing] at member
  cases member

theorem continues_perform (keeps : op.KeepsTo pids memory)
    (performed : op.perform config memory = some after) : memory.Continues pids after := by
  cases op with
  | allocate pcb =>
      obtain rfl := Option.some.inj performed
      exact Memory.continues_allocate pcb
  | setState process state | advanceCounter process =>
      obtain rfl := Option.some.inj performed
      exact Memory.continues_modifyPcb (fun _ => rfl) (.inr fun _ => rfl)
  | addResource process resource | removeResource process resource =>
      obtain rfl := Option.some.inj performed
      exact Memory.continues_modifyPcb (fun _ => rfl) (.inl (keeps process rfl).2)
  | push id process | pop id | remove id process | sort =>
      obtain rfl := Option.some.inj performed
      exact .of_pcbs (Memory.pcbs_setQueue _)
  | wait semaphore =>
      obtain ⟨_, result⟩ := Option.ite_none_right_eq_some.mp performed
      obtain rfl := Option.some.inj result
      exact .of_pcbs rfl
  | modifyInstance resource value =>
      simp only [perform] at performed
      split at performed <;> obtain rfl := Option.some.inj performed <;> exact .of_pcbs rfl
  | nullPointer => cases performed
  | post semaphore | init semaphore value | read | readState process | nextId | find id pid
  | sendToCpu header process | sendInterrupt | sendToMemory chunk | createThread process sleepTime =>
      obtain rfl := Option.some.inj performed
      exact .of_pcbs rfl

theorem keepsTo_perform (before : memory.KeepsTo config pids)
    (fresh : op = .nextId → pids (memory.idToAssign + 1)) (keeps : op.KeepsTo pids memory)
    (performed : op.perform config memory = some after) : after.KeepsTo config pids := by
  have later := continues_perform keeps performed
  cases op with
  | push id process =>
      obtain rfl := Option.some.inj performed
      refine before.setQueue id fun other member => ?_
      rcases List.mem_append.mp member with old | new
      · exact before.queues id other old
      · obtain rfl := List.mem_singleton.mp new
        exact keeps other rfl
  | pop id =>
      obtain rfl := Option.some.inj performed
      exact before.setQueue id fun other member =>
        before.queues id other (List.mem_of_mem_tail member)
  | remove id process =>
      obtain rfl := Option.some.inj performed
      exact before.setQueue id fun other member =>
        before.queues id other (List.mem_of_mem_erase member)
  | sort =>
      obtain rfl := Option.some.inj performed
      refine before.setQueue .ready fun other member => ?_
      exact before.queues .ready other (List.mem_mergeSort.mp member)
  | sendToCpu header process =>
      obtain rfl := Option.some.inj performed
      refine Memory.keepsTo_later later before.queues before.createdThreads (fun sent member => ?_)
        before.idToAssign before.allResources
      rcases List.mem_append.mp member with old | new
      · exact before.cpuDispatchConnection sent old
      · obtain rfl := List.mem_singleton.mp new
        exact (keeps process rfl).2
  | createThread process sleepTime =>
      obtain rfl := Option.some.inj performed
      refine Memory.keepsTo_later later before.queues (fun created member => ?_)
        before.cpuDispatchConnection before.idToAssign before.allResources
      rcases List.mem_append.mp member with old | new
      · exact before.createdThreads created old
      · obtain rfl := List.mem_singleton.mp new
        exact keeps process rfl
  | nextId =>
      obtain rfl := Option.some.inj performed
      exact Memory.keepsTo_later later before.queues before.createdThreads before.cpuDispatchConnection
        (fresh rfl) before.allResources
  | wait semaphore =>
      obtain ⟨_, result⟩ := Option.ite_none_right_eq_some.mp performed
      obtain rfl := Option.some.inj result
      exact Memory.keepsTo_later later before.queues before.createdThreads before.cpuDispatchConnection
        before.idToAssign before.allResources
  | modifyInstance resource value =>
      simp only [perform] at performed
      split at performed <;> obtain rfl := Option.some.inj performed <;>
        exact Memory.keepsTo_later later before.queues before.createdThreads before.cpuDispatchConnection
          before.idToAssign before.allResources
  | nullPointer => cases performed
  | post semaphore | init semaphore value | read | readState process | find id pid
  | sendInterrupt | sendToMemory chunk | allocate pcb | setState process state
  | advanceCounter process | addResource process resource | removeResource process resource =>
      obtain rfl := Option.some.inj performed
      exact Memory.keepsTo_later later before.queues before.createdThreads before.cpuDispatchConnection
        before.idToAssign before.allResources

end Operation

/-- What the threads of the kernel rely on, and what they guarantee: they keep to the processes.  The
    counter of pids is assumed to come to none but these. -/
def kernelRely (config : KernelConfig) (pids : UInt32 → Prop) : Rely Operation Memory where
  perform := Operation.perform config
  later := Memory.Continues pids
  holds := Memory.KeepsTo config pids
  assumed memory op := op = .nextId → pids (memory.idToAssign + 1)
  allowed memory op := op.KeepsTo pids memory
  refl := Memory.Continues.refl
  trans := Memory.Continues.trans
  step holds assumed allowed performed :=
    ⟨Operation.continues_perform allowed performed,
      Operation.keepsTo_perform holds assumed allowed performed⟩

namespace Code

variable {config : KernelConfig} {pids : UInt32 → Prop} {memory : Memory} {α β : Type}

/-- The code handles no process. -/
abbrev HandlesNone {α : Type} (code : Code α) : Prop := code.Every Operation.HandlesNone

/-- From `memory` on the code keeps to the processes, and it ends with what `ending` says. -/
abbrev KeepsTo {α : Type} (config : KernelConfig) (pids : UInt32 → Prop) (memory : Memory)
    (ending : Memory → α → Prop) (code : Code α) : Prop :=
  Program.Relies (kernelRely config pids) ending memory code

/-! ### Code that handles no process -/

@[simp] theorem handlesNone_semWait (semaphore : Semaphore) : (semWait semaphore).HandlesNone :=
  ⟨rfl, fun _ => trivial⟩

@[simp] theorem handlesNone_semPost (semaphore : Semaphore) : (semPost semaphore).HandlesNone :=
  ⟨rfl, fun _ => trivial⟩

@[simp] theorem handlesNone_popLocked (id : QueueId) : (popLocked id).HandlesNone := by
  simp [popLocked]

@[simp] theorem handlesNone_removeLocked (id : QueueId) (process : PcbPointer) :
    (removeLocked id process).HandlesNone := by
  simp [removeLocked]

@[simp] theorem handlesNone_sendPcbToMemory (header : OperationCode) (process : PcbPointer) :
    (sendPcbToMemory header process).HandlesNone := by
  simp [sendPcbToMemory, look]

@[simp] theorem handlesNone_buildAllQueuesInList : buildAllQueuesInList.HandlesNone := by
  simp [buildAllQueuesInList, look]

theorem handlesNone_searchQueues (pid : UInt32) (ids : List QueueId) :
    (searchQueues pid ids).HandlesNone :=
  every_searchQueues Operation.HandlesNone (fun id => handlesNone_semWait id.mutex)
    (fun id => handlesNone_semPost id.mutex) (fun _ _ => rfl) pid ids

@[simp] theorem handlesNone_freeResourcesRetained (process : PcbPointer) :
    (freeResourcesRetained process).HandlesNone :=
  every_freeResourcesRetained Operation.HandlesNone rfl (fun _ => rfl) process

@[simp] theorem handlesNone_updateQueueSemaphores (state : ProcessState) :
    (updateQueueSemaphores state).HandlesNone := by
  cases state <;> simp [updateQueueSemaphores]

@[simp] theorem handlesNone_sortQueue : sortQueue.HandlesNone := by
  simp [sortQueue]

@[simp] theorem handlesNone_interruptProcess : interruptProcess.HandlesNone := by
  simp [interruptProcess]

@[simp] theorem handlesNone_modifyMultiprogrammingDegree (newDegree : Int32) :
    (modifyMultiprogrammingDegree newDegree).HandlesNone := by
  unfold modifyMultiprogrammingDegree
  split <;> simp

theorem HandlesNone.keepsTo {code : Code α} (handlesNone : code.HandlesNone) :
    code.KeepsTo config pids memory fun _ _ => True :=
  Program.Every.relies (handlesNone.imp fun _ nothing _ => nothing.keepsTo)

/-- Code that handles no process can be skipped. -/
theorem HandlesNone.bind_keepsTo {code : Code α} {after : α → Code β} {ending : Memory → β → Prop}
    (handlesNone : code.HandlesNone)
    (rest : ∀ last result, memory.Continues pids last →
      (after result).KeepsTo config pids last ending) :
    (code >>= after).KeepsTo config pids memory ending :=
  Program.Relies.bind handlesNone.keepsTo fun last result later _ => rest last result later

/-- An operation on one of the processes. -/
theorem keepsTo_perform {op : Operation} {process : PcbPointer} (handles : op.handled = some process)
    (points : memory.PointsTo pids process) :
    Code.KeepsTo config pids memory (fun _ _ => True) (Program.perform op) := by
  refine Program.relies_perform fun now later _ _ other member => ?_
  obtain rfl := Option.some.inj (handles.symm.trans member)
  exact points.later later

/-! ### Queues -/

/-- What is seen is seen in a state in which only the processes are anywhere. -/
theorem keepsTo_look (value : Memory → α) :
    (look value).KeepsTo config pids memory fun last result =>
      last.KeepsTo config pids ∧ result = value last :=
  Program.relies_observe (fun _ _ _ _ => Operation.HandlesNone.keepsTo rfl)
    fun now after _ holds performed _ => by
      obtain rfl : now = after := Option.some.inj performed
      exact ⟨holds, rfl⟩

theorem keepsTo_pushLocked (id : QueueId) {process : PcbPointer}
    (points : memory.PointsTo pids process) :
    (pushLocked id process).KeepsTo config pids memory fun _ _ => True := by
  refine (handlesNone_semWait _).bind_keepsTo fun locked _ later => ?_
  refine Program.Relies.bind (keepsTo_perform rfl (points.later later)) fun _ _ _ _ => ?_
  exact (handlesNone_semPost _).keepsTo

/-- What was in a queue is one of the processes. -/
theorem keepsTo_popLocked (id : QueueId) :
    (popLocked id).KeepsTo config pids memory fun last found =>
      ∀ process ∈ found, last.PointsTo pids process := by
  refine (handlesNone_semWait _).bind_keepsTo fun locked _ _ => ?_
  have popped : Code.KeepsTo config pids locked
      (fun last found => ∀ process ∈ found, last.PointsTo pids process)
      (Program.observe (.pop id) fun memory => (memory.queue id).head?) := by
    refine Program.relies_observe (fun _ _ _ _ => Operation.HandlesNone.keepsTo rfl) ?_
    intro now after _ holds _ later process member
    exact (holds.queues id process (List.mem_of_mem_head? member)).later later
  refine Program.Relies.bind popped fun last found _ points => ?_
  refine (handlesNone_semPost _).bind_keepsTo fun unlocked _ further process member => ?_
  exact (points process member).later further

theorem keepsTo_dereference {found : Option PcbPointer}
    (points : ∀ process ∈ found, memory.PointsTo pids process) :
    (dereference found).KeepsTo config pids memory fun last process =>
      last.PointsTo pids process := by
  cases found with
  | some process => exact points process rfl
  | none =>
      intro now _ _ _
      refine ⟨Operation.HandlesNone.keepsTo rfl, fun after performed => ?_⟩
      cases performed

/-- Pop a queue and go on with what was popped. -/
theorem keepsTo_popped {id : QueueId} {after : PcbPointer → Code β} {ending : Memory → β → Prop}
    (rest : ∀ last process, memory.Continues pids last → last.PointsTo pids process →
      (after process).KeepsTo config pids last ending) :
    (popLocked id >>= fun element => dereference element >>= after).KeepsTo config pids memory
      ending := by
  refine Program.Relies.bind (keepsTo_popLocked id) fun popped element later points => ?_
  refine Program.Relies.bind (keepsTo_dereference points) fun last process further points => ?_
  exact rest last process (later.trans further) points

/-- A new PCB. -/
theorem keepsTo_allocate (pcb : Pcb) :
    (allocate pcb).KeepsTo config pids memory fun last process =>
      process < last.pcbs.length ∧ last.pcb process = pcb := by
  refine Program.relies_observe (fun _ _ _ _ => Operation.HandlesNone.keepsTo rfl) ?_
  intro now after _ _ performed _
  obtain rfl := Option.some.inj performed
  refine ⟨by simp, ?_⟩
  simp [Memory.pcb, List.getD_eq_getElem?_getD]

/-! ### `finish_process` -/

theorem keepsTo_moveProcessFromBlockToReady {process : PcbPointer} (index : Nat)
    (points : memory.PointsTo pids process) :
    (moveProcessFromBlockToReady process index).KeepsTo config pids memory fun _ _ => True := by
  refine HandlesNone.bind_keepsTo (by simp) fun marked _ later => ?_
  refine Program.Relies.bind (keepsTo_pushLocked .ready (points.later later)) fun _ _ _ _ => ?_
  exact HandlesNone.keepsTo (by simp)

/-- Every process that is woken was in a blocked queue.  By induction on the turns that are left. -/
theorem keepsTo_wakeLoop (index : Nat) (available : Int) (turns position : Nat) :
    (wakeLoop index available turns position).KeepsTo config pids memory fun _ _ => True := by
  induction turns generalizing memory position with
  | zero => trivial
  | succ turns ih =>
      refine HandlesNone.bind_keepsTo (by simp [look]) fun memory size _ => ?_
      split
      · refine HandlesNone.bind_keepsTo (by simp) fun memory _ _ => ?_
        refine Program.Relies.bind (keepsTo_look _) fun memory element _ seen => ?_
        have points : ∀ process ∈ element, memory.PointsTo pids process := by
          intro process member
          rw [seen.2] at member
          exact seen.1.queues (.blocked index) process (List.mem_of_getElem? member)
        refine HandlesNone.bind_keepsTo (by simp) fun memory _ later => ?_
        refine Program.Relies.bind
          (keepsTo_dereference fun process member => (points process member).later later)
          fun memory process _ points => ?_
        refine Program.Relies.bind (keepsTo_moveProcessFromBlockToReady index points)
          fun memory _ _ _ => ?_
        exact ih (position + 1)
      · trivial

theorem keepsTo_wakeQueue (index : Nat) :
    (wakeQueue index).KeepsTo config pids memory fun _ _ => True := by
  refine HandlesNone.bind_keepsTo (by simp [look]) fun memory size _ => ?_
  split
  · refine HandlesNone.bind_keepsTo (by simp [look]) fun memory available _ => ?_
    split
    · exact keepsTo_wakeLoop index available _ _
    · trivial
  · trivial

theorem keepsTo_wakeQueues (indices : List Nat) :
    (wakeQueues indices).KeepsTo config pids memory fun _ _ => True := by
  induction indices generalizing memory with
  | nil => trivial
  | cons index indices ih => exact Program.Relies.bind (keepsTo_wakeQueue index) fun _ _ _ _ => ih

theorem keepsTo_checkProcessInBlockedAndSendToReady :
    checkProcessInBlockedAndSendToReady.KeepsTo config pids memory fun _ _ => True :=
  HandlesNone.bind_keepsTo (by simp [look]) fun _ queues _ => keepsTo_wakeQueues _

/-- What `finish_process` does once the PCB is out of its queue. -/
theorem keepsTo_afterRemove (process : PcbPointer) (previousState : ProcessState) :
    KeepsTo config pids memory (fun _ _ => True) (do
      checkProcessInBlockedAndSendToReady
      sendPcbToMemory .finishProcess process
      updateQueueSemaphores previousState) :=
  Program.Relies.bind keepsTo_checkProcessInBlockedAndSendToReady fun _ _ _ _ =>
    HandlesNone.keepsTo (by simp)

theorem keepsTo_finishProcess (pid : UInt32) :
    (finishProcess pid).KeepsTo config pids memory fun _ _ => True := by
  refine HandlesNone.bind_keepsTo (by simp) fun memory queues _ => ?_
  refine (handlesNone_searchQueues pid queues).bind_keepsTo fun memory found _ => ?_
  cases found with
  | none => trivial
  | some place =>
      obtain ⟨id, process⟩ := place
      refine HandlesNone.bind_keepsTo (by simp) fun memory previousState _ => ?_
      refine HandlesNone.bind_keepsTo (by simp) fun memory _ _ => ?_
      refine HandlesNone.bind_keepsTo (by simp) fun memory _ _ => ?_
      refine HandlesNone.bind_keepsTo (by simp) fun memory _ _ => ?_
      exact keepsTo_afterRemove process previousState

/-! ### Planners and handlers -/

theorem keepsTo_moveProcessToReady :
    moveProcessToReady.KeepsTo config pids memory fun _ _ => True :=
  keepsTo_popped fun popped process _ points =>
    HandlesNone.bind_keepsTo (by simp) fun _ _ later =>
      keepsTo_pushLocked .ready (points.later later)

theorem keepsTo_dispatchProcessToCpu {process : PcbPointer} (header : OperationCode)
    (points : memory.PointsTo pids process) :
    (dispatchProcessToCpu process header).KeepsTo config pids memory fun _ _ => True := by
  refine (handlesNone_semWait _).bind_keepsTo fun locked _ later => ?_
  refine Program.Relies.bind (keepsTo_perform rfl (points.later later)) fun _ _ _ _ => ?_
  exact (handlesNone_semPost _).keepsTo

theorem keepsTo_moveProcessToExec :
    moveProcessToExec.KeepsTo config pids memory fun _ _ => True :=
  keepsTo_popped fun popped process _ points =>
    HandlesNone.bind_keepsTo (by simp) fun marked _ later =>
      Program.Relies.bind (keepsTo_pushLocked .exec (points.later later)) fun _ _ further _ =>
        keepsTo_dispatchProcessToCpu .executeProcess ((points.later later).later further)

theorem keepsTo_moveProcessFromExecToBlocked (index : Nat) :
    (moveProcessFromExecToBlocked index).KeepsTo config pids memory fun _ _ => True :=
  keepsTo_popped fun popped process _ points =>
    HandlesNone.bind_keepsTo (by simp) fun _ _ later =>
      HandlesNone.bind_keepsTo (by simp) fun _ _ further =>
        Program.Relies.bind (keepsTo_pushLocked (.blocked index) ((points.later later).later further))
          fun _ _ _ _ => HandlesNone.keepsTo (by simp)

/-- The long-term planner admits what is in `queue_new`. -/
theorem keepsTo_longTermPlanner : longTermPlanner.KeepsTo config pids memory fun _ _ => True := by
  refine HandlesNone.bind_keepsTo (by simp) fun memory _ _ => ?_
  refine HandlesNone.bind_keepsTo (by simp) fun memory _ _ => ?_
  refine HandlesNone.bind_keepsTo (by simp) fun memory _ _ => ?_
  refine Program.Relies.bind keepsTo_moveProcessToReady fun memory _ _ _ => ?_
  exact HandlesNone.keepsTo (by simp)

/-- The short-term planner dispatches what is in `queue_ready`. -/
theorem keepsTo_shortTermPlanner :
    (shortTermPlanner config).KeepsTo config pids memory fun _ _ => True := by
  have dispatches : ∀ (before after : Code Unit) (start : Memory), before.HandlesNone →
      after.HandlesNone →
      (before >>= fun _ => moveProcessToExec >>= fun _ => after).KeepsTo config pids start
        fun _ _ => True := by
    intro before after start nothingBefore nothingAfter
    refine nothingBefore.bind_keepsTo fun memory _ _ => ?_
    exact Program.Relies.bind keepsTo_moveProcessToExec fun _ _ _ _ => nothingAfter.keepsTo
  rcases shortTermPlanner_cases config with planner | planner | planner | planner <;> rw [planner]
  · refine HandlesNone.bind_keepsTo (by simp) fun memory _ _ => ?_
    refine HandlesNone.bind_keepsTo (by simp) fun memory _ _ => ?_
    refine HandlesNone.bind_keepsTo (by simp) fun memory _ _ => ?_
    exact dispatches _ _ memory (by simp) (by simp)
  · refine HandlesNone.bind_keepsTo (by simp) fun memory _ _ => ?_
    refine HandlesNone.bind_keepsTo (by simp) fun memory _ _ => ?_
    refine HandlesNone.bind_keepsTo (by simp) fun memory _ _ => ?_
    exact dispatches _ _ memory (by simp) (by simp)
  · refine HandlesNone.bind_keepsTo (by simp) fun memory _ _ => ?_
    refine HandlesNone.bind_keepsTo (by simp) fun memory _ _ => ?_
    refine HandlesNone.bind_keepsTo (by simp) fun memory _ _ => ?_
    refine HandlesNone.bind_keepsTo (by simp) fun memory _ _ => ?_
    exact dispatches _ _ memory (by simp) (by simp)
  · trivial

/-- A WAIT by one of the processes, or one that is refused. -/
theorem keepsTo_handleWaitInterruption {process : PcbPointer} {resource : String}
    (answers : memory.PointsTo pids process ∨ resource ∉ config.resources.map Prod.fst) :
    (handleWaitInterruption process resource).KeepsTo config pids memory fun _ _ => True := by
  refine Program.Relies.bind (keepsTo_look _) fun first valid later seen => ?_
  obtain ⟨keeps, rfl⟩ := seen
  split
  · rename_i valid
    have known : resource ∈ config.resources.map Prod.fst := by
      rw [← keeps.allResources]
      exact findResource_isSome.mp valid
    have points : first.PointsTo pids process :=
      (answers.resolve_right fun unknown => unknown known).later later
    refine HandlesNone.bind_keepsTo (by simp [look]) fun second available further => ?_
    split
    · replace points := points.later further
      refine HandlesNone.bind_keepsTo (by simp) fun third _ further => ?_
      replace points := points.later further
      refine Program.Relies.bind (keepsTo_perform rfl points) fun fourth _ further _ => ?_
      replace points := points.later further
      refine HandlesNone.bind_keepsTo (by simp) fun fifth _ further => ?_
      exact keepsTo_perform rfl (points.later further)
    · refine HandlesNone.bind_keepsTo (by simp [look]) fun _ index _ => ?_
      exact keepsTo_moveProcessFromExecToBlocked index
  · refine HandlesNone.bind_keepsTo (by simp [look]) fun _ pid _ => ?_
    exact keepsTo_finishProcess pid

/-- A SIGNAL by one of the processes, or one that is refused. -/
theorem keepsTo_handleSignalInterruption {process : PcbPointer} {resource : String}
    (answers : memory.PointsTo pids process ∨ resource ∉ config.resources.map Prod.fst ∨
      process < memory.pcbs.length ∧ ¬ pids (memory.pcb process).pid ∧
        resource ∉ (memory.pcb process).resources) :
    (handleSignalInterruption process resource).KeepsTo config pids memory fun _ _ => True := by
  refine Program.Relies.bind (keepsTo_look _) fun first valid later seen => ?_
  obtain ⟨keeps, rfl⟩ := seen
  split
  · rename_i valid
    have known : resource ∈ config.resources.map Prod.fst := by
      rw [← keeps.allResources]
      exact findResource_isSome.mp valid
    refine Program.Relies.bind (keepsTo_look _) fun second held further seen => ?_
    obtain ⟨_, rfl⟩ := seen
    replace later := later.trans further
    split
    · rename_i held
      have points : second.PointsTo pids process := by
        rcases answers with points | unknown | ⟨inside, foreign, notHeld⟩
        · exact points.later later
        · exact absurd known unknown
        · rw [later.resources process inside foreign] at held
          exact absurd (findResource_isSome.mp held) notHeld
      refine HandlesNone.bind_keepsTo (by simp) fun third _ further => ?_
      replace points := points.later further
      refine Program.Relies.bind (keepsTo_perform rfl points) fun fourth _ further _ => ?_
      replace points := points.later further
      refine HandlesNone.bind_keepsTo (by simp) fun fifth _ further => ?_
      exact keepsTo_perform rfl (points.later further)
    · refine HandlesNone.bind_keepsTo (by simp [look]) fun _ pid _ => ?_
      exact keepsTo_finishProcess pid
  · refine HandlesNone.bind_keepsTo (by simp [look]) fun _ pid _ => ?_
    exact keepsTo_finishProcess pid

theorem keepsTo_handleInterrupt {process : PcbPointer} (points : memory.PointsTo pids process) :
    (handleInterrupt process).KeepsTo config pids memory fun _ _ => True := by
  refine (handlesNone_popLocked .exec).bind_keepsTo fun first _ later => ?_
  refine HandlesNone.bind_keepsTo (by simp) fun second _ further => ?_
  replace later := later.trans further
  refine HandlesNone.bind_keepsTo (by simp) fun third _ further => ?_
  refine Program.Relies.bind (keepsTo_pushLocked .ready (points.later (later.trans further)))
    fun _ _ _ _ => ?_
  exact HandlesNone.keepsTo (by simp)

/-- A sleep thread puts back what it was given. -/
theorem keepsTo_threadSleepProcess {process : PcbPointer} (points : memory.PointsTo pids process) :
    (threadSleepProcess process).KeepsTo config pids memory fun _ _ => True := by
  refine (handlesNone_popLocked .exec).bind_keepsTo fun first _ later => ?_
  refine HandlesNone.bind_keepsTo (by simp) fun second _ further => ?_
  replace later := later.trans further
  refine HandlesNone.bind_keepsTo (by simp) fun third _ further => ?_
  refine Program.Relies.bind (keepsTo_pushLocked .ready (points.later (later.trans further)))
    fun _ _ _ _ => ?_
  exact HandlesNone.keepsTo (by simp)

/-- A message about one of the processes, or one that only calls `finish_process`. -/
theorem keepsTo_handleDispatchConnection {message : Message}
    (answers : pids message.pcb.pid ∨ message.request.OnlyFinishes config message.pcb) :
    (handleDispatchConnection message).KeepsTo config pids memory fun _ _ => True := by
  obtain ⟨request, pcb⟩ := message
  refine HandlesNone.bind_keepsTo (by simp) fun _ _ _ => ?_
  refine HandlesNone.bind_keepsTo (by simp) fun _ _ _ => ?_
  refine Program.Relies.bind (keepsTo_allocate pcb) fun allocated process _ copied => ?_
  obtain ⟨inside, copy⟩ := copied
  have points : pids pcb.pid → allocated.PointsTo pids process := fun mine =>
    ⟨inside, by rwa [copy]⟩
  cases request with
  | finish => exact keepsTo_finishProcess pcb.pid
  | interrupt => exact keepsTo_handleInterrupt (points (answers.resolve_right id))
  | wait resource => exact keepsTo_handleWaitInterruption (answers.imp_left points)
  | signal resource =>
      apply keepsTo_handleSignalInterruption
      by_cases mine : pids pcb.pid
      · exact .inl (points mine)
      · rw [copy]
        exact .inr ((answers.resolve_left mine).imp_right fun notHeld => ⟨inside, mine, notHeld⟩)
  | sleep time =>
      refine Program.Relies.bind (keepsTo_perform rfl (points (answers.resolve_right id)))
        fun _ _ _ _ => ?_
      exact HandlesNone.keepsTo (by simp)

/-- A process that is created is one of those that may be created. -/
theorem keepsTo_receivePcbAndCreate (path : String) (quantum clientSocket : Int32) :
    (receivePcbAndCreate path quantum clientSocket).KeepsTo config pids memory fun last process =>
      last.PointsTo pids process := by
  refine Program.Relies.bind (keepsTo_look _) fun first pid _ seen => ?_
  obtain ⟨keeps, rfl⟩ := seen
  refine Program.Relies.bind (keepsTo_allocate _) fun second process _ created => ?_
  have points : second.PointsTo pids process := by
    refine ⟨created.1, ?_⟩
    rw [created.2]
    exact keeps.idToAssign
  exact HandlesNone.bind_keepsTo (by simp) fun third _ later => points.later later

theorem keepsTo_moveProcessToNew {process : PcbPointer} (points : memory.PointsTo pids process) :
    (moveProcessToNew process).KeepsTo config pids memory fun _ _ => True := by
  refine HandlesNone.bind_keepsTo (by simp) fun sent _ later => ?_
  refine Program.Relies.bind (keepsTo_pushLocked .new (points.later later)) fun _ _ _ _ => ?_
  exact HandlesNone.keepsTo (by simp)

theorem keepsTo_handlerConnection (command : Command) :
    (handlerConnection command).KeepsTo config pids memory fun _ _ => True := by
  cases command with
  | createProcess path quantum clientSocket =>
      exact Program.Relies.bind (keepsTo_receivePcbAndCreate path quantum clientSocket)
        fun _ _ _ points => keepsTo_moveProcessToNew points
  | finishProcess pid => exact keepsTo_finishProcess pid
  | startPlanning | stopPlanning => exact HandlesNone.keepsTo (by simp [handlerConnection])
  | modifyMultiprogrammingDegree newDegree =>
      exact (handlesNone_modifyMultiprogrammingDegree newDegree).keepsTo
  | showAllProcesses => exact handlesNone_buildAllQueuesInList.bind_keepsTo fun _ _ _ => trivial

end Code

/-- What the threads of the role have to do is about the processes. -/
def Role.KeepsTo (config : KernelConfig) (pids : UInt32 → Prop) (memory : Memory) : Role → Prop
  | .dispatchHandler (some message) =>
      pids message.pcb.pid ∨ message.request.OnlyFinishes config message.pcb
  | .sleeper process _ => memory.PointsTo pids process
  | .dispatchHandler none | .longTermPlanner | .shortTermPlanner | .console _ => True

/-- Every thread of the kernel keeps to the processes, if it has to do with these. -/
theorem Role.keepsTo_code {config : KernelConfig} {pids : UInt32 → Prop} {memory : Memory}
    {role : Role} (keeps : role.KeepsTo config pids memory) :
    (role.code config).KeepsTo config pids memory fun _ _ => True := by
  cases role with
  | longTermPlanner => exact Code.keepsTo_longTermPlanner
  | shortTermPlanner => exact Code.keepsTo_shortTermPlanner
  | dispatchHandler message =>
      cases message with
      | none => trivial
      | some message => exact Code.keepsTo_handleDispatchConnection keeps
  | console command =>
      cases command with
      | none => trivial
      | some command => exact Code.keepsTo_handlerConnection command
  | sleeper process sleepTime => exact Code.keepsTo_threadSleepProcess keeps

namespace World

variable {config : KernelConfig} {pids : UInt32 → Prop} {world next : World} {event : WorldEvent}

/-- In the whole kernel and at the CPU there are only these processes, but for messages that only call
    `finish_process`. -/
structure KeepsTo (config : KernelConfig) (pids : UInt32 → Prop) (world : World) : Prop where
  pool : world.pool.Relies (kernelRely config pids)
  messages : ∀ message ∈ world.cpuMessages,
    pids message.pcb.pid ∨ message.request.OnlyFinishes config message.pcb

/-- `id_to_assign` only comes to pids that the kernel keeps to. -/
def AssignsOnly (pids : UInt32 → Prop) (world : World) : WorldEvent → Prop
  | .advance index => world.pool.nextOp index = some .nextId → pids (world.memory.idToAssign + 1)
  | _ => True

/-- What is performed next is performed on one of the processes. -/
theorem KeepsTo.nextOp {index : Nat} {op : Operation} (keeps : world.KeepsTo config pids)
    (assigns : world.AssignsOnly pids (.advance index)) (next : world.pool.nextOp index = some op) :
    op.KeepsTo pids world.memory := by
  obtain ⟨thread, at_index, nextOp⟩ := Option.bind_eq_some_iff.mp next
  refine keeps.pool.allowed at_index nextOp fun is => ?_
  subst is
  exact assigns next

/-- The step lemma. -/
theorem KeepsTo.step (keeps : world.KeepsTo config pids) (assigns : world.AssignsOnly pids event)
    (stepped : world.step config event = some next) : next.KeepsTo config pids := by
  have holds : world.memory.KeepsTo config pids := keeps.pool.holds
  cases step_cases stepped with
  | advances advanced =>
      refine ⟨keeps.pool.advance (fun op nextOp is => ?_) advanced, keeps.messages⟩
      subst is
      exact assigns nextOp
  | iterates at_index idle same planner =>
      refine ⟨keeps.pool.set (Role.keepsTo_code ?_), keeps.messages⟩
      rcases planner with rfl | rfl <;> trivial
  | commands at_index idle console =>
      exact ⟨keeps.pool.set (Role.keepsTo_code trivial), keeps.messages⟩
  | @receives index thread message rest old at_index idle handler head =>
      have answers := keeps.messages message (by rw [head]; exact List.mem_cons_self)
      refine ⟨keeps.pool.set (Role.keepsTo_code answers), fun other member => ?_⟩
      exact keeps.messages other (by rw [head]; exact List.mem_cons_of_mem _ member)
  | connects => exact ⟨keeps.pool.spawn (Role.keepsTo_code trivial), keeps.messages⟩
  | @startsSleeper process sleepTime rest head =>
      have created : ∀ entry ∈ (process, sleepTime) :: rest, world.memory.PointsTo pids entry.1 := by
        rw [← head]
        exact holds.createdThreads
      have later : world.memory.Continues pids { world.memory with createdThreads := rest } :=
        .of_pcbs rfl
      have points := (created _ List.mem_cons_self).later later
      refine ⟨(keeps.pool.environment later ?_).spawn (Role.keepsTo_code points), keeps.messages⟩
      exact Memory.keepsTo_later later holds.queues
        (fun entry member => created entry (List.mem_cons_of_mem _ member))
        holds.cpuDispatchConnection holds.idToAssign holds.allResources
  | @executes request cpuRegister programCounter header process rest head =>
      have sent : ∀ entry ∈ (header, process) :: rest, pids entry.2.pid := by
        rw [← head]
        exact holds.cpuDispatchConnection
      have later : world.memory.Continues pids { world.memory with cpuDispatchConnection := rest } :=
        .of_pcbs rfl
      refine ⟨keeps.pool.environment later ?_, fun message member => ?_⟩
      · exact Memory.keepsTo_later later holds.queues holds.createdThreads
          (fun entry member => sent entry (List.mem_cons_of_mem _ member)) holds.idToAssign
          holds.allResources
      · rcases List.mem_append.mp member with old | new
        · exact keeps.messages message old
        · obtain rfl := List.mem_singleton.mp new
          exact .inl (sent _ List.mem_cons_self)
  | readsInterrupt =>
      have later : world.memory.Continues pids
          { world.memory with interruptHeaders := world.memory.interruptHeaders - 1 } := .of_pcbs rfl
      refine ⟨keeps.pool.environment later ?_, keeps.messages⟩
      exact Memory.keepsTo_later later holds.queues holds.createdThreads holds.cpuDispatchConnection
        holds.idToAssign holds.allResources

/-- At the beginning there is no process at all. -/
theorem KeepsTo.init (config : KernelConfig) : (World.init config).KeepsTo config fun _ => True := by
  refine ⟨⟨?_, ?_⟩, ?_⟩
  · have none : ∀ id, (Memory.init config).queue id = [] := by
      intro id
      cases id with
      | new | ready | exec => rfl
      | blocked index =>
          by_cases inside : index < config.resources.length <;>
            simp [Memory.queue, Memory.init, List.getD_eq_getElem?_getD, inside]
    refine ⟨fun id process member => ?_, fun created member => ?_, fun sent member => ?_, trivial, rfl⟩
    · change process ∈ (Memory.init config).queue id at member
      rw [none id] at member
      cases member
    · cases member
    · cases member
  · intro thread member
    simp only [World.init, List.mem_cons, List.not_mem_nil, or_false] at member
    rcases member with rfl | rfl | rfl
    · exact Code.keepsTo_longTermPlanner
    · exact Code.keepsTo_shortTermPlanner
    · trivial
  · intro message member
    cases member

/-- In every run all pointers that are in use are valid. -/
theorem keepsTo_of_run {events : List WorldEvent}
    (reaches : run (World.step config) (World.init config) events = some world) :
    world.KeepsTo config fun _ => True := by
  refine invariant_of_run (fun world => world.KeepsTo config fun _ => True) ?_ (.init config) reaches
  intro state event after keeps stepped
  refine keeps.step ?_ stepped
  cases event <;> simp [AssignsOnly]

end World

end OsSimulator
