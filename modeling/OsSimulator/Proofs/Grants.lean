/-
Module: OsSimulator.Proofs.Grants
Purpose: The code that grants nothing: it neither uses the semaphore of the CPU or of the degree of
  multiprogramming, nor sends to the CPU, nor takes a process off `queue_new`.
Main exports: Operation.isGrant, Code.NoGrant
-/
import OsSimulator.Proofs.Quiet

namespace OsSimulator

open Threads

namespace Operation

/-- The operation is on `sem_cpu_available` or `sem_multiprogramming_degree`, sends to the CPU, or takes a
    process off `queue_new`. -/
@[simp] def isGrant : Operation → Bool
  | .wait semaphore | .post semaphore | .init semaphore _ =>
      semaphore = .cpuAvailable ∨ semaphore = .multiprogrammingDegree
  | .sendToCpu .. => true
  | .pop id => id = .new
  | _ => false

/-- The operation grants nothing. -/
@[simp] def NoGrant (op : Operation) : Prop := op.isGrant = false

end Operation

namespace Code

/-- The code grants nothing. -/
abbrev NoGrant {α : Type} (code : Code α) : Prop := code.Every Operation.NoGrant

theorem noGrant_semWait {semaphore : Semaphore}
    (other : (Operation.wait semaphore).isGrant = false) : (semWait semaphore).NoGrant :=
  ⟨other, fun _ => trivial⟩

theorem noGrant_semPost {semaphore : Semaphore}
    (other : (Operation.post semaphore).isGrant = false) : (semPost semaphore).NoGrant :=
  ⟨other, fun _ => trivial⟩

/-- The mutexes of the queues are neither of the two semaphores. -/
@[simp] theorem noGrant_semWait_mutex (id : QueueId) : (semWait id.mutex).NoGrant := by
  cases id <;> exact noGrant_semWait rfl

@[simp] theorem noGrant_semPost_mutex (id : QueueId) : (semPost id.mutex).NoGrant := by
  cases id <;> exact noGrant_semPost rfl

@[simp] theorem noGrant_dereference (process : Option PcbPointer) :
    (dereference process).NoGrant := every_dereference Operation.NoGrant rfl process

@[simp] theorem noGrant_pushLocked (id : QueueId) (process : PcbPointer) :
    (pushLocked id process).NoGrant := by
  simp [pushLocked]

@[simp] theorem noGrant_removeLocked (id : QueueId) (process : PcbPointer) :
    (removeLocked id process).NoGrant := by
  simp [removeLocked]

/-- Only what is popped off `queue_new` is granted something. -/
theorem noGrant_popLocked {id : QueueId} (other : id ≠ .new) : (popLocked id).NoGrant := by
  simp [popLocked, other]

@[simp] theorem noGrant_sendPcbToMemory (header : OperationCode) (process : PcbPointer) :
    (sendPcbToMemory header process).NoGrant := by
  simp [sendPcbToMemory, look]

@[simp] theorem noGrant_buildAllQueuesInList : buildAllQueuesInList.NoGrant := by
  simp [buildAllQueuesInList, semWait, semPost, look]

theorem noGrant_searchQueues (pid : UInt32) (ids : List QueueId) :
    (searchQueues pid ids).NoGrant :=
  every_searchQueues Operation.NoGrant noGrant_semWait_mutex noGrant_semPost_mutex
    (fun _ _ => rfl) pid ids

@[simp] theorem noGrant_freeResourcesRetained (process : PcbPointer) :
    (freeResourcesRetained process).NoGrant :=
  every_freeResourcesRetained Operation.NoGrant rfl (fun _ => rfl) process

@[simp] theorem noGrant_moveProcessFromBlockToReady (process : PcbPointer) (index : Nat) :
    (moveProcessFromBlockToReady process index).NoGrant := by
  simp [moveProcessFromBlockToReady, semWait, semPost]

@[simp] theorem noGrant_checkProcessInBlockedAndSendToReady :
    checkProcessInBlockedAndSendToReady.NoGrant :=
  every_checkProcessInBlockedAndSendToReady Operation.NoGrant rfl rfl (noGrant_semWait rfl)
    (noGrant_semPost rfl) noGrant_moveProcessFromBlockToReady

@[simp] theorem noGrant_sortQueue : sortQueue.NoGrant := by
  simp [sortQueue, semWait, semPost]

@[simp] theorem noGrant_interruptProcess : interruptProcess.NoGrant := by
  simp [interruptProcess, semWait, semPost]

@[simp] theorem noGrant_moveProcessToNew (process : PcbPointer) :
    (moveProcessToNew process).NoGrant := by
  simp [moveProcessToNew, semPost]

@[simp] theorem noGrant_receivePcbAndCreate (path : String) (quantum clientSocket : Int32) :
    (receivePcbAndCreate path quantum clientSocket).NoGrant := by
  simp [receivePcbAndCreate, look, allocate]

/-- A sleep thread grants nothing. -/
theorem noGrant_threadSleepProcess (process : PcbPointer) :
    (threadSleepProcess process).NoGrant := by
  apply Program.Every.bind (noGrant_popLocked (by decide))
  intro popped
  simp [semPost]

end Code

end OsSimulator
