/-
Module: OsSimulator.Proofs.Quiet
Purpose: The code that is no business of the planners: it neither uses the semaphores on which a
  planner waits for planning or for a process, nor touches `queue_new` and `queue_ready`.
Main exports: Operation.isQuiet, Code.Quiet
-/
import OsSimulator.Proofs.Loops

namespace OsSimulator

open Threads

instance : Nonempty Memory := ⟨Memory.init ⟨"", [], 0, fun _ => 0⟩⟩

namespace Operation

/-- The operation is on none of the semaphores of planning, `sem_process_new` and
    `sem_process_ready`, on neither `queue_new` nor `queue_ready`, and no part of a search or a
    dispatch. -/
@[simp] def isQuiet : Operation → Bool
  | .wait semaphore | .post semaphore | .init semaphore _ =>
      semaphore ≠ .shortTermPlanner ∧ semaphore ≠ .longTermPlanner ∧
        semaphore ≠ .mutexStoppingPlanner ∧ semaphore ≠ .processNew ∧ semaphore ≠ .processReady
  | .push id _ => id ≠ .new ∧ id ≠ .ready ∧ id ≠ .exec
  | .pop id | .remove id _ => id ≠ .new ∧ id ≠ .ready
  | .find _ _ => false
  | _ => true

/-- A quiet operation. -/
@[simp] def Quiet (op : Operation) : Prop := op.isQuiet = true

end Operation

namespace Code

/-- The code has only quiet operations. -/
abbrev Quiet {α : Type} (code : Code α) : Prop := code.Every Operation.Quiet

/-- A wait on a semaphore that is none of those of the planners. -/
theorem quiet_semWait {semaphore : Semaphore} (quiet : (Operation.wait semaphore).isQuiet = true) :
    (semWait semaphore).Quiet := ⟨quiet, fun _ => trivial⟩

theorem quiet_semPost {semaphore : Semaphore} (quiet : (Operation.post semaphore).isQuiet = true) :
    (semPost semaphore).Quiet := ⟨quiet, fun _ => trivial⟩

/-- The mutexes of the queues are no semaphores of the planners. -/
@[simp] theorem quiet_semWait_mutex (id : QueueId) : (semWait id.mutex).Quiet := by
  cases id <;> exact quiet_semWait rfl

@[simp] theorem quiet_semPost_mutex (id : QueueId) : (semPost id.mutex).Quiet := by
  cases id <;> exact quiet_semPost rfl

@[simp] theorem quiet_dereference (process : Option PcbPointer) : (dereference process).Quiet :=
  every_dereference Operation.Quiet rfl process

/-- A process is put into a blocked queue. -/
@[simp] theorem quiet_pushLocked_blocked (index : Nat) (process : PcbPointer) :
    (pushLocked (.blocked index) process).Quiet := by
  simp [pushLocked, Operation.isQuiet]

/-- A process is taken off `queue_exec`. -/
@[simp] theorem quiet_popLocked_exec : (popLocked .exec).Quiet := by
  simp [popLocked, Operation.isQuiet]

@[simp] theorem quiet_removeLocked_blocked (index : Nat) (process : PcbPointer) :
    (removeLocked (.blocked index) process).Quiet := by
  simp [removeLocked, Operation.isQuiet]

/-- What is sent to memory is no business of the planners. -/
@[simp] theorem quiet_sendPcbToMemory (header : OperationCode) (process : PcbPointer) :
    (sendPcbToMemory header process).Quiet := by
  simp [sendPcbToMemory, look, Operation.isQuiet]

@[simp] theorem quiet_buildAllQueuesInList : buildAllQueuesInList.Quiet := by
  simp [buildAllQueuesInList, semWait, semPost, look, Operation.isQuiet]

@[simp] theorem quiet_freeResourcesRetained (process : PcbPointer) :
    (freeResourcesRetained process).Quiet :=
  every_freeResourcesRetained Operation.Quiet rfl (fun _ => rfl) process

@[simp] theorem quiet_dispatchProcessToCpu (process : PcbPointer) (header : OperationCode) :
    (dispatchProcessToCpu process header).Quiet := by
  simp [dispatchProcessToCpu, semWait, semPost, Operation.isQuiet]

@[simp] theorem quiet_sortQueue : sortQueue.Quiet := by
  simp [sortQueue, semWait, semPost, Operation.isQuiet]

@[simp] theorem quiet_interruptProcess : interruptProcess.Quiet := by
  simp [interruptProcess, semWait, semPost, Operation.isQuiet]

/-- A process blocks: `queue_exec`, a blocked queue and two quiet semaphores. -/
@[simp] theorem quiet_moveProcessFromExecToBlocked (index : Nat) :
    (moveProcessFromExecToBlocked index).Quiet := by
  apply Program.Every.bind quiet_popLocked_exec
  intro element
  apply Program.Every.bind (quiet_dereference element)
  intro process
  simp [semPost, Operation.isQuiet]

/-- The thread is created, and the CPU is given back. -/
@[simp] theorem quiet_handleSleepInterruption (process : PcbPointer) (time : Int32) :
    (handleSleepInterruption process time).Quiet := by
  simp [handleSleepInterruption, semPost, Operation.isQuiet]

@[simp] theorem quiet_receivePcbAndCreate (path : String) (quantum clientSocket : Int32) :
    (receivePcbAndCreate path quantum clientSocket).Quiet := by
  simp [receivePcbAndCreate, look, allocate, Operation.isQuiet]

/-- The degree is no semaphore of planning. -/
@[simp] theorem quiet_modifyMultiprogrammingDegree (newDegree : Int32) :
    (modifyMultiprogrammingDegree newDegree).Quiet := by
  unfold modifyMultiprogrammingDegree
  split <;> simp [Operation.isQuiet]

end Code

end OsSimulator
