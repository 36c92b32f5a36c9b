/-
Module: OsSimulator.Proofs.Loops
Purpose: The loops of `finish_process` and of the functions that it calls.  What is true of every
  operation of a turn is true of every operation of the loop, however often it turns.
Main exports: Code.every_searchQueues, Code.every_freeResourcesRetained,
  Code.every_checkProcessInBlockedAndSendToReady
-/
import OsSimulator.Concurrent.World

namespace OsSimulator

open Threads

namespace Code

section Loops

variable {α β : Type} (allowed : Operation → Prop)

/-- What is done with something that was looked at is done with anything. -/
theorem every_look_bind (read : allowed .read) {value : Memory → α} {after : α → Code β}
    (rest : ∀ result, (after result).Every allowed) : (look value >>= after).Every allowed :=
  ⟨read, fun memory => rest (value memory)⟩

theorem every_dereference (crashes : allowed .nullPointer) (process : Option PcbPointer) :
    (dereference process).Every allowed := by
  cases process with
  | some process => trivial
  | none => exact ⟨crashes, fun _ => trivial⟩

/-- By induction on the queues that are still to be searched. -/
theorem every_searchQueues (waits : ∀ id : QueueId, (semWait id.mutex).Every allowed)
    (posts : ∀ id : QueueId, (semPost id.mutex).Every allowed)
    (finds : ∀ id pid, allowed (.find id pid)) (pid : UInt32) (ids : List QueueId) :
    (searchQueues pid ids).Every allowed := by
  induction ids with
  | nil => trivial
  | cons id ids ih =>
      apply Program.Every.bind (waits id)
      intro _
      apply Program.Every.bind ((Program.every_observe _ _).mpr (finds id pid))
      intro found
      apply Program.Every.bind (posts id)
      intro _
      cases found with
      | none => exact ih
      | some process => trivial

/-- By induction on the resources: each of them changes one entry of the resource lists. -/
theorem every_addResourceInstances (modifies : ∀ resource, allowed (.modifyInstance resource 1))
    (resources : List String) : (addResourceInstances resources).Every allowed := by
  induction resources with
  | nil => trivial
  | cons resource resources ih =>
      apply Program.Every.bind ((Program.every_perform _).mpr (modifies resource))
      intro _
      exact ih

theorem every_freeResourcesRetained (read : allowed .read)
    (modifies : ∀ resource, allowed (.modifyInstance resource 1)) (process : PcbPointer) :
    (freeResourcesRetained process).Every allowed := by
  apply every_look_bind allowed read
  intro resources
  exact every_addResourceInstances allowed modifies resources

/-! ### `check_process_in_blocked_and_send_to_ready` -/

variable (read : allowed .read) (crashes : allowed .nullPointer)
  (waits : (semWait .mutexQueueBlocked).Every allowed)
  (posts : (semPost .mutexQueueBlocked).Every allowed)
  (moves : ∀ process index, (moveProcessFromBlockToReady process index).Every allowed)

include read crashes waits posts moves

/-- By induction on the turns that are left: each of them moves one process. -/
theorem every_wakeLoop (index : Nat) (available : Int) (turns position : Nat) :
    (wakeLoop index available turns position).Every allowed := by
  induction turns generalizing position with
  | zero => trivial
  | succ turns ih =>
      apply every_look_bind allowed read
      intro size
      split
      · apply Program.Every.bind waits
        intro _
        apply every_look_bind allowed read
        intro element
        apply Program.Every.bind posts
        intro _
        apply Program.Every.bind (every_dereference allowed crashes element)
        intro process
        apply Program.Every.bind (moves process index)
        intro _
        exact ih (position + 1)
      · trivial

theorem every_wakeQueue (index : Nat) : (wakeQueue index).Every allowed := by
  apply every_look_bind allowed read
  intro size
  split
  · apply every_look_bind allowed read
    intro available
    split
    · exact every_wakeLoop allowed read crashes waits posts moves index available _ _
    · trivial
  · trivial

theorem every_wakeQueues (indices : List Nat) : (wakeQueues indices).Every allowed := by
  induction indices with
  | nil => trivial
  | cons index indices ih =>
      apply Program.Every.bind (every_wakeQueue allowed read crashes waits posts moves index)
      intro _
      exact ih

/-- Every blocked queue is gone through. -/
theorem every_checkProcessInBlockedAndSendToReady :
    checkProcessInBlockedAndSendToReady.Every allowed := by
  apply every_look_bind allowed read
  intro queues
  exact every_wakeQueues allowed read crashes waits posts moves _

end Loops

end Code

end OsSimulator
