/-
Module: OsSimulator.Kernel.Queues
Purpose: The queue operations of `queues.c`, each one run from its first statement to its last.
  They return `none` where the calling thread would be suspended on a semaphore, or would read
  through the null pointer that an empty queue gives.
Main exports: Kernel.finishProcess, Kernel.checkProcessInBlockedAndSendToReady,
  Kernel.updateQueueSemaphores, Kernel.moveProcessToNew, Kernel.moveProcessToReady,
  Kernel.moveProcessToExec, Kernel.moveProcessFromExecToBlocked
-/
import OsSimulator.Kernel.Resources

namespace OsSimulator

/-- `get_minimun`. -/
def getMinimun (first second : Int) : Int := if first < second then first else second

namespace Kernel

/-- `build_all_queues_in_list`. -/
def buildAllQueuesInList (kernel : Kernel) : List QueueId :=
  [.new, .ready, .exec] ++ (List.range kernel.listOfQueueBlocked.length).map .blocked

/-- The search loop of `finish_process`: the first queue that holds the pid, and the element. -/
def findInAllQueues (kernel : Kernel) (pid : UInt32) : Option (QueueId × Pcb) :=
  kernel.buildAllQueuesInList.findSome? fun id =>
    (findProcessFromQueue (kernel.queue id) pid).map fun process => (id, process)

/-- `move_process_from_block_to_ready` for the element at `position` of a blocked queue.
    `list_remove_element` compares pointers, so it takes out that very element. -/
def moveProcessFromBlockToReady (position index : Nat) (kernel : Kernel) : Option Kernel :=
  match (kernel.queue (.blocked index))[position]? with
  | some processToMove =>
      let kernel := kernel.log (.blockedToReady processToMove.pid index)
      let kernel := kernel.queuePush .ready (processToMove.setState .ready)
      let kernel := kernel.setQueue ((kernel.queue (.blocked index)).eraseIdx position)
        (.blocked index)
      (kernel.semWait .processBlocked).map (semPost .processReady)
  | none => none

/-- The inner loop of `check_process_in_blocked_and_send_to_ready`: the queue shrinks under the
    index, and the bound is computed again at every turn.  `fuel` is the size of the queue before
    the loop, which no run of the loop exceeds. -/
def wakeLoop (index : Nat) (available : Int) : Nat → Nat → Kernel → Option Kernel
  | 0, _, kernel => some kernel
  | fuel + 1, position, kernel =>
      if (position : Int) < getMinimun available (kernel.queue (.blocked index)).length then
        (kernel.moveProcessFromBlockToReady position index).bind
          (wakeLoop index available fuel (position + 1))
      else
        some kernel

/-- One turn of the outer loop of `check_process_in_blocked_and_send_to_ready`. -/
def wakeQueue (kernel : Kernel) (index : Nat) : Option Kernel :=
  let quantity := (kernel.queue (.blocked index)).length
  let available := kernel.allResourcesInstances.getD index 0
  if 0 < quantity ∧ 0 < available then
    kernel.wakeLoop index available quantity 0
  else
    some kernel

/-- `check_process_in_blocked_and_send_to_ready`. -/
def checkProcessInBlockedAndSendToReady (kernel : Kernel) : Option Kernel :=
  (List.range kernel.listOfQueueBlocked.length).foldlM wakeQueue kernel

/-- `update_queue_semaphores`. -/
def updateQueueSemaphores (state : ProcessState) (kernel : Kernel) : Option Kernel :=
  match state with
  | .execution => some ((kernel.semPost .cpuAvailable).semPost .multiprogrammingDegree)
  | .ready => (kernel.semWait .processReady).map (semPost .multiprogrammingDegree)
  | .blocked => (kernel.semWait .processBlocked).map (semPost .multiprogrammingDegree)
  | _ => kernel.semWait .processNew

/-- `finish_process` up to the removal of the process it found: its resources are released and
    `list_remove_element` takes the element that the search found out of its queue. -/
def releaseAndRemove (id : QueueId) (processToFinish : Pcb) (kernel : Kernel) : Kernel :=
  let kernel := kernel.freeResourcesRetained processToFinish
  kernel.setQueue ((kernel.queue id).eraseP (·.pid == processToFinish.pid)) id

/-- `finish_process`. -/
def finishProcess (pid : UInt32) (kernel : Kernel) : Option Kernel :=
  match kernel.findInAllQueues pid with
  | none => some (kernel.log (.notFound pid))
  | some (id, processToFinish) =>
      let previousState := processToFinish.state
      (kernel.releaseAndRemove id processToFinish).checkProcessInBlockedAndSendToReady.bind
        fun kernel =>
          let kernel := kernel.log (.finished processToFinish.pid)
          let kernel := kernel.sendToMemory .finishProcess (processToFinish.setState .exit)
          kernel.updateQueueSemaphores previousState

/-- `move_process_to_new`. -/
def moveProcessToNew (processToMove : Pcb) (kernel : Kernel) : Kernel :=
  let kernel := kernel.sendToMemory .createProcess processToMove
  let kernel := kernel.queuePush .new processToMove
  let kernel := kernel.log (.created processToMove.pid)
  kernel.semPost .processNew

/-- `move_process_to_ready`. -/
def moveProcessToReady (kernel : Kernel) : Option Kernel :=
  match kernel.queueNew with
  | [] => none
  | processToMove :: rest =>
      let kernel := kernel.setQueue rest .new
      let kernel := kernel.log (.newToReady processToMove.pid)
      some (kernel.queuePush .ready (processToMove.setState .ready))

/-- `move_process_to_exec`. -/
def moveProcessToExec (kernel : Kernel) : Option Kernel :=
  match kernel.queueReady with
  | [] => none
  | processToMove :: rest =>
      let kernel := kernel.setQueue rest .ready
      let process := processToMove.setState .execution
      let kernel := kernel.queuePush .exec process
      some (kernel.sendToCpu .executeProcess process)

/-- `sort_queue`. -/
def sortQueue (config : KernelConfig) (kernel : Kernel) : Kernel :=
  kernel.setQueue
    (kernel.queueReady.mergeSort fun first second =>
      decide (config.priority first ≤ config.priority second)) .ready

/-- `move_process_from_exec_to_blocked`: the process that blocks is whatever `queue_pop` takes
    off `queue_exec`. -/
def moveProcessFromExecToBlocked (index : Nat) (kernel : Kernel) : Option Kernel :=
  match kernel.queueExec with
  | [] => none
  | processToMove :: rest =>
      let kernel := kernel.setQueue rest .exec
      let kernel := kernel.log (.execToBlocked processToMove.pid)
      let kernel := kernel.semPost .cpuAvailable
      let process := processToMove.setState .blocked
      let kernel := kernel.queuePush (.blocked index) process
      let kernel := kernel.semPost .processBlocked
      some (kernel.checkDeadlocks process)

end Kernel

end OsSimulator
