/-
Module: OsSimulator.Concurrent.Code
Purpose: The functions of `queues.c`, `deadlocks.c`, `planners.c` and `handle_connection.c` as programs
  over the shared memory, statement by statement.  Lines of the log and `check_deadlocks`, which only
  logs, are left out.
Main exports: Code, Code.finishProcess, Code.moveProcessToReady, Code.moveProcessToExec,
  Code.longTermPlanner, Code.shortTermPlanner, Code.handleDispatchConnection,
  Code.handlerConnection, Code.threadSleepProcess
-/
import OsSimulator.Concurrent.Memory
import OsSimulator.Lib.Threads

namespace OsSimulator

open Threads
open Threads.Program (perform observe)

/-- Code of the kernel. -/
abbrev Code := Program Operation Memory

/-- The mutex of a queue, as `build_all_mutex_queues_in_list` pairs them. -/
def QueueId.mutex : QueueId → Semaphore
  | .new => .mutexQueueNew
  | .ready => .mutexQueueReady
  | .exec => .mutexQueueExec
  | .blocked _ => .mutexQueueBlocked

namespace Code

/-- `sem_wait`. -/
def semWait (semaphore : Semaphore) : Code Unit := perform (.wait semaphore)

/-- `sem_post`. -/
def semPost (semaphore : Semaphore) : Code Unit := perform (.post semaphore)

/-- A look at the global variables. -/
def look {α : Type} (value : Memory → α) : Code α := observe .read value

/-- Use a pointer that may be null. -/
def dereference : Option PcbPointer → Code PcbPointer
  | some process => pure process
  | none => do
      perform .nullPointer
      pure 0

/-- `queue_push` under the mutex of the queue. -/
def pushLocked (id : QueueId) (process : PcbPointer) : Code Unit := do
  semWait id.mutex
  perform (.push id process)
  semPost id.mutex

/-- `queue_pop` under the mutex of the queue. -/
def popLocked (id : QueueId) : Code (Option PcbPointer) := do
  semWait id.mutex
  let process ← observe (.pop id) fun memory => (memory.queue id).head?
  semPost id.mutex
  pure process

/-- `list_remove_element` under the mutex of the queue. -/
def removeLocked (id : QueueId) (process : PcbPointer) : Code Unit := do
  semWait id.mutex
  perform (.remove id process)
  semPost id.mutex

/-- `send_pcb` on the connection with memory: the PCB is written to a package, which takes three
    `send`s. -/
def sendPcbToMemory (header : OperationCode) (process : PcbPointer) : Code Unit := do
  let pcb ← look fun memory => memory.pcb process
  perform (.sendToMemory (.header header))
  perform (.sendToMemory (.length pcb))
  perform (.sendToMemory (.payload pcb))

/-- The result of `malloc(sizeof(t_pcb))`, filled in. -/
def allocate (pcb : Pcb) : Code PcbPointer := observe (.allocate pcb) fun memory => memory.pcbs.length

/-! ### `queues.c` -/

/-- `build_all_queues_in_list`. -/
def buildAllQueuesInList : Code (List QueueId) := do
  semWait .mutexQueueNew
  semPost .mutexQueueNew
  semWait .mutexQueueReady
  semPost .mutexQueueReady
  semWait .mutexQueueExec
  semPost .mutexQueueExec
  semWait .mutexQueueBlocked
  let blocked ← look fun memory => memory.listOfQueueBlocked.length
  semPost .mutexQueueBlocked
  pure ([.new, .ready, .exec] ++ (List.range blocked).map .blocked)

/-- The search loop of `finish_process`. -/
def searchQueues (pid : UInt32) : List QueueId → Code (Option (QueueId × PcbPointer))
  | [] => pure none
  | id :: ids => do
      semWait id.mutex
      let found ← observe (.find id pid) fun memory => memory.findProcessFromQueue id pid
      semPost id.mutex
      match found with
      | some process => pure (some (id, process))
      | none => searchQueues pid ids

/-- `move_process_from_block_to_ready`. -/
def moveProcessFromBlockToReady (processToMove : PcbPointer) (index : Nat) : Code Unit := do
  perform (.setState processToMove .ready)
  pushLocked .ready processToMove
  removeLocked (.blocked index) processToMove
  semWait .processBlocked
  semPost .processReady

/-- The inner loop of `check_process_in_blocked_and_send_to_ready`, which turns at most
    `quantity_of_available_resources` times: `turns` is what is left of them at `position`. -/
def wakeLoop (index : Nat) (available : Int) : Nat → Nat → Code Unit
  | 0, _ => pure ()
  | turns + 1, position => do
      let size ← look fun memory => (memory.queue (.blocked index)).length
      if (position : Int) < getMinimun available size then do
        semWait .mutexQueueBlocked
        let element ← look fun memory => (memory.queue (.blocked index))[position]?
        semPost .mutexQueueBlocked
        let processToMove ← dereference element
        moveProcessFromBlockToReady processToMove index
        wakeLoop index available turns (position + 1)
      else
        pure ()

/-- One turn of the outer loop of `check_process_in_blocked_and_send_to_ready`. -/
def wakeQueue (index : Nat) : Code Unit := do
  let size ← look fun memory => (memory.queue (.blocked index)).length
  if 0 < size then do
    let available ← look fun memory => memory.allResourcesInstances.getD index 0
    if 0 < available then
      wakeLoop index available available.toNat 0
    else
      pure ()
  else
    pure ()

/-- The outer loop of `check_process_in_blocked_and_send_to_ready`. -/
def wakeQueues : List Nat → Code Unit
  | [] => pure ()
  | index :: indices => do
      wakeQueue index
      wakeQueues indices

/-- `check_process_in_blocked_and_send_to_ready`. -/
def checkProcessInBlockedAndSendToReady : Code Unit := do
  let queues ← look fun memory => memory.listOfQueueBlocked.length
  wakeQueues (List.range queues)

/-- `update_queue_semaphores`. -/
def updateQueueSemaphores (state : ProcessState) : Code Unit :=
  match state with
  | .execution => do
      semPost .cpuAvailable
      semPost .multiprogrammingDegree
  | .ready => do
      semWait .processReady
      semPost .multiprogrammingDegree
  | .blocked => do
      semWait .processBlocked
      semPost .multiprogrammingDegree
  | _ => semWait .processNew

/-- The loop of `free_resources_retained`. -/
def addResourceInstances : List String → Code Unit
  | [] => pure ()
  | resource :: resources => do
      perform (.modifyInstance resource 1)
      addResourceInstances resources

/-- `free_resources_retained`. -/
def freeResourcesRetained (process : PcbPointer) : Code Unit := do
  let resources ← look fun memory => (memory.pcb process).resources
  addResourceInstances resources

/-- `finish_process` for the process that the search found. -/
def finishFound (id : QueueId) (processToFinish : PcbPointer) : Code Unit := do
  let previousState ←
    observe (.readState processToFinish) fun memory => (memory.pcb processToFinish).state
  perform (.setState processToFinish .exit)
  freeResourcesRetained processToFinish
  removeLocked id processToFinish
  checkProcessInBlockedAndSendToReady
  sendPcbToMemory .finishProcess processToFinish
  updateQueueSemaphores previousState

/-- `finish_process`. -/
def finishProcess (pid : UInt32) : Code Unit := do
  let queues ← buildAllQueuesInList
  let found ← searchQueues pid queues
  match found with
  | none => pure ()
  | some (id, processToFinish) => finishFound id processToFinish

/-- `move_process_to_new`. -/
def moveProcessToNew (processToMove : PcbPointer) : Code Unit := do
  sendPcbToMemory .createProcess processToMove
  pushLocked .new processToMove
  semPost .processNew

/-- `move_process_to_ready`. -/
def moveProcessToReady : Code Unit := do
  let element ← popLocked .new
  let processToMove ← dereference element
  perform (.setState processToMove .ready)
  pushLocked .ready processToMove

/-- `dispatch_process_to_cpu`. -/
def dispatchProcessToCpu (processToMove : PcbPointer) (header : OperationCode) : Code Unit := do
  semWait .mutexCpuDispatchConnection
  perform (.sendToCpu header processToMove)
  semPost .mutexCpuDispatchConnection

/-- `move_process_to_exec`. -/
def moveProcessToExec : Code Unit := do
  let element ← popLocked .ready
  let processToMove ← dereference element
  perform (.setState processToMove .execution)
  pushLocked .exec processToMove
  dispatchProcessToCpu processToMove .executeProcess

/-- `sort_queue`. -/
def sortQueue : Code Unit := do
  semWait .mutexQueueReady
  perform .sort
  semPost .mutexQueueReady

/-- `move_process_from_exec_to_blocked`. -/
def moveProcessFromExecToBlocked (index : Nat) : Code Unit := do
  let element ← popLocked .exec
  let processToMove ← dereference element
  semPost .cpuAvailable
  perform (.setState processToMove .blocked)
  pushLocked (.blocked index) processToMove
  semPost .processBlocked

/-! ### `planners.c` -/

/-- One iteration of `long_term_planner`. -/
def longTermPlanner : Code Unit := do
  semWait .longTermPlanner
  semWait .multiprogrammingDegree
  semWait .processNew
  moveProcessToReady
  semPost .processReady
  semPost .longTermPlanner

/-- `interrupt_process`. -/
def interruptProcess : Code Unit := do
  semWait .mutexCpuInterruptConnection
  perform .sendInterrupt
  semPost .mutexCpuInterruptConnection

/-- One iteration of `planing_with_fifo`. -/
def planingWithFifo : Code Unit := do
  semWait .shortTermPlanner
  semWait .processReady
  semWait .cpuAvailable
  semWait .mutexProcessExec
  moveProcessToExec
  semPost .mutexProcessExec
  semPost .shortTermPlanner

/-- One iteration of `planning_with_round_robin`. -/
def planningWithRoundRobin : Code Unit := do
  semWait .shortTermPlanner
  semWait .processReady
  semWait .cpuAvailable
  semWait .mutexProcessExec
  moveProcessToExec
  semPost .mutexProcessExec
  semWait .mutexQueueExec
  interruptProcess
  semPost .mutexQueueExec
  semPost .shortTermPlanner

/-- One iteration of `planning_with_priorities`. -/
def planningWithPriorities : Code Unit := do
  semWait .shortTermPlanner
  semWait .processReady
  semWait .cpuAvailable
  sortQueue
  semWait .mutexProcessExec
  moveProcessToExec
  semPost .mutexProcessExec
  semPost .shortTermPlanner

/-- One iteration of `short_term_planner`, which returns for any other name. -/
def shortTermPlanner (config : KernelConfig) : Code Unit :=
  if config.planningAlgorithm = "FIFO" then planingWithFifo
  else if config.planningAlgorithm = "ROUND_ROBIN" then planningWithRoundRobin
  else if config.planningAlgorithm = "PRIORITIES" then planningWithPriorities
  else pure ()

/-! ### `deadlocks.c` -/

/-- `handle_wait_interruption`, with the check of `finish_process_if_is_not_valid` in front. -/
def handleWaitInterruption (process : PcbPointer) (resourceRequested : String) : Code Unit := do
  let valid ← look fun memory => (findResource memory.allResources resourceRequested).isSome
  if valid then do
    let available ← look fun memory =>
      decide (0 < memory.quantityResourceInstanceAvailable resourceRequested)
    if available then do
      perform (.advanceCounter process)
      perform (.addResource process resourceRequested)
      perform (.modifyInstance resourceRequested (-1))
      perform (.sendToCpu .waitResponse process)
    else do
      let index ← look fun memory => memory.getQueueBlocked resourceRequested
      moveProcessFromExecToBlocked index
  else do
    let pid ← look fun memory => (memory.pcb process).pid
    finishProcess pid

/-- `handle_signal_interruption`, with the check of `finish_process_if_is_not_valid` in front. -/
def handleSignalInterruption (process : PcbPointer) (resourceRequested : String) : Code Unit := do
  let valid ← look fun memory => (findResource memory.allResources resourceRequested).isSome
  if valid then do
    let held ← look fun memory =>
      (findResource (memory.pcb process).resources resourceRequested).isSome
    if held then do
      perform (.modifyInstance resourceRequested 1)
      perform (.removeResource process resourceRequested)
      perform (.advanceCounter process)
      perform (.sendToCpu .signalResponse process)
    else do
      let pid ← look fun memory => (memory.pcb process).pid
      finishProcess pid
  else do
    let pid ← look fun memory => (memory.pcb process).pid
    finishProcess pid

/-! ### `handle_connection.c` -/

/-- The `INTERRUPT` case of `handle_dispatch_connection`. -/
def handleInterrupt (process : PcbPointer) : Code Unit := do
  let _ ← popLocked .exec
  semPost .cpuAvailable
  perform (.setState process .ready)
  pushLocked .ready process
  semPost .processReady

/-- `handle_sleep_interruption`. -/
def handleSleepInterruption (processToMove : PcbPointer) (timeToSleep : Int32) : Code Unit := do
  perform (.createThread processToMove timeToSleep)
  semPost .cpuAvailable

/-- `thread_sleep_process`. -/
def threadSleepProcess (processToMove : PcbPointer) : Code Unit := do
  let _ ← popLocked .exec
  perform (.setState processToMove .ready)
  perform (.advanceCounter processToMove)
  pushLocked .ready processToMove
  semPost .processReady

/-- One turn of the loop of `handle_dispatch_connection`, after the header was received. -/
def handleDispatchConnection (message : Message) : Code Unit := do
  semWait .mutexCpuDispatchConnection
  semPost .mutexCpuDispatchConnection
  let process ← allocate message.pcb
  match message.request with
  | .finish => finishProcess message.pcb.pid
  | .interrupt => handleInterrupt process
  | .wait resource => handleWaitInterruption process resource
  | .signal resource => handleSignalInterruption process resource
  | .sleep time => handleSleepInterruption process time

/-- `receive_pcb_and_create`. -/
def receivePcbAndCreate (path : String) (quantum clientSocket : Int32) : Code PcbPointer := do
  let pid ← look fun memory => memory.idToAssign
  let process ← allocate (createPcb pid path quantum clientSocket)
  perform .nextId
  pure process

/-- `modify_multiprogramming_degree`. -/
def modifyMultiprogrammingDegree (newDegree : Int32) : Code Unit :=
  if 0 ≤ newDegree then
    perform (.init .multiprogrammingDegree newDegree.toInt.toNat)
  else
    pure ()

end Code

/-- What a console asks for. -/
inductive Command where
  | createProcess (path : String) (quantum clientSocket : Int32)
  | finishProcess (pid : UInt32)
  | startPlanning
  | stopPlanning
  | modifyMultiprogrammingDegree (newDegree : Int32)
  | showAllProcesses
deriving DecidableEq, Repr

/-- One turn of the loop of `handler_connection`, after the header was received. -/
def Code.handlerConnection : Command → Code Unit
  | .createProcess path quantum clientSocket => do
      let pcb ← receivePcbAndCreate path quantum clientSocket
      moveProcessToNew pcb
  | .finishProcess pid => finishProcess pid
  | .stopPlanning => do
      semPost .mutexStoppingPlanner
      semWait .shortTermPlanner
      semWait .longTermPlanner
  | .startPlanning => do
      semWait .mutexStoppingPlanner
      semPost .shortTermPlanner
      semPost .longTermPlanner
  | .modifyMultiprogrammingDegree newDegree => modifyMultiprogrammingDegree newDegree
  | .showAllProcesses => do
      let _ ← buildAllQueuesInList
      pure ()

end OsSimulator
