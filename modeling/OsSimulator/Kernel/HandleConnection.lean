/-
Module: OsSimulator.Kernel.HandleConnection
Purpose: The message handlers of the kernel: the WAIT and SIGNAL handlers of `deadlocks.c`, the
  dispatch handler and the console operations of `handle_connection.c`, and the two planners of
  `planners.c`, cut at the counting semaphores they wait on.
Main exports: Kernel.handleWaitInterruption, Kernel.handleSignalInterruption,
  Kernel.handleDispatchConnection, createPcb, Kernel.receivePcbAndCreate,
  Kernel.modifyMultiprogrammingDegree, Kernel.startPlanning, Kernel.stopPlanning
-/
import OsSimulator.Kernel.Queues

namespace OsSimulator

namespace Kernel

/-- `handle_wait_interruption`, with the check of `finish_process_if_is_not_valid` in front. -/
def handleWaitInterruption (process : Pcb) (resourceRequested : String) (kernel : Kernel) :
    Option Kernel :=
  if (findResource kernel.allResources resourceRequested).isNone then
    kernel.finishProcess process.pid
  else if 0 < kernel.quantityResourceInstanceAvailable resourceRequested then
    let process :=
      { process with
        programCounter := process.programCounter + 1
        resources := process.resources ++ [resourceRequested] }
    let kernel := kernel.removeResourceInstance resourceRequested
    let kernel := kernel.log (.granted process.pid resourceRequested)
    some (kernel.sendToCpu .waitResponse process)
  else
    kernel.moveProcessFromExecToBlocked (kernel.getQueueBlocked resourceRequested)

/-- `handle_signal_interruption`, with the check of `finish_process_if_is_not_valid` in front. -/
def handleSignalInterruption (process : Pcb) (resourceRequested : String) (kernel : Kernel) :
    Option Kernel :=
  if (findResource kernel.allResources resourceRequested).isNone then
    kernel.finishProcess process.pid
  else if (findResource process.resources resourceRequested).isSome then
    let process :=
      { process with
        programCounter := process.programCounter + 1
        resources := process.resources.erase resourceRequested }
    let kernel := kernel.addResourceInstance resourceRequested
    let kernel := kernel.log (.released process.pid resourceRequested)
    some (kernel.sendToCpu .signalResponse process)
  else
    kernel.finishProcess process.pid

/-- The `INTERRUPT` case of `handle_dispatch_connection`: whatever is at the head of `queue_exec`
    goes, and the PCB of the message becomes ready. -/
def handleInterrupt (pcb : Pcb) (kernel : Kernel) : Kernel :=
  let kernel := kernel.setQueue kernel.queueExec.tail .exec
  let kernel := kernel.semPost .cpuAvailable
  let kernel := kernel.queuePush .ready (pcb.setState .ready)
  kernel.semPost .processReady

/-- `handle_sleep_interruption`: the thread is created before the CPU is given back. -/
def handleSleepInterruption (processToMove : Pcb) (timeToSleep : Int32) (kernel : Kernel) :
    Kernel :=
  let thread : SleepThread :=
    { process := processToMove, sleepTime := timeToSleep, phase := .starting }
  let kernel := { kernel with sleepThreads := kernel.sleepThreads ++ [thread] }
  kernel.semPost .cpuAvailable

/-- One turn of the loop of `handle_dispatch_connection`. -/
def handleDispatchConnection (message : Message) (kernel : Kernel) : Option Kernel :=
  let kernel := kernel.log (.received message)
  match message.request with
  | .finish => kernel.finishProcess message.pcb.pid
  | .interrupt => some (kernel.handleInterrupt message.pcb)
  | .wait resource => kernel.handleWaitInterruption message.pcb resource
  | .signal resource => kernel.handleSignalInterruption message.pcb resource
  | .sleep time => some (kernel.handleSleepInterruption message.pcb time)

/-- The next step of one `thread_sleep_process`: pop `queue_exec` without looking at what it
    gives, or, after the sleep, put the process it holds into `queue_ready`. -/
def sleepThreadStep (thread : SleepThread) (index : Nat) (kernel : Kernel) : Kernel :=
  match thread.phase with
  | .starting =>
      let kernel := kernel.setQueue kernel.queueExec.tail .exec
      { kernel with
        sleepThreads := kernel.sleepThreads.set index { thread with phase := .sleeping } }
  | .sleeping =>
      let process :=
        { thread.process with
          state := .ready
          programCounter := thread.process.programCounter + 1 }
      let kernel := { kernel with sleepThreads := kernel.sleepThreads.eraseIdx index }
      let kernel := kernel.queuePush .ready process
      kernel.semPost .processReady

end Kernel

/-- `create_pcb`.  `quantum` stands for `process->quantum`: `t_process` has no such field at this
    commit. -/
def createPcb (pid : UInt32) (path : String) (quantum clientSocket : Int32) : Pcb where
  pid := pid
  programCounter := 0
  size := 0
  quantum := quantum
  cpuRegister := [0, 0, 0, 0]
  resources := []
  tablePages := 0
  path := path
  state := .new
  clientSocket := clientSocket

namespace Kernel

/-- The `CREATE_PROCESS` case of `handler_connection`: `receive_pcb_and_create`, which takes the
    next value of the 32-bit counter `id_to_assign`, then `move_process_to_new`. -/
def receivePcbAndCreate (path : String) (quantum clientSocket : Int32) (kernel : Kernel) :
    Kernel :=
  let pcb := createPcb kernel.idToAssign path quantum clientSocket
  let kernel := { kernel with idToAssign := kernel.idToAssign + 1 }
  kernel.moveProcessToNew pcb

/-- `modify_multiprogramming_degree`.  `sem_init` takes an `unsigned int` and fails on one above
    `SEM_VALUE_MAX`, which is what a negative degree becomes. -/
def modifyMultiprogrammingDegree (newDegree : Int32) (kernel : Kernel) : Kernel :=
  let kernel :=
    if 0 ≤ newDegree then
      kernel.semInit .multiprogrammingDegree newDegree.toInt.toNat
    else
      kernel
  kernel.log (.newDegree newDegree.toInt)

/-- The `START_PLANNING` case of `handler_connection`. -/
def startPlanning (kernel : Kernel) : Option Kernel := do
  let kernel ← kernel.semWait .mutexStoppingPlanner
  some ((kernel.semPost .shortTermPlanner).semPost .longTermPlanner)

/-- The `STOP_PLANNING` case of `handler_connection`. -/
def stopPlanning (kernel : Kernel) : Option Kernel := do
  let kernel := kernel.semPost .mutexStoppingPlanner
  let kernel ← kernel.semWait .shortTermPlanner
  kernel.semWait .longTermPlanner

/-- `long_term_planner` after its last `sem_wait`. -/
def longTermPlannerAdmit (kernel : Kernel) : Option Kernel := do
  let kernel ← kernel.semWait .processNew
  let kernel ← kernel.moveProcessToReady
  some ((kernel.semPost .processReady).semPost .longTermPlanner)

/-- The three short-term planners after their last `sem_wait`, up to the dispatch; only
    `planning_with_priorities` sorts first. -/
def shortTermPlannerDispatch (config : KernelConfig) (kernel : Kernel) : Option Kernel := do
  let kernel ← kernel.semWait .cpuAvailable
  let kernel :=
    if config.planningAlgorithm = "PRIORITIES" then kernel.sortQueue config else kernel
  kernel.moveProcessToExec

end Kernel

end OsSimulator
