/-
Module: OsSimulator.Kernel.State
Purpose: The kernel's configuration and its global variables: the queues, the resource lists, the
  counting semaphores, the connections it writes to, and the lines it logs.
Main exports: KernelConfig, Semaphore, Kernel, Kernel.init, Kernel.semWait, Kernel.semPost,
  QueueId, Kernel.queue, Kernel.setQueue
-/
import OsSimulator.Shared.Process

namespace OsSimulator

/-- What `create_kernel_config` reads.  `resources` pairs `RESOURCES` with `RESOURCES_INSTANCES`.
    `priority` stands for the `priority` field that `sort_by_priority` compares: `t_pcb` has no such
    field at this commit. -/
structure KernelConfig where
  planningAlgorithm : String
  resources : List (String × Int)
  multiprogrammingDegree : Nat
  priority : Pcb → Int

/-- The semaphores of the kernel: the seven mutexes and the eight counters. -/
inductive Semaphore where
  | mutexQueueNew
  | mutexQueueReady
  | mutexQueueBlocked
  | mutexQueueExec
  | mutexProcessExec
  | mutexCpuDispatchConnection
  | mutexCpuInterruptConnection
  | processNew
  | processReady
  | processBlocked
  | cpuAvailable
  | multiprogrammingDegree
  | shortTermPlanner
  | longTermPlanner
  | mutexStoppingPlanner
deriving DecidableEq, Repr

/-- What the CPU asks for in a message about the process it was executing. -/
inductive CpuRequest where
  | finish
  | interrupt
  | wait (resource : String)
  | signal (resource : String)
  | sleep (time : Int32)
deriving DecidableEq, Repr

/-- A message on the dispatch connection, from the CPU to the kernel. -/
structure Message where
  request : CpuRequest
  pcb : Pcb
deriving DecidableEq, Repr

/-- How far a `thread_sleep_process` has come: `starting` has still to pop `queue_exec`. -/
inductive SleepPhase where
  | starting
  | sleeping
deriving DecidableEq, Repr

/-- A `thread_sleep_process` with the `t_thread_args` it has read, as long as they are what `block_process`
    was called with. -/
structure SleepThread where
  process : Pcb
  sleepTime : Int32
  phase : SleepPhase
deriving DecidableEq, Repr

/-- What the kernel reports while it runs: the lines of its log and the packages it sends. -/
inductive KernelEvent where
  | created (pid : UInt32)
  | newToReady (pid : UInt32)
  | execToBlocked (pid : UInt32)
  | blockedToReady (pid : UInt32) (queueIndex : Nat)
  | finished (pid : UInt32)
  | notFound (pid : UInt32)
  | received (message : Message)
  | granted (pid : UInt32) (resource : String)
  | released (pid : UInt32) (resource : String)
  | deadlock (pid : UInt32) (retained : List String) (required : Option String)
  | newDegree (degree : Int)
  | sentToCpu (header : OperationCode) (pcb : Pcb)
  | sentToMemory (header : OperationCode) (pcb : Pcb)
deriving DecidableEq, Repr

/-- The global variables of the kernel.  `cpuDispatchConnection` holds what was written to that
    connection and not yet read by the CPU; `trace` is the newest event first. -/
structure Kernel where
  queueNew : List Pcb
  queueReady : List Pcb
  queueExec : List Pcb
  listOfQueueBlocked : List (List Pcb)
  allResources : List String
  allResourcesInstances : List Int
  sem : Semaphore → Nat
  idToAssign : UInt32
  sleepThreads : List SleepThread
  cpuDispatchConnection : List (OperationCode × Pcb)
  trace : List KernelEvent

/-- Initial values: `init_semaphores_process`, `init_semaphores_queues`,
    `init_semaphores_planners`. -/
def initialSemaphores (config : KernelConfig) : Semaphore → Nat
  | .mutexQueueNew | .mutexQueueReady | .mutexQueueBlocked | .mutexQueueExec => 1
  | .mutexProcessExec | .mutexCpuDispatchConnection | .mutexCpuInterruptConnection => 1
  | .processNew | .processReady | .processBlocked => 0
  | .cpuAvailable => 1
  | .multiprogrammingDegree => config.multiprogrammingDegree
  | .shortTermPlanner | .longTermPlanner => 0
  | .mutexStoppingPlanner => 1

/-- The start of `main`: `init_queues`, `init_resources` and the semaphores. -/
def Kernel.init (config : KernelConfig) : Kernel where
  queueNew := []
  queueReady := []
  queueExec := []
  listOfQueueBlocked := List.replicate config.resources.length []
  allResources := config.resources.map Prod.fst
  allResourcesInstances := config.resources.map Prod.snd
  sem := initialSemaphores config
  idToAssign := 0
  sleepThreads := []
  cpuDispatchConnection := []
  trace := []

/-- The queues of `build_all_queues_in_list`. -/
inductive QueueId where
  | new
  | ready
  | exec
  | blocked (index : Nat)
deriving DecidableEq, Repr

namespace Kernel

/-- Add one event to the trace. -/
def log (event : KernelEvent) (kernel : Kernel) : Kernel :=
  { kernel with trace := event :: kernel.trace }

/-- `sem_init` on a semaphore that exists already. -/
def semInit (semaphore : Semaphore) (value : Nat) (kernel : Kernel) : Kernel :=
  { kernel with sem := fun other => if other = semaphore then value else kernel.sem other }

/-- `sem_post`. -/
def semPost (semaphore : Semaphore) (kernel : Kernel) : Kernel :=
  kernel.semInit semaphore (kernel.sem semaphore + 1)

/-- `sem_wait`; `none` when the caller would be suspended. -/
def semWait (semaphore : Semaphore) (kernel : Kernel) : Option Kernel :=
  if 0 < kernel.sem semaphore then
    some (kernel.semInit semaphore (kernel.sem semaphore - 1))
  else
    none

/-- The elements of a queue. -/
def queue (kernel : Kernel) : QueueId → List Pcb
  | .new => kernel.queueNew
  | .ready => kernel.queueReady
  | .exec => kernel.queueExec
  | .blocked index => kernel.listOfQueueBlocked.getD index []

/-- Store the elements of a queue.  An index past the end is a queue outside
    `list_of_queue_blocked`: nothing in the kernel's lists changes. -/
def setQueue (kernel : Kernel) (elements : List Pcb) : QueueId → Kernel
  | .new => { kernel with queueNew := elements }
  | .ready => { kernel with queueReady := elements }
  | .exec => { kernel with queueExec := elements }
  | .blocked index =>
      { kernel with listOfQueueBlocked := kernel.listOfQueueBlocked.set index elements }

/-- `queue_push`. -/
def queuePush (id : QueueId) (pcb : Pcb) (kernel : Kernel) : Kernel :=
  kernel.setQueue (kernel.queue id ++ [pcb]) id

/-- `send_pcb` on the dispatch connection. -/
def sendToCpu (header : OperationCode) (pcb : Pcb) (kernel : Kernel) : Kernel :=
  { kernel with
    cpuDispatchConnection := kernel.cpuDispatchConnection ++ [(header, pcb)]
    trace := .sentToCpu header pcb :: kernel.trace }

/-- `send_pcb` on the connection with memory. -/
def sendToMemory (header : OperationCode) (pcb : Pcb) (kernel : Kernel) : Kernel :=
  kernel.log (.sentToMemory header pcb)

/-! ### What each operation leaves alone

One conjunction per operation; `simp` uses every conjunct as a rewrite rule, so later proofs never
unfold the operations. -/

section Fields

variable (kernel : Kernel) (event : KernelEvent) (semaphore other : Semaphore) (value : Nat)
  (elements : List Pcb) (pcb : Pcb) (header : OperationCode) (index : Nat)

@[simp] theorem log_fields :
    (kernel.log event).queueNew = kernel.queueNew ∧
      (kernel.log event).queueReady = kernel.queueReady ∧
      (kernel.log event).queueExec = kernel.queueExec ∧
      (kernel.log event).listOfQueueBlocked = kernel.listOfQueueBlocked ∧
      (kernel.log event).allResources = kernel.allResources ∧
      (kernel.log event).allResourcesInstances = kernel.allResourcesInstances ∧
      (kernel.log event).sem = kernel.sem ∧
      (kernel.log event).idToAssign = kernel.idToAssign ∧
      (kernel.log event).sleepThreads = kernel.sleepThreads ∧
      (kernel.log event).cpuDispatchConnection = kernel.cpuDispatchConnection ∧
      (kernel.log event).trace = event :: kernel.trace := by
  simp [log]

@[simp] theorem semInit_fields :
    (kernel.semInit semaphore value).queueNew = kernel.queueNew ∧
      (kernel.semInit semaphore value).queueReady = kernel.queueReady ∧
      (kernel.semInit semaphore value).queueExec = kernel.queueExec ∧
      (kernel.semInit semaphore value).listOfQueueBlocked = kernel.listOfQueueBlocked ∧
      (kernel.semInit semaphore value).allResources = kernel.allResources ∧
      (kernel.semInit semaphore value).allResourcesInstances = kernel.allResourcesInstances ∧
      (kernel.semInit semaphore value).idToAssign = kernel.idToAssign ∧
      (kernel.semInit semaphore value).sleepThreads = kernel.sleepThreads ∧
      (kernel.semInit semaphore value).cpuDispatchConnection = kernel.cpuDispatchConnection ∧
      (kernel.semInit semaphore value).trace = kernel.trace := by
  simp [semInit]

@[simp] theorem semInit_sem :
    (kernel.semInit semaphore value).sem other =
      if other = semaphore then value else kernel.sem other := rfl

@[simp] theorem semPost_fields :
    (kernel.semPost semaphore).queueNew = kernel.queueNew ∧
      (kernel.semPost semaphore).queueReady = kernel.queueReady ∧
      (kernel.semPost semaphore).queueExec = kernel.queueExec ∧
      (kernel.semPost semaphore).listOfQueueBlocked = kernel.listOfQueueBlocked ∧
      (kernel.semPost semaphore).allResources = kernel.allResources ∧
      (kernel.semPost semaphore).allResourcesInstances = kernel.allResourcesInstances ∧
      (kernel.semPost semaphore).idToAssign = kernel.idToAssign ∧
      (kernel.semPost semaphore).sleepThreads = kernel.sleepThreads ∧
      (kernel.semPost semaphore).cpuDispatchConnection = kernel.cpuDispatchConnection ∧
      (kernel.semPost semaphore).trace = kernel.trace := by
  simp [semPost]

@[simp] theorem semPost_sem :
    (kernel.semPost semaphore).sem other =
      if other = semaphore then kernel.sem semaphore + 1 else kernel.sem other := rfl

/-- `sem_wait` succeeds exactly on a positive semaphore, and takes one. -/
theorem semWait_eq_some {next : Kernel} :
    kernel.semWait semaphore = some next ↔
      0 < kernel.sem semaphore ∧
        next = kernel.semInit semaphore (kernel.sem semaphore - 1) := by
  by_cases positive : 0 < kernel.sem semaphore
  · simp [semWait, positive, eq_comm]
  · simp [semWait, positive]

@[simp] theorem sendToCpu_fields :
    (kernel.sendToCpu header pcb).queueNew = kernel.queueNew ∧
      (kernel.sendToCpu header pcb).queueReady = kernel.queueReady ∧
      (kernel.sendToCpu header pcb).queueExec = kernel.queueExec ∧
      (kernel.sendToCpu header pcb).listOfQueueBlocked = kernel.listOfQueueBlocked ∧
      (kernel.sendToCpu header pcb).allResources = kernel.allResources ∧
      (kernel.sendToCpu header pcb).allResourcesInstances = kernel.allResourcesInstances ∧
      (kernel.sendToCpu header pcb).sem = kernel.sem ∧
      (kernel.sendToCpu header pcb).idToAssign = kernel.idToAssign ∧
      (kernel.sendToCpu header pcb).sleepThreads = kernel.sleepThreads ∧
      (kernel.sendToCpu header pcb).cpuDispatchConnection =
        kernel.cpuDispatchConnection ++ [(header, pcb)] ∧
      (kernel.sendToCpu header pcb).trace = .sentToCpu header pcb :: kernel.trace := by
  simp [sendToCpu]

@[simp] theorem queue_new : kernel.queue .new = kernel.queueNew := rfl

@[simp] theorem queue_ready : kernel.queue .ready = kernel.queueReady := rfl

@[simp] theorem queue_exec : kernel.queue .exec = kernel.queueExec := rfl

@[simp] theorem queue_log (id : QueueId) : (kernel.log event).queue id = kernel.queue id := by
  cases id <;> rfl

theorem queue_blocked :
    kernel.queue (.blocked index) = kernel.listOfQueueBlocked.getD index [] := rfl

/-- Storing a queue changes no other field than the queues. -/
@[simp] theorem setQueue_fields (id : QueueId) :
    (kernel.setQueue elements id).allResources = kernel.allResources ∧
      (kernel.setQueue elements id).allResourcesInstances = kernel.allResourcesInstances ∧
      (kernel.setQueue elements id).sem = kernel.sem ∧
      (kernel.setQueue elements id).idToAssign = kernel.idToAssign ∧
      (kernel.setQueue elements id).sleepThreads = kernel.sleepThreads ∧
      (kernel.setQueue elements id).cpuDispatchConnection = kernel.cpuDispatchConnection ∧
      (kernel.setQueue elements id).trace = kernel.trace := by
  cases id <;> simp [setQueue]

@[simp] theorem setQueue_new :
    (kernel.setQueue elements .new).queueNew = elements ∧
      (kernel.setQueue elements .new).queueReady = kernel.queueReady ∧
      (kernel.setQueue elements .new).queueExec = kernel.queueExec ∧
      (kernel.setQueue elements .new).listOfQueueBlocked = kernel.listOfQueueBlocked := by
  simp [setQueue]

@[simp] theorem setQueue_ready :
    (kernel.setQueue elements .ready).queueNew = kernel.queueNew ∧
      (kernel.setQueue elements .ready).queueReady = elements ∧
      (kernel.setQueue elements .ready).queueExec = kernel.queueExec ∧
      (kernel.setQueue elements .ready).listOfQueueBlocked = kernel.listOfQueueBlocked := by
  simp [setQueue]

@[simp] theorem setQueue_exec :
    (kernel.setQueue elements .exec).queueNew = kernel.queueNew ∧
      (kernel.setQueue elements .exec).queueReady = kernel.queueReady ∧
      (kernel.setQueue elements .exec).queueExec = elements ∧
      (kernel.setQueue elements .exec).listOfQueueBlocked = kernel.listOfQueueBlocked := by
  simp [setQueue]

@[simp] theorem setQueue_blocked :
    (kernel.setQueue elements (.blocked index)).queueNew = kernel.queueNew ∧
      (kernel.setQueue elements (.blocked index)).queueReady = kernel.queueReady ∧
      (kernel.setQueue elements (.blocked index)).queueExec = kernel.queueExec ∧
      (kernel.setQueue elements (.blocked index)).listOfQueueBlocked =
        kernel.listOfQueueBlocked.set index elements := by
  simp [setQueue]

end Fields

end Kernel

end OsSimulator
