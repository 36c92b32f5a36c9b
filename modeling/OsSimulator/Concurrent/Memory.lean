/-
Module: OsSimulator.Concurrent.Memory
Purpose: The memory that the kernel's threads share, and the operations on it that no other thread
  can interrupt: one `sem_wait` or `sem_post`, one operation on a queue, one write to a PCB, one
  `send`.  Unlike in `Kernel.State`, queues hold pointers.
Main exports: PcbPointer, Chunk, Memory, Memory.init, Operation, Operation.perform
-/
import OsSimulator.Kernel.HandleConnection

namespace OsSimulator

/-- A `t_pcb *`: the place of the PCB among all that were ever allocated. -/
abbrev PcbPointer := Nat

/-- What one `send` of `send_package` writes: the header, the length or the bytes of a PCB. -/
inductive Chunk where
  | header (operation : OperationCode)
  | length (pcb : Pcb)
  | payload (pcb : Pcb)
deriving DecidableEq, Repr

/-- The global variables of the kernel and its heap.  `createdThreads` are the sleep threads that
    `pthread_create` has made and that have not begun to run; `memoryConnection` is everything that
    was sent to memory. -/
structure Memory where
  pcbs : List Pcb
  queueNew : List PcbPointer
  queueReady : List PcbPointer
  queueExec : List PcbPointer
  listOfQueueBlocked : List (List PcbPointer)
  allResources : List String
  allResourcesInstances : List Int
  sem : Semaphore → Nat
  idToAssign : UInt32
  cpuDispatchConnection : List (OperationCode × Pcb)
  interruptHeaders : Nat
  memoryConnection : List Chunk
  createdThreads : List (PcbPointer × Int32)

/-- The memory when the threads are created. -/
def Memory.init (config : KernelConfig) : Memory where
  pcbs := []
  queueNew := []
  queueReady := []
  queueExec := []
  listOfQueueBlocked := List.replicate config.resources.length []
  allResources := config.resources.map Prod.fst
  allResourcesInstances := config.resources.map Prod.snd
  sem := initialSemaphores config
  idToAssign := 0
  cpuDispatchConnection := []
  interruptHeaders := 0
  memoryConnection := []
  createdThreads := []

namespace Memory

/-- The elements of a queue. -/
def queue (memory : Memory) : QueueId → List PcbPointer
  | .new => memory.queueNew
  | .ready => memory.queueReady
  | .exec => memory.queueExec
  | .blocked index => memory.listOfQueueBlocked.getD index []

/-- Store the elements of a queue; an index past the end is a queue in no list. -/
def setQueue (elements : List PcbPointer) (id : QueueId) (memory : Memory) : Memory :=
  match id with
  | .new => { memory with queueNew := elements }
  | .ready => { memory with queueReady := elements }
  | .exec => { memory with queueExec := elements }
  | .blocked index =>
      { memory with listOfQueueBlocked := memory.listOfQueueBlocked.set index elements }

/-- A dangling pointer would read this. -/
def noPcb : Pcb := createPcb 0 "" 0 0

/-- What a pointer points to. -/
def pcb (memory : Memory) (process : PcbPointer) : Pcb := memory.pcbs.getD process noPcb

/-- Write to the PCB a pointer points to. -/
def modifyPcb (process : PcbPointer) (change : Pcb → Pcb) (memory : Memory) : Memory :=
  { memory with pcbs := memory.pcbs.modify process change }

/-- Store the value of a semaphore. -/
def setSem (semaphore : Semaphore) (value : Nat) (memory : Memory) : Memory :=
  { memory with sem := fun other => if other = semaphore then value else memory.sem other }

/-- `find_process_from_queue`. -/
def findProcessFromQueue (memory : Memory) (id : QueueId) (pid : UInt32) : Option PcbPointer :=
  (memory.queue id).find? fun process => (memory.pcb process).pid == pid

/-- The first index of `all_resources` that holds the name. -/
def resourceIndex (memory : Memory) (resource : String) : Option Nat :=
  memory.allResources.findIdx? (· == resource)

/-- `quantity_resource_instance_available`. -/
def quantityResourceInstanceAvailable (memory : Memory) (resource : String) : Int :=
  match memory.resourceIndex resource with
  | some index => memory.allResourcesInstances.getD index 0
  | none => 0

/-- `get_queue_blocked`: the last index whose name matches, or a queue in no list. -/
def getQueueBlocked (memory : Memory) (queueTag : String) : Nat :=
  (((List.range memory.listOfQueueBlocked.length).filter fun index =>
    memory.allResources[index]? == some queueTag).getLast?).getD memory.listOfQueueBlocked.length

variable {memory : Memory} {semaphore : Semaphore} {value : Nat} {elements : List PcbPointer}

theorem setSem_sem (other : Semaphore) :
    (memory.setSem semaphore value).sem other =
      if other = semaphore then value else memory.sem other := rfl

@[simp] theorem queue_setSem (id : QueueId) :
    (memory.setSem semaphore value).queue id = memory.queue id := by
  cases id <;> rfl

@[simp] theorem sem_setQueue (id : QueueId) : (memory.setQueue elements id).sem = memory.sem := by
  cases id <;> rfl

@[simp] theorem pcbs_setQueue (id : QueueId) : (memory.setQueue elements id).pcbs = memory.pcbs := by
  cases id <;> rfl

@[simp] theorem queue_modifyPcb (process : PcbPointer) (change : Pcb → Pcb) (id : QueueId) :
    (memory.modifyPcb process change).queue id = memory.queue id := by
  cases id <;> rfl

end Memory

/-- One operation on the shared memory.  `read` looks at global variables and `readState` at the state of
    a PCB, and they change nothing; `find` is the `list_find` of `find_process_from_queue`;
    `nullPointer` is the use of the null pointer that an empty list gives. -/
inductive Operation where
  | wait (semaphore : Semaphore)
  | post (semaphore : Semaphore)
  | init (semaphore : Semaphore) (value : Nat)
  | read
  | readState (process : PcbPointer)
  | allocate (pcb : Pcb)
  | nextId
  | push (id : QueueId) (process : PcbPointer)
  | pop (id : QueueId)
  | find (id : QueueId) (pid : UInt32)
  | remove (id : QueueId) (process : PcbPointer)
  | sort
  | setState (process : PcbPointer) (state : ProcessState)
  | advanceCounter (process : PcbPointer)
  | addResource (process : PcbPointer) (resource : String)
  | removeResource (process : PcbPointer) (resource : String)
  | modifyInstance (resource : String) (value : Int)
  | sendToCpu (header : OperationCode) (process : PcbPointer)
  | sendInterrupt
  | sendToMemory (chunk : Chunk)
  | createThread (process : PcbPointer) (sleepTime : Int32)
  | nullPointer
deriving DecidableEq, Repr

/-- Perform an operation.  `none`: the thread is suspended on the semaphore, or the kernel dies of a
    null pointer. -/
def Operation.perform (config : KernelConfig) (operation : Operation) (memory : Memory) :
    Option Memory :=
  match operation with
  | .wait semaphore =>
      if 0 < memory.sem semaphore then
        some (memory.setSem semaphore (memory.sem semaphore - 1))
      else
        none
  | .post semaphore => some (memory.setSem semaphore (memory.sem semaphore + 1))
  | .init semaphore value => some (memory.setSem semaphore value)
  | .read | .readState _ | .find _ _ => some memory
  | .allocate pcb => some { memory with pcbs := memory.pcbs ++ [pcb] }
  | .nextId => some { memory with idToAssign := memory.idToAssign + 1 }
  | .push id process => some (memory.setQueue (memory.queue id ++ [process]) id)
  | .pop id => some (memory.setQueue (memory.queue id).tail id)
  | .remove id process => some (memory.setQueue ((memory.queue id).erase process) id)
  | .sort =>
      some (memory.setQueue
        (memory.queueReady.mergeSort fun first second =>
          decide (config.priority (memory.pcb first) ≤ config.priority (memory.pcb second)))
        .ready)
  | .setState process state => some (memory.modifyPcb process (·.setState state))
  | .advanceCounter process =>
      some (memory.modifyPcb process fun pcb =>
        { pcb with programCounter := pcb.programCounter + 1 })
  | .addResource process resource =>
      some (memory.modifyPcb process fun pcb =>
        { pcb with resources := pcb.resources ++ [resource] })
  | .removeResource process resource =>
      some (memory.modifyPcb process fun pcb =>
        { pcb with resources := pcb.resources.erase resource })
  | .modifyInstance resource value =>
      match memory.resourceIndex resource with
      | some index =>
          some { memory with
            allResourcesInstances := memory.allResourcesInstances.modify index (· + value) }
      | none => some memory
  | .sendToCpu header process =>
      some { memory with
        cpuDispatchConnection := memory.cpuDispatchConnection ++ [(header, memory.pcb process)] }
  | .sendInterrupt => some { memory with interruptHeaders := memory.interruptHeaders + 1 }
  | .sendToMemory chunk =>
      some { memory with memoryConnection := memory.memoryConnection ++ [chunk] }
  | .createThread process sleepTime =>
      some { memory with createdThreads := memory.createdThreads ++ [(process, sleepTime)] }
  | .nullPointer => none

end OsSimulator
