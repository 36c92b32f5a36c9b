/-
Module: OsSimulator.Concurrent.ConnectedWorld
Purpose: The world, and the rest of what takes the kernel's mutexes: the handler of the interrupt
  connection, the cases of the dispatch handler that are no request of the CPU, and the threads of
  page faults.
Main exports: Code.handleInterruptConnection, Code.handleOtherHeader, Code.threadPageFaultProcess,
  ConnectedWorld, ConnectedWorld.init, ConnectedEvent, ConnectedWorld.step
-/
import OsSimulator.Concurrent.World
import OsSimulator.Shared.Loops

namespace OsSimulator

open Threads
open Threads.Program (perform)

/-- A header on the dispatch connection that begins none of the messages of `CpuRequest`, with the PCB
    that follows it. -/
inductive DispatchHeader where
  | blockProcess (pcb : Pcb)
  | pageFaultRequest (pcb : Pcb)
  | incorrect (header : UInt8)
deriving DecidableEq, Repr

/-- `default` ends `handle_dispatch_connection`. -/
def DispatchHeader.returns : DispatchHeader → Bool
  | .blockProcess _ | .pageFaultRequest _ => false
  | .incorrect _ => true

/-- `default` stands for the headers that there is no case for. -/
def DispatchHeader.Arrives : DispatchHeader → Prop
  | .blockProcess _ | .pageFaultRequest _ => True
  | .incorrect header => ReceiveLoop.kernelDispatch.handling? header = none

instance : ∀ header : DispatchHeader, Decidable header.Arrives
  | .blockProcess _ | .pageFaultRequest _ => isTrue trivial
  | .incorrect header =>
      inferInstanceAs (Decidable (ReceiveLoop.kernelDispatch.handling? header = none))

/-- The headers after which `handle_interrupt_connection` goes on; it returns after any other. -/
def interruptOperations : List OperationCode :=
  [.rejectedInterruption, .interruptQuantum, .interruptPriority, .pageFaultRequest]

/-- The loop of `handle_interrupt_connection` has another turn after the header. -/
def interruptGoesOn (header : UInt8) : Bool :=
  interruptOperations.any fun operation => operation.value == header

namespace Code

/-- One turn of the loop of `handle_interrupt_connection`, after the header was received.  Each case of
    the `switch` begins with its own `sem_post`, and then only logs. -/
def handleInterruptConnection : Code Unit := do
  semWait .mutexCpuInterruptConnection
  semPost .mutexCpuInterruptConnection

/-- One turn of the loop of `handle_dispatch_connection` for a header that is no request of the CPU.
    `BLOCK_PROCESS` receives the PCB inside the mutex, `PAGE_FAULT_REQUEST` after it. -/
def handleOtherHeader : DispatchHeader → Code Unit
  | .blockProcess pcb => do
      semWait .mutexCpuDispatchConnection
      let _ ← allocate pcb
      semPost .mutexCpuDispatchConnection
  | .pageFaultRequest pcb => do
      semWait .mutexCpuDispatchConnection
      semPost .mutexCpuDispatchConnection
      let _ ← allocate pcb
  | .incorrect _ => do
      semWait .mutexCpuDispatchConnection
      semPost .mutexCpuDispatchConnection

/-- `thread_page_fault_process`.  What it gets is the address of a parameter of the function that
    created it, so `processToMove` is any pointer; `answer` is the PCB it receives if memory answers
    MEMORY_OK.  The messages to and from memory, for which it takes no mutex, are left out. -/
def threadPageFaultProcess (processToMove : PcbPointer) (answer : Option Pcb) : Code Unit := do
  let _ ← popLocked .exec
  perform (.setState processToMove .blocked)
  perform (.advanceCounter processToMove)
  match answer with
  | some pcb => do
      let process ← allocate pcb
      pushLocked .ready process
      semPost .processReady
  | none => semPost .processReady

end Code

/-- What the threads outside `World` are there for: the handler of the interrupt connection, with the
    last header it received, and the threads of page faults. -/
inductive HandlerRole where
  | interruptHandler (last : Option UInt8)
  | pageFault (processToMove : PcbPointer)
deriving DecidableEq, Repr

/-- All threads of the kernel: those of the world, and the others, which share its memory.
    `dispatchReturned` says that the dispatch handler has left its loop. -/
structure ConnectedWorld where
  world : World
  handlers : List (Thread HandlerRole Operation Memory)
  dispatchReturned : Bool

/-- When `main` has created its threads. -/
def ConnectedWorld.init (config : KernelConfig) : ConnectedWorld where
  world := World.init config
  handlers := [.start (.interruptHandler none) (pure ())]
  dispatchReturned := false

/-- What can happen next: a step of the world, unless it is a message for a dispatch handler that has
    returned; another header reaches the dispatch handler, or one reaches the interrupt handler; a
    thread of a page fault begins to run, which may be more often than the dispatch handler creates
    one; or one of the other threads performs its next operation. -/
inductive ConnectedEvent where
  | world (event : WorldEvent)
  | receiveOther (index : Nat) (header : DispatchHeader)
  | receiveInterrupt (index : Nat) (header : UInt8)
  | startPageFault (processToMove : PcbPointer) (answer : Option Pcb)
  | advanceHandler (index : Nat)
deriving DecidableEq, Repr

/-- The dispatch handler receives a message. -/
def WorldEvent.isReceive : WorldEvent → Bool
  | .receive _ => true
  | .advance _ | .iterate _ | .connect | .command .. | .startSleeper | .cpuExecute ..
  | .cpuReadInterrupt => false

namespace ConnectedWorld

/-- The memory that the threads share. -/
abbrev memory (connected : ConnectedWorld) : Memory := connected.world.memory

/-- The threads outside the world, as a pool on the world's memory. -/
def handlerPool (connected : ConnectedWorld) : Pool HandlerRole Operation Memory where
  state := connected.memory
  threads := connected.handlers

/-- Take a step with the threads outside the world. -/
def onHandlers (connected : ConnectedWorld)
    (step : Pool HandlerRole Operation Memory → Option (Pool HandlerRole Operation Memory)) :
    Option ConnectedWorld :=
  (step connected.handlerPool).map fun pool =>
    { connected with
      world := { connected.world with
        pool := { connected.world.pool with state := pool.state } }
      handlers := pool.threads }

/-- A header that is no request of the CPU reaches the dispatch handler. -/
def receiveOther (index : Nat) (header : DispatchHeader) (connected : ConnectedWorld) :
    Option ConnectedWorld :=
  match connected.world.roleAt index with
  | some (.dispatchHandler _) =>
      if header.Arrives ∧ connected.dispatchReturned = false then
        (connected.world.onPool
          (Pool.restart index (.dispatchHandler none) (Code.handleOtherHeader header))).map
          fun world => { connected with world := world, dispatchReturned := header.returns }
      else
        none
  | _ => none

/-- A header reaches the interrupt handler. -/
def receiveInterrupt (index : Nat) (header : UInt8) (connected : ConnectedWorld) :
    Option ConnectedWorld :=
  match connected.handlers[index]?.map Thread.role with
  | some (.interruptHandler last) =>
      if last.all interruptGoesOn then
        connected.onHandlers
          (Pool.restart index (.interruptHandler (some header)) Code.handleInterruptConnection)
      else
        none
  | _ => none

/-- One step; `none` where it is not enabled. -/
def step (config : KernelConfig) (connected : ConnectedWorld) :
    ConnectedEvent → Option ConnectedWorld
  | .world event =>
      if event.isReceive ∧ connected.dispatchReturned then
        none
      else
        (connected.world.step config event).map fun world => { connected with world := world }
  | .receiveOther index header => connected.receiveOther index header
  | .receiveInterrupt index header => connected.receiveInterrupt index header
  | .startPageFault processToMove answer =>
      connected.onHandlers fun pool =>
        some (pool.spawn (.pageFault processToMove)
          (Code.threadPageFaultProcess processToMove answer))
  | .advanceHandler index => connected.onHandlers (Pool.advance (Operation.perform config) index)

end ConnectedWorld

end OsSimulator
