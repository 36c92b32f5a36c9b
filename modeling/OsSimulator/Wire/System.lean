/-
Module: OsSimulator.Wire.System
Purpose: The programs with the connections between them as streams of bytes: what a console is given goes
  to the kernel, PCBs and interrupt headers go to the CPU and requests come back as `shared/src/process.c`
  writes them, and each receiver takes its messages apart again.
Main exports: ConsoleRequest, takeConsoleRequest, ReceiveLoop.receive, Link, WireSystem, WireEvent,
  WireSystem.step
-/
import OsSimulator.Console.Console
import OsSimulator.Kernel.Requests
import OsSimulator.Kernel.System
import OsSimulator.Shared.Loops

namespace OsSimulator

/-! ### What the kernel takes from a console -/

/-- The cases of `handler_connection`, with what they take from the payload. -/
inductive ConsoleRequest where
  | createProcess (path : String)
  | finishProcess (pid : UInt32)
  | stopPlanning
  | startPlanning
  | modifyMultiprogrammingDegree (newDegree : Int32)
  | showAllProcesses
deriving DecidableEq, Repr

/-- The package of `send_multiprogramming_degree`. -/
def sendMultiprogrammingDegree (stale : List UInt8) (header : OperationCode) (newDegree : Int32) :
    Package :=
  let package := createPackage header stale
  { package with payload := package.payload.addInt32ToBuffer newDegree }

/-- What a case takes from the payload that it received. -/
def takeFrom {α : Type} (taker : Taker α) (payload : Option Buffer) : Option α :=
  payload.bind fun buffer => (taker buffer).map Prod.fst

/-- The case of `handler_connection` for a header. -/
def takeConsoleRequest (header : UInt8) (payload : Option Buffer) : Option ConsoleRequest :=
  if header = OperationCode.createProcess.value then
    (takeFrom takeStringFromBuffer payload).map .createProcess
  else if header = OperationCode.finishProcess.value then
    (takeFrom takeUInt32FromBuffer payload).map .finishProcess
  else if header = OperationCode.stopPlanning.value then some .stopPlanning
  else if header = OperationCode.startPlanning.value then some .startPlanning
  else if header = OperationCode.modifyMultiprogrammingDegree.value then
    (takeFrom takeInt32FromBuffer payload).map .modifyMultiprogrammingDegree
  else if header = OperationCode.showAllProcesses.value then some .showAllProcesses
  else none

/-- What the case does to the system.  `show_all_processes` only writes to the log. -/
def ConsoleRequest.run (config : KernelConfig) (quantum clientSocket : Int32) (system : System) :
    ConsoleRequest → Option System
  | .createProcess path => system.step config (.createProcess path quantum clientSocket)
  | .finishProcess pid => system.step config (.finishProcess pid)
  | .stopPlanning => system.step config .stopPlanning
  | .startPlanning => system.step config .startPlanning
  | .modifyMultiprogrammingDegree newDegree =>
      system.step config (.modifyMultiprogrammingDegree newDegree)
  | .showAllProcesses => some system

/-- The next message on a connection: its header, and its payload if the case for the header receives
    one.  The cases read through the payload, also if it is the null pointer. -/
def ReceiveLoop.receive (transport : Transport) (loop : ReceiveLoop) :
    Receiver (UInt8 × Option Buffer) := do
  let header ← receiveHeader transport
  if loop.handling? header = some .payload then
    let received ← receivePayload transport
    let payload ← StateT.lift received
    return (header, some payload)
  else
    return (header, none)

/-! ### The connections -/

/-- The connections, by who receives from them. -/
inductive Link where
  | console (index : Nat)
  | dispatchToCpu
  | dispatchToKernel
  | interruptToCpu
deriving DecidableEq, Repr

/-- The programs and their connections.  The message lists of `system` hold only what a step has to send:
    between steps they are empty. -/
structure WireSystem where
  system : System
  link : Link → Connection

/-- What can happen next.  The program that the CPU executes decides what it asks for, its registers and
    its program counter. -/
inductive WireEvent where
  | input (console : Nat) (input : ConsoleInput)
  | handlerConnection (console : Nat) (quantum clientSocket : Int32)
  | longTermPlanner
  | shortTermPlanner
  | sleepThread (index : Nat)
  | handleDispatchConnection
  | executeProcess (request : CpuRequest) (cpuRegister : List (BitVec 64)) (programCounter : Int32)
  | readInterrupt
deriving DecidableEq, Repr

/-- The system with nothing to send. -/
def System.sent (system : System) : System :=
  { system with
    kernel := { system.kernel with cpuDispatchConnection := [] }
    cpuMessages := []
    interruptHeaders := 0 }

namespace WireSystem

/-- The start of the programs, with nothing on the connections. -/
def init (config : KernelConfig) : WireSystem where
  system := System.init config
  link := fun _ => { stream := [], calls := 0 }

/-- Replace one of the connections. -/
def setLink (link : Link) (connection : Connection) (wire : WireSystem) : WireSystem :=
  { wire with link := fun other => if other = link then connection else wire.link other }

/-- Apply an operation to the system. -/
def onSystem (operation : System → Option System) (wire : WireSystem) : Option WireSystem :=
  (operation wire.system).map fun system => { wire with system := system }

section

variable (config : KernelConfig) (transport : Link → Transport) (stale : List UInt8)

/-- Write messages to a connection. -/
def send (link : Link) (frames : List Frame) (wire : WireSystem) : WireSystem :=
  wire.setLink link (sendFrames (transport link) frames (wire.link link))

/-- Read a message from a connection, in one of the loops. -/
def receive (loop : ReceiveLoop) (link : Link) (wire : WireSystem) :
    Option ((UInt8 × Option Buffer) × WireSystem) :=
  (loop.receive (transport link) (wire.link link)).map fun (message, connection) =>
    (message, wire.setLink link connection)

/-- Write what the last step has to send. -/
def transmit (wire : WireSystem) : WireSystem :=
  let pcbs := wire.system.kernel.cpuDispatchConnection
  let requests := wire.system.cpuMessages
  let interrupts := wire.system.interruptHeaders
  let wire := { wire with system := wire.system.sent }
  let wire := wire.send transport .dispatchToCpu
    (pcbs.map fun message => .package (sendPcb stale message.1 message.2))
  let wire := wire.send transport .dispatchToKernel
    (requests.map fun message => .package (sendRequest stale message.pcb message.request))
  wire.send transport .interruptToCpu
    (List.replicate interrupts (.header OperationCode.interruptQuantum.value))

/-- A step up to what it sends to the other programs. -/
def proceed (wire : WireSystem) : WireEvent → Option WireSystem
  | .input console input =>
      let (frames, status) := input.run stale
      if status = .running then some (wire.send transport (.console console) frames) else none
  | .handlerConnection console quantum clientSocket => do
      let ((header, payload), wire) ← wire.receive transport .kernelConsole (.console console)
      match ReceiveLoop.kernelConsole.switch header with
      | .operation _ =>
          let command ← takeConsoleRequest header payload
          wire.onSystem fun system => command.run config quantum clientSocket system
      | .disconnected | .incorrect => some wire
  | .longTermPlanner => wire.onSystem fun system => system.step config .longTermPlanner
  | .shortTermPlanner => wire.onSystem fun system => system.step config .shortTermPlanner
  | .sleepThread index => wire.onSystem fun system => system.step config (.sleepThread index)
  | .handleDispatchConnection => do
      let ((header, payload), wire) ← wire.receive transport .kernelDispatch .dispatchToKernel
      let message ← takeFrom (takeRequest header) payload
      wire.onSystem fun system =>
        { system with cpuMessages := [message] }.step config .handleDispatch
  | .executeProcess request cpuRegister programCounter => do
      let ((_, payload), wire) ← wire.receive transport .cpuKernel .dispatchToCpu
      let process ← takeFrom takePcbFromBuffer payload
      -- `execute_process` does not know which of its three cases called it
      let received := [(OperationCode.executeProcess, process)]
      wire.onSystem fun system =>
        { system with
          kernel := { system.kernel with cpuDispatchConnection := received } }.step config
            (.cpuExecute request cpuRegister programCounter)
  | .readInterrupt => do
      let ((header, _), wire) ← wire.receive transport .cpuKernel .interruptToCpu
      if header = OperationCode.interrupt.value ∨
          header = OperationCode.interruptQuantum.value then
        some { wire with system := { wire.system with hasInterrupt := true } }
      else
        none

/-- One step of the programs. -/
def step (wire : WireSystem) (event : WireEvent) : Option WireSystem :=
  (wire.proceed config transport stale event).map (transmit transport stale)

end

end WireSystem

end OsSimulator
