/-
Module: OsSimulator.Cpu.System
Purpose: The kernel together with the CPU statement by statement.  The steps of the kernel are those of
  `System`; in place of the CPU's two actions there, the threads of `Cpu` take messages from the two
  connections and send theirs.
Main exports: Preemption, CpuSystem, CpuSystem.init, CpuSystemEvent, CpuSystem.step
-/
import OsSimulator.Cpu.Threads
import OsSimulator.Kernel.System

namespace OsSimulator

/-- A process that the CPU returned with `INTERRUPT`: the number of its last `EXECUTE_PROCESS`, and for
    each interrupt that had set the flag how many `EXECUTE_PROCESS` had been sent before it. -/
structure Preemption where
  pid : UInt32
  executeProcess : Nat
  interrupts : List Nat
deriving DecidableEq, Repr

/-- The kernel, its connections, and the CPU.  What follows `cpu` is bookkeeping that no step looks at:
    the number of `EXECUTE_PROCESS` sent so far, the number of the last one for each pid, and how many
    had been sent before each interrupt that is on the connection, that the interrupt thread has
    received and not raised, and that has set the flag since it was last cleared. -/
structure CpuSystem where
  system : System
  cpu : Cpu
  executeProcesses : Nat
  lastExecuteProcess : UInt32 → Nat
  sentInterrupts : List Nat
  receivedInterrupts : List Nat
  raisedInterrupts : List Nat
  preemptions : List Preemption

/-- The kernel and the CPU when they are connected. -/
def CpuSystem.init (config : KernelConfig) : CpuSystem where
  system := System.init config
  cpu := Cpu.init
  executeProcesses := 0
  lastExecuteProcess := fun _ => 0
  sentInterrupts := []
  receivedInterrupts := []
  raisedInterrupts := []
  preemptions := []

/-- A step of the kernel and its surroundings, or of one of the CPU's threads.  A thread that is at
    `receive_header` receives from its connection. -/
inductive CpuSystemEvent where
  | kernel (event : Event)
  | dispatchThread (stale : List UInt8)
  | interruptThread (stale : List UInt8)
deriving DecidableEq

/-- The event is not one of the CPU's actions in `System`. -/
def Event.isOfKernel : Event → Bool
  | .cpuExecute .. | .cpuReadInterrupt => false
  | _ => true

namespace CpuSystem

/-- Count one more `EXECUTE_PROCESS`. -/
def countExecuteProcess (state : CpuSystem) (message : OperationCode × Pcb) : CpuSystem :=
  if message.1 = .executeProcess then
    { state with
      executeProcesses := state.executeProcesses + 1
      lastExecuteProcess := fun pid =>
        if pid = message.2.pid then state.executeProcesses + 1 else state.lastExecuteProcess pid }
  else
    state

/-- A step of the kernel.  What it sent is what is new on the connections. -/
def kernelStep (config : KernelConfig) (state : CpuSystem) (event : Event) : Option CpuSystem :=
  if event.isOfKernel then
    (state.system.step config event).map fun next =>
      let sent := next.kernel.cpuDispatchConnection.drop
        state.system.kernel.cpuDispatchConnection.length
      let interrupts := next.interruptHeaders - state.system.interruptHeaders
      let state := sent.foldl countExecuteProcess state
      { state with
        system := next
        sentInterrupts :=
          state.sentInterrupts ++ List.replicate interrupts state.executeProcesses }
  else
    none

/-- `receive_header` on the dispatch connection, with the PCB that follows. -/
def receiveDispatch (machine : Machine) (state : CpuSystem) : Option CpuSystem :=
  match state.system.kernel.cpuDispatchConnection with
  | [] => none
  | (header, pcb) :: rest =>
      (state.cpu.step machine (.dispatch (.receive header (some pcb)))).map fun cpu =>
        { state with
          system :=
            { state.system with
              kernel := { state.system.kernel with cpuDispatchConnection := rest } }
          cpu := cpu }

/-- The bookkeeping of a statement of the dispatch thread: the process that is sent with `INTERRUPT`,
    and the two statements that clear the flag. -/
def recordDispatch (position : Position) (state : CpuSystem) : CpuSystem :=
  match position with
  | .preempting process =>
      { state with
        raisedInterrupts := []
        preemptions := state.preemptions ++
          [{ pid := process.pid
             executeProcess := state.lastExecuteProcess process.pid
             interrupts := state.raisedInterrupts }] }
  | .clearing => { state with raisedInterrupts := [] }
  | _ => state

/-- The next statement of the dispatch thread.  What it sends goes to the kernel. -/
def proceedDispatch (machine : Machine) (stale : List UInt8) (state : CpuSystem) :
    Option CpuSystem :=
  (state.cpu.step machine (.dispatch (.proceed stale))).map fun cpu =>
    let state := state.recordDispatch state.cpu.dispatchThread.position
    { state with
      system := { state.system with cpuMessages := state.system.cpuMessages ++ cpu.globals.sent }
      cpu := { cpu with globals := { cpu.globals with sent := [] } } }

/-- `receive_header` on the interrupt connection. -/
def receiveInterrupt (machine : Machine) (state : CpuSystem) : Option CpuSystem :=
  if 0 < state.system.interruptHeaders then
    (state.cpu.step machine (.interrupt (.receive .interruptQuantum none))).map fun cpu =>
      { state with
        system := { state.system with interruptHeaders := state.system.interruptHeaders - 1 }
        cpu := cpu
        sentInterrupts := state.sentInterrupts.tail
        receivedInterrupts := state.sentInterrupts.take 1 }
  else
    none

/-- The next statement of the interrupt thread; `has_interrupt = true` is the one that counts. -/
def proceedInterrupt (machine : Machine) (stale : List UInt8) (state : CpuSystem) :
    Option CpuSystem :=
  (state.cpu.step machine (.interrupt (.proceed stale))).map fun cpu =>
    if state.cpu.interruptThread.position = .raising then
      { state with
        cpu := cpu
        raisedInterrupts := state.raisedInterrupts ++ state.receivedInterrupts
        receivedInterrupts := [] }
    else
      { state with cpu := cpu }

/-- One step; `none` where the step is not enabled. -/
def step (config : KernelConfig) (machine : Machine) (state : CpuSystem) :
    CpuSystemEvent → Option CpuSystem
  | .kernel event => state.kernelStep config event
  | .dispatchThread stale =>
      if state.cpu.dispatchThread.position = .listening then
        state.receiveDispatch machine
      else
        state.proceedDispatch machine stale
  | .interruptThread stale =>
      if state.cpu.interruptThread.position = .listening then
        state.receiveInterrupt machine
      else
        state.proceedInterrupt machine stale

end CpuSystem

end OsSimulator
