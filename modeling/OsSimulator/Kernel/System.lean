/-
Module: OsSimulator.Kernel.System
Purpose: The kernel together with everything that acts on it: consoles, the CPU at the other end of
  the dispatch and interrupt connections, the two planners and the sleep threads.  A step is one
  message handler run to completion, one segment of a planner between two of its `sem_wait`s, one
  step of a sleep thread, or one action of the CPU.
Main exports: System, System.init, Event, System.step
-/
import OsSimulator.Kernel.HandleConnection

namespace OsSimulator

/-- Where `long_term_planner` is in its loop: which tokens it has taken. -/
inductive LongTermPosition where
  | parked
  | hasPlanner
  | hasDegree
deriving DecidableEq, Repr

/-- Where the short-term planner is in its loop: which tokens it has taken.  `inQuantum` is the
    `usleep` of `planning_with_round_robin`. -/
inductive ShortTermPosition where
  | parked
  | hasPlanner
  | hasReady
  | inQuantum
deriving DecidableEq, Repr

/-- The whole system.  `cpuMessages` are the messages the CPU has sent and the kernel has not yet
    handled; `interruptHeaders` are the interrupt headers the CPU has not yet read; `hasInterrupt`
    is the CPU's flag. -/
structure System where
  kernel : Kernel
  longTerm : LongTermPosition
  shortTerm : ShortTermPosition
  cpuMessages : List Message
  interruptHeaders : Nat
  hasInterrupt : Bool

/-- The system when `main` has created the planners and the connections. -/
def System.init (config : KernelConfig) : System where
  kernel := Kernel.init config
  longTerm := .parked
  shortTerm := .parked
  cpuMessages := []
  interruptHeaders := 0
  hasInterrupt := false

/-- What can happen next. -/
inductive Event where
  | createProcess (path : String) (quantum clientSocket : Int32)
  | finishProcess (pid : UInt32)
  | startPlanning
  | stopPlanning
  | modifyMultiprogrammingDegree (newDegree : Int32)
  | longTermPlanner
  | shortTermPlanner
  | cpuExecute (request : CpuRequest) (cpuRegister : List (BitVec 64)) (programCounter : Int32)
  | cpuReadInterrupt
  | handleDispatch
  | sleepThread (index : Nat)
deriving DecidableEq, Repr

namespace System

/-- Apply a kernel operation. -/
def onKernel (system : System) (operation : Kernel → Option Kernel) : Option System :=
  (operation system.kernel).map fun kernel => { system with kernel := kernel }

/-- The next segment of `long_term_planner`. -/
def longTermPlanner (system : System) : Option System :=
  match system.longTerm with
  | .parked =>
      (system.kernel.semWait .longTermPlanner).map fun kernel =>
        { system with kernel := kernel, longTerm := .hasPlanner }
  | .hasPlanner =>
      (system.kernel.semWait .multiprogrammingDegree).map fun kernel =>
        { system with kernel := kernel, longTerm := .hasDegree }
  | .hasDegree =>
      system.kernel.longTermPlannerAdmit.map fun kernel =>
        { system with kernel := kernel, longTerm := .parked }

/-- `short_term_planner` runs one of three loops and returns for any other name. -/
def knownAlgorithm (config : KernelConfig) : Bool :=
  config.planningAlgorithm ∈ ["FIFO", "ROUND_ROBIN", "PRIORITIES"]

/-- The next segment of the short-term planner. -/
def shortTermPlanner (config : KernelConfig) (system : System) : Option System :=
  if knownAlgorithm config then
    match system.shortTerm with
    | .parked =>
        (system.kernel.semWait .shortTermPlanner).map fun kernel =>
          { system with kernel := kernel, shortTerm := .hasPlanner }
    | .hasPlanner =>
        (system.kernel.semWait .processReady).map fun kernel =>
          { system with kernel := kernel, shortTerm := .hasReady }
    | .hasReady =>
        (system.kernel.shortTermPlannerDispatch config).map fun kernel =>
          if config.planningAlgorithm = "ROUND_ROBIN" then
            { system with kernel := kernel, shortTerm := .inQuantum }
          else
            { system with kernel := kernel.semPost .shortTermPlanner, shortTerm := .parked }
    | .inQuantum =>
        some
          { system with
            kernel := system.kernel.semPost .shortTermPlanner
            shortTerm := .parked
            interruptHeaders := system.interruptHeaders + 1 }
  else
    none

/-- `execute_process` on the first PCB the CPU has not answered, up to the message that ends the
    turn.  The program decides the registers, the program counter and the request; the rest of the
    PCB is sent back as it came.  Only a pending interrupt makes it send `INTERRUPT`, and any
    message leaves the flag cleared. -/
def cpuExecute (request : CpuRequest) (cpuRegister : List (BitVec 64)) (programCounter : Int32)
    (system : System) : Option System :=
  match system.kernel.cpuDispatchConnection with
  | [] => none
  | (_, process) :: rest =>
      if request = .interrupt ∧ system.hasInterrupt = false then
        none
      else
        let pcb :=
          { process with cpuRegister := cpuRegister, programCounter := programCounter }
        some
          { system with
            kernel := { system.kernel with cpuDispatchConnection := rest }
            cpuMessages := system.cpuMessages ++ [⟨request, pcb⟩]
            hasInterrupt := false }

/-- One step of the system; `none` where the step is not enabled. -/
def step (config : KernelConfig) (system : System) : Event → Option System
  | .createProcess path quantum clientSocket =>
      system.onKernel fun kernel => some (kernel.receivePcbAndCreate path quantum clientSocket)
  | .finishProcess pid => system.onKernel (Kernel.finishProcess pid)
  | .startPlanning => system.onKernel Kernel.startPlanning
  | .stopPlanning => system.onKernel Kernel.stopPlanning
  | .modifyMultiprogrammingDegree newDegree =>
      system.onKernel fun kernel => some (kernel.modifyMultiprogrammingDegree newDegree)
  | .longTermPlanner => system.longTermPlanner
  | .shortTermPlanner => system.shortTermPlanner config
  | .cpuExecute request cpuRegister programCounter =>
      system.cpuExecute request cpuRegister programCounter
  | .cpuReadInterrupt =>
      if 0 < system.interruptHeaders then
        some { system with
          interruptHeaders := system.interruptHeaders - 1
          hasInterrupt := true }
      else
        none
  | .handleDispatch =>
      match system.cpuMessages with
      | [] => none
      | message :: rest =>
          { system with cpuMessages := rest }.onKernel (Kernel.handleDispatchConnection message)
  | .sleepThread index =>
      match system.kernel.sleepThreads[index]? with
      | none => none
      | some thread =>
          some { system with kernel := system.kernel.sleepThreadStep thread index }

end System

end OsSimulator
