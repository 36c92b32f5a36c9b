/-
Module: OsSimulator.Concurrent.World
Purpose: The threads of the kernel at work: the two planners, the handler of the CPU's messages, one
  thread for every console connection and every sleeping process, interleaved operation by
  operation, and the CPU at the other end of its connections.
Main exports: Role, World, World.init, WorldEvent, World.step
-/
import OsSimulator.Concurrent.Code

namespace OsSimulator

open Threads

/-- What a thread of the kernel is there for.  A console that has not been sent a command yet has
    none. -/
inductive Role where
  | longTermPlanner
  | shortTermPlanner
  | dispatchHandler (message : Option Message)
  | console (command : Option Command)
  | sleeper (process : PcbPointer) (sleepTime : Int32)
deriving DecidableEq, Repr

/-- The pool of the kernel's threads, with what the CPU has sent and not yet been answered, and its
    interrupt flag. -/
structure World where
  pool : Pool Role Operation Memory
  cpuMessages : List Message
  hasInterrupt : Bool

/-- When `main` has created its threads: both planners are at the start of their first iteration, and
    no console has connected. -/
def World.init (config : KernelConfig) : World where
  pool :=
    { state := Memory.init config
      threads :=
        [.start .longTermPlanner Code.longTermPlanner,
          .start .shortTermPlanner (Code.shortTermPlanner config),
          .start (.dispatchHandler none) (pure ())] }
  cpuMessages := []
  hasInterrupt := false

/-- What can happen next: a thread performs its next operation; a planner that is through with an
    iteration starts the next one; a console connects, or sends a command to its handler, which is
    waiting for one; the dispatch handler receives a message; a created thread starts; the CPU ends a
    turn, or reads an interrupt header. -/
inductive WorldEvent where
  | advance (index : Nat)
  | iterate (index : Nat)
  | connect
  | command (index : Nat) (command : Command)
  | receive (index : Nat)
  | startSleeper
  | cpuExecute (request : CpuRequest) (cpuRegister : List (BitVec 64)) (programCounter : Int32)
  | cpuReadInterrupt
deriving DecidableEq, Repr

namespace World

/-- The memory that the threads share. -/
abbrev memory (world : World) : Memory := world.pool.state

/-- The role of the thread at `index`. -/
def roleAt (world : World) (index : Nat) : Option Role := world.pool.threads[index]?.map Thread.role

/-- Take a step with the pool. -/
def onPool (world : World) (step : Pool Role Operation Memory → Option (Pool Role Operation Memory)) :
    Option World :=
  (step world.pool).map fun pool => { world with pool := pool }

/-- The next iteration of a planner. -/
def iterate (config : KernelConfig) (index : Nat) (world : World) : Option World :=
  match world.roleAt index with
  | some .longTermPlanner => world.onPool (Pool.restart index .longTermPlanner Code.longTermPlanner)
  | some .shortTermPlanner =>
      world.onPool (Pool.restart index .shortTermPlanner (Code.shortTermPlanner config))
  | _ => none

/-- A console's command reaches its handler. -/
def command (index : Nat) (request : Command) (world : World) : Option World :=
  match world.roleAt index with
  | some (.console _) =>
      world.onPool (Pool.restart index (.console (some request)) (Code.handlerConnection request))
  | _ => none

/-- The oldest of the CPU's messages reaches the dispatch handler. -/
def receive (index : Nat) (world : World) : Option World :=
  match world.roleAt index, world.cpuMessages with
  | some (.dispatchHandler _), message :: rest =>
      { world with cpuMessages := rest }.onPool
        (Pool.restart index (.dispatchHandler (some message))
          (Code.handleDispatchConnection message))
  | _, _ => none

/-- The oldest of the created threads begins to run. -/
def startSleeper (world : World) : Option World :=
  match world.memory.createdThreads with
  | [] => none
  | (process, sleepTime) :: rest =>
      some { world with
        pool := Pool.spawn (.sleeper process sleepTime) (Code.threadSleepProcess process)
          { world.pool with state := { world.memory with createdThreads := rest } } }

/-- `execute_process` of the CPU on the first PCB it has not answered, up to the message that ends the
    turn; as `System.cpuExecute`. -/
def cpuExecute (request : CpuRequest) (cpuRegister : List (BitVec 64)) (programCounter : Int32)
    (world : World) : Option World :=
  match world.memory.cpuDispatchConnection with
  | [] => none
  | (_, process) :: rest =>
      if request = .interrupt ∧ world.hasInterrupt = false then
        none
      else
        let pcb := { process with cpuRegister := cpuRegister, programCounter := programCounter }
        some
          { world with
            pool := { world.pool with
              state := { world.memory with cpuDispatchConnection := rest } }
            cpuMessages := world.cpuMessages ++ [⟨request, pcb⟩]
            hasInterrupt := false }

/-- One step of the world; `none` where it is not enabled. -/
def step (config : KernelConfig) (world : World) : WorldEvent → Option World
  | .advance index => world.onPool (Pool.advance (Operation.perform config) index)
  | .iterate index => world.iterate config index
  | .connect => some { world with pool := world.pool.spawn (.console none) (pure ()) }
  | .command index request => world.command index request
  | .receive index => world.receive index
  | .startSleeper => world.startSleeper
  | .cpuExecute request cpuRegister programCounter =>
      world.cpuExecute request cpuRegister programCounter
  | .cpuReadInterrupt =>
      if 0 < world.memory.interruptHeaders then
        some { world with
          pool := { world.pool with
            state := { world.memory with interruptHeaders := world.memory.interruptHeaders - 1 } }
          hasInterrupt := true }
      else
        none

end World

end OsSimulator
