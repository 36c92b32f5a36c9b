/-
Module: OsSimulator.Cpu.HandleConnection
Purpose: `execute_process` of `cpu/src/handle_connection.c`, and the way of a process through the
  kernel when it is interrupted: its PCB crosses the wire, is queued, dispatched, and crosses again.
Main exports: receivePcb, requestInstruction, executeTurn, dispatchToCpu, requeueInterrupted,
  Turn.next, Turn.executed, processExecution
-/
import OsSimulator.Cpu.InstructionExecution
import OsSimulator.Memory.Instructions

namespace OsSimulator

/-- What the CPU runs with: the memory program's files, and `string_split` of the library. -/
structure Machine where
  memory : FileSystem
  stringSplit : String → List String

/-- `get_pcb_from_socket` on the payload of a package that `send_pcb` sent. -/
def receivePcb (package : Package) : Option Pcb :=
  (takePcbFromBuffer (createBuffer package.payload.contents)).map Prod.fst

/-- The exchange with memory at the start of a turn: the PCB is sent with `INSTRUCTIONS`, and the answer
    is taken as a string. -/
def requestInstruction (memory : FileSystem) (stale : List UInt8) (process : Pcb) : Option String := do
  let request := sendPcb stale .instructions process
  let answer ← handleInstruction memory stale request.payload.contents
  let (instruction, _) ← takeStringFromBuffer (createBuffer answer.payload.contents)
  return instruction

/-- What is left of one turn of `execute_process`: the instruction, the process after it, and the
    message to the kernel if the turn was the last. -/
structure Turn where
  instruction : String
  process : Pcb
  request : Option CpuRequest

/-- One turn of the loop of `execute_process`; `hasInterrupt` is the flag when the turn looks at it.
    The flag is cleared, and the process sent, only if the instruction did not end the execution. -/
def executeTurn (machine : Machine) (stale : List UInt8) (hasInterrupt : Bool) (process : Pcb) :
    Option Turn := do
  let instruction ← requestInstruction machine.memory stale process
  let (cpuRegister, request) ←
    executeInstructionCycle machine.stringSplit process.cpuRegister instruction
  let process :=
    { process with cpuRegister := cpuRegister, programCounter := process.programCounter + 1 }
  let endOfExecution := request.isSome
  let request := if hasInterrupt ∧ !endOfExecution then some .interrupt else request
  return { instruction := instruction, process := process, request := request }

/-- `move_process_to_exec` for the process at the head of `queue_ready`, and `execute_process` up to its
    loop. -/
def dispatchToCpu (stale : List UInt8) (processToMove : Pcb) : Option Pcb :=
  receivePcb (sendPcb stale .executeProcess (processToMove.setState .execution))

/-- The way of an interrupted process: the `INTERRUPT` case of `handle_dispatch_connection` puts the PCB
    of the message into `queue_ready`, and later it is dispatched from there. -/
def requeueInterrupted (stale : List UInt8) (process : Pcb) : Option Pcb := do
  let pcb ← receivePcb (sendPcb stale .interrupt process)
  dispatchToCpu stale (pcb.setState .ready)

/-- The process that the CPU goes on with after a turn: the same one, or the same one once it was
    interrupted, queued and dispatched.  After any other request the turn was the last. -/
def Turn.next (stale : List UInt8) (turn : Turn) : Option Pcb :=
  match turn.request with
  | none => some turn.process
  | some .interrupt => requeueInterrupted stale turn.process
  | some _ => none

/-- What a turn executed: the instruction, and the registers after it modulo `2 ^ 32`. -/
structure Executed where
  instruction : String
  registers : List Nat
deriving DecidableEq, Repr

/-- What a turn executed. -/
def Turn.executed (turn : Turn) : Executed where
  instruction := turn.instruction
  registers := turn.process.cpuRegister.map (·.toNat % 2 ^ 32)

/-- `hasInterrupt turn` is the flag when that turn looks at it, and `stale turn` what `malloc` returns
    during it. -/
structure Timing where
  hasInterrupt : Nat → Bool
  stale : Nat → List UInt8

/-- What is executed for a process that the CPU has taken, in so many turns from a given one on, until
    it asks something else of the kernel than to be queued again. -/
def instructionsExecuted (machine : Machine) (timing : Timing) : Nat → Nat → Pcb → List Executed
  | 0, _, _ => []
  | turns + 1, number, process =>
      (executeTurn machine (timing.stale number) (timing.hasInterrupt number) process).elim []
        fun turn => turn.executed ::
          (turn.next (timing.stale number)).elim []
            (instructionsExecuted machine timing turns (number + 1))

/-- What is executed for a process of `queue_ready`, from its dispatch on. -/
def processExecution (machine : Machine) (timing : Timing) (turns : Nat) (pcb : Pcb) :
    List Executed :=
  (dispatchToCpu (timing.stale 0) pcb).elim [] (instructionsExecuted machine timing turns 0)

end OsSimulator
