/-
Module: OsSimulator.Cpu.Threads
Purpose: The CPU's two connection threads, statement by statement around `mutex_interrupt`: both run
  `handle_kernel_connection`, one on the dispatch connection and one on the interrupt connection.
Main exports: Position, Handler, Globals, HandlerEvent, Globals.handlerStep, Cpu, Cpu.init, Cpu.step
-/
import OsSimulator.Cpu.HandleConnection

namespace OsSimulator

/-- Where a thread is in `handle_kernel_connection`, and in `execute_process` if that is called. -/
inductive Position where
  /-- At `receive_header`. -/
  | listening
  /-- In an `INTERRUPT` case, before `sem_wait`. -/
  | interrupting
  /-- Before `has_interrupt = true`. -/
  | raising
  /-- Before the `sem_post` of the `INTERRUPT` case. -/
  | raised
  /-- At the start of a turn of `execute_process`. -/
  | executing (process : Pcb)
  /-- After the instruction, before `sem_wait`. -/
  | locking (process : Pcb) (endOfExecution : Bool)
  /-- Before the flag is looked at. -/
  | testing (process : Pcb) (endOfExecution : Bool)
  /-- Before the process is sent with `INTERRUPT`. -/
  | preempting (process : Pcb)
  /-- The flag is set and the execution has ended: before `sem_post`. -/
  | rejecting
  /-- Before `has_interrupt = false` in that branch. -/
  | clearing
  /-- Before `sem_wait` in that branch. -/
  | retaking
  /-- Before the `sem_post` that ends a turn. -/
  | unlocking (process : Pcb) (endOfExecution : Bool)
  /-- `handle_kernel_connection` has returned. -/
  | stopped
deriving DecidableEq

/-- The statements between a `sem_wait` and a `sem_post` of `mutex_interrupt`. -/
def Position.inside : Position → Nat
  | .raising | .raised | .testing _ _ | .preempting _ | .rejecting | .unlocking _ _ => 1
  | _ => 0

/-- A thread, and how many tokens of `mutex_interrupt` it has taken and not given back. -/
structure Handler where
  position : Position
  tokens : Nat
deriving DecidableEq

/-- The global variables of the CPU, and the messages it has sent on the dispatch connection. -/
structure Globals where
  mutexInterrupt : Nat
  hasInterrupt : Bool
  sent : List Message
deriving DecidableEq

/-- What a thread does next: it receives a header, with a PCB if one follows, or it goes on; `stale` is
    what `malloc` returns. -/
inductive HandlerEvent where
  | receive (header : OperationCode) (pcb : Option Pcb)
  | proceed (stale : List UInt8)
deriving DecidableEq

namespace Globals

/-- The cases of `handle_kernel_connection`; `get_pcb_from_socket` waits for a PCB. -/
def handleKernelConnection (header : OperationCode) (pcb : Option Pcb) : Option Position :=
  match header with
  | .executeProcess | .waitResponse | .signalResponse => pcb.map .executing
  | .interrupt | .interruptQuantum => some .interrupting
  | _ => some .stopped

/-- `sem_wait(mutex_interrupt)`. -/
def semWait (globals : Globals) (handler : Handler) (next : Position) :
    Option (Globals × Handler) :=
  if 0 < globals.mutexInterrupt then
    some ({ globals with mutexInterrupt := globals.mutexInterrupt - 1 },
      { position := next, tokens := handler.tokens + 1 })
  else
    none

/-- `sem_post(mutex_interrupt)`. -/
def semPost (globals : Globals) (handler : Handler) (next : Position) : Globals × Handler :=
  ({ globals with mutexInterrupt := globals.mutexInterrupt + 1 },
    { position := next, tokens := handler.tokens - 1 })

/-- The instruction of a turn.  A request is sent before the program counter is increased. -/
def executeInstruction (machine : Machine) (stale : List UInt8) (globals : Globals)
    (handler : Handler) (process : Pcb) : Option (Globals × Handler) := do
  let instruction ← requestInstruction machine.memory stale process
  let (cpuRegister, request) ←
    executeInstructionCycle machine.stringSplit process.cpuRegister instruction
  let messages := request.toList.map fun request => { request := request, pcb := process }
  let process :=
    { process with cpuRegister := cpuRegister, programCounter := process.programCounter + 1 }
  return ({ globals with sent := globals.sent ++ messages },
    { handler with position := .locking process request.isSome })

/-- The next statement of a thread that is not at `receive_header`. -/
def proceed (machine : Machine) (stale : List UInt8) (globals : Globals) (handler : Handler) :
    Option (Globals × Handler) :=
  match handler.position with
  | .listening | .stopped => none
  | .interrupting => globals.semWait handler .raising
  | .raising => some ({ globals with hasInterrupt := true }, { handler with position := .raised })
  | .raised => some (globals.semPost handler .listening)
  | .executing process => globals.executeInstruction machine stale handler process
  | .locking process endOfExecution => globals.semWait handler (.testing process endOfExecution)
  | .testing process endOfExecution =>
      let next :=
        if globals.hasInterrupt then
          if endOfExecution then .rejecting else .preempting process
        else
          .unlocking process endOfExecution
      some (globals, { handler with position := next })
  | .preempting process =>
      some ({ globals with
          sent := globals.sent ++ [{ request := .interrupt, pcb := process }]
          hasInterrupt := false },
        { handler with position := .unlocking process true })
  | .rejecting => some (globals.semPost handler .clearing)
  | .clearing =>
      some ({ globals with hasInterrupt := false }, { handler with position := .retaking })
  -- `continue` goes to the condition of the loop, which is false: `execute_process` returns.
  | .retaking => globals.semWait handler .listening
  | .unlocking process endOfExecution =>
      some (globals.semPost handler (if endOfExecution then .listening else .executing process))

/-- One step of a thread. -/
def handlerStep (machine : Machine) (globals : Globals) (handler : Handler) :
    HandlerEvent → Option (Globals × Handler)
  | .receive header pcb =>
      if handler.position = .listening then
        (handleKernelConnection header pcb).map fun position =>
          (globals, { handler with position := position })
      else
        none
  | .proceed stale => globals.proceed machine stale handler

end Globals

/-- The CPU. -/
structure Cpu where
  globals : Globals
  dispatchThread : Handler
  interruptThread : Handler
deriving DecidableEq

/-- The CPU when the kernel has connected twice. -/
def Cpu.init : Cpu where
  globals := { mutexInterrupt := 1, hasInterrupt := false, sent := [] }
  dispatchThread := { position := .listening, tokens := 0 }
  interruptThread := { position := .listening, tokens := 0 }

/-- A step of one of the two threads. -/
inductive CpuEvent where
  | dispatch (event : HandlerEvent)
  | interrupt (event : HandlerEvent)
deriving DecidableEq

/-- One step of the CPU; `none` where the step is not enabled. -/
def Cpu.step (machine : Machine) (cpu : Cpu) : CpuEvent → Option Cpu
  | .dispatch event =>
      (cpu.globals.handlerStep machine cpu.dispatchThread event).map fun (globals, handler) =>
        { cpu with globals := globals, dispatchThread := handler }
  | .interrupt event =>
      (cpu.globals.handlerStep machine cpu.interruptThread event).map fun (globals, handler) =>
        { cpu with globals := globals, interruptThread := handler }

end OsSimulator
