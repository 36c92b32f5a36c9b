/-
Module: OsSimulator.Shared.Loops
Purpose: The five loops of the three programs that receive one header after the other, up to the
  operation that each case of their `switch` begins, on a connection that the peer closes once its
  messages are sent.
Main exports: ReceiveLoop, ReceiveLoop.operations, ReceiveLoop.switch, LoopEvent, LoopRun,
  ReceiveLoop.turn, ReceiveLoop.turns
-/
import OsSimulator.Shared.Sockets

namespace OsSimulator

/-! ### A connection that the peer has closed -/

/-- `recv` on a connection that the peer closed after the bytes that are still to be received: it
    returns 0 from the last of them on. -/
def Transport.untilClosed (transport : Transport) (connection : Connection) : Transport :=
  if connection.stream = [] then fun _ _ => 0 else transport

/-- `receive_header`, which drops the result of `socket_get`: without a byte the header is what its
    variable held, `stale`. -/
def receiveHeaderUntilClosed (transport : Transport) (stale : UInt8) : Receiver UInt8 :=
  fun connection => do
    let (bytes, connection) ← socketGet (transport.untilClosed connection) 1 connection
    return ((bytes.bind List.head?).getD stale, connection)

/-- `receive_payload`. -/
def receivePayloadUntilClosed (transport : Transport) : Receiver (Option Buffer) :=
  fun connection => receivePayload (transport.untilClosed connection) connection

/-! ### The loops -/

/-- `handler_connection` and `handle_dispatch_connection` of the kernel, `handle_kernel_connection` and
    `handle_cpu_connection` of memory, `handle_kernel_connection` of the CPU. -/
inductive ReceiveLoop where
  | kernelConsole
  | kernelDispatch
  | memoryKernel
  | memoryCpu
  | cpuKernel
deriving DecidableEq, Repr

/-- How the operation of a case goes on with the connection.  `elsewhere` is `handle_finish_process` of
    memory: its `socket` is the function of the C library, and on what is no descriptor `recv_all`
    goes on for ever. -/
inductive Handling where
  | bare
  | payload
  | elsewhere
deriving DecidableEq, Repr

/-- A case of a `switch`: an operation, `case -1` or `default`. -/
inductive SwitchCase where
  | operation (handling : Handling)
  | disconnected
  | incorrect
deriving DecidableEq, Repr

namespace ReceiveLoop

/-- The operations that the loop has cases for. -/
def operations : ReceiveLoop → List (OperationCode × Handling)
  | .kernelConsole =>
      [(.createProcess, .payload), (.finishProcess, .payload), (.stopPlanning, .bare),
        (.startPlanning, .bare), (.modifyMultiprogrammingDegree, .payload),
        (.showAllProcesses, .bare)]
  | .kernelDispatch =>
      [(.finishProcess, .payload), (.blockProcess, .payload), (.interrupt, .payload),
        (.waitRequest, .payload), (.signalRequest, .payload), (.sleepRequest, .payload),
        (.pageFaultRequest, .payload)]
  | .memoryKernel => [(.createProcess, .payload), (.finishProcess, .elsewhere)]
  | .memoryCpu =>
      [(.instructions, .payload), (.reserveSwap, .payload), (.getFrame, .payload),
        (.pageFault, .payload), (.readMemory, .payload), (.writeMemory, .payload)]
  | .cpuKernel =>
      [(.executeProcess, .payload), (.interrupt, .bare), (.interruptQuantum, .bare),
        (.waitResponse, .payload), (.signalResponse, .payload)]

/-- `case -1` and `default` end with `return`; in the other loops they end with `break`. -/
def returns : ReceiveLoop → Bool
  | .kernelDispatch | .cpuKernel => true
  | .kernelConsole | .memoryKernel | .memoryCpu => false

/-- What the operation with this code does with the connection, if there is a case for it. -/
def handling? (loop : ReceiveLoop) (header : UInt8) : Option Handling :=
  (loop.operations.find? fun operation => operation.1.value == header).map Prod.snd

/-- The `switch`: the unsigned byte is promoted to an `int`. -/
def switch (loop : ReceiveLoop) (header : UInt8) : SwitchCase :=
  match loop.handling? header with
  | some handling => .operation handling
  | none => if (header.toNat : Int) = -1 then .disconnected else .incorrect

end ReceiveLoop

/-! ### Running a loop -/

/-- What a loop does: it begins an operation with what it received for it, where `some none` is the null
    pointer in the place of a payload, or it logs an error. -/
inductive LoopEvent where
  | operation (received : UInt8 × Option (Option Buffer))
  | disconnected
  | incorrect (header : UInt8)

/-- Whether a loop goes on, has been left, waits for ever, or has read through the null pointer. -/
inductive LoopStatus where
  | running
  | left
  | stuck
  | dead
deriving DecidableEq, Repr

/-- A loop at work: what it has done, the oldest first, and what is left on its connection. -/
structure LoopRun where
  events : List LoopEvent
  status : LoopStatus
  connection : Connection

/-- A loop at its start. -/
def LoopRun.start (connection : Connection) : LoopRun where
  events := []
  status := .running
  connection := connection

namespace ReceiveLoop

/-- The status after a log line. -/
def afterError (loop : ReceiveLoop) : LoopStatus := if loop.returns then .left else .running

/-- One turn of the loop; `stale` is what the header's variable held before. -/
def turn (transport : Transport) (stale : UInt8) (loop : ReceiveLoop) (run : LoopRun) :
    Option LoopRun :=
  match run.status with
  | .running => do
      let (header, connection) ← receiveHeaderUntilClosed transport stale run.connection
      match loop.switch header with
      | .operation .bare =>
          return { events := run.events ++ [.operation (header, none)]
                   status := .running
                   connection := connection }
      | .operation .payload =>
          let (payload, connection) ← receivePayloadUntilClosed transport connection
          return { events := run.events ++ [.operation (header, some payload)]
                   status := if payload.isSome then .running else .dead
                   connection := connection }
      | .operation .elsewhere =>
          return { events := run.events ++ [.operation (header, none)]
                   status := .stuck
                   connection := connection }
      | .disconnected =>
          return { events := run.events ++ [.disconnected]
                   status := loop.afterError
                   connection := connection }
      | .incorrect =>
          return { events := run.events ++ [.incorrect header]
                   status := loop.afterError
                   connection := connection }
  | .left | .stuck | .dead => some run

/-- So many turns; `stale number` is what the header's variable held in that turn. -/
def turns (transport : Transport) (stale : Nat → UInt8) (loop : ReceiveLoop) (run : LoopRun) :
    Nat → Option LoopRun
  | 0 => some run
  | count + 1 => (turns transport stale loop run count).bind (turn transport (stale count) loop)

end ReceiveLoop

end OsSimulator
