/-
Module: OsSimulator.Console.Console
Purpose: `console/src/console.c`: the commands of the console, and its ways to be given them, the lines
  of a script, the lines that are typed, and the menu.  `string_trim` and `string_split` are parameters.
Main exports: ConsoleCommand, translateCommand, startConsole, interactiveMenu, ConsoleInput, Script,
  Console, readFile, enterCommand, startManualConsole
-/
import OsSimulator.Cpu.InstructionExecution
import OsSimulator.Lib.Lines
import OsSimulator.Memory.Instructions
import OsSimulator.Shared.Sockets

namespace OsSimulator

/-! ### Commands -/

/-- `t_command`. -/
inductive ConsoleCommand where
  | iniciarProceso
  | finalizarProceso
  | detenerPlanificacion
  | iniciarPlanificacion
  | executeScript
  | procesoEstado
  | salir
  | error
deriving DecidableEq, Repr

/-- `translate_command`. -/
def translateCommand (command : String) : ConsoleCommand :=
  if command = "INICIAR_PROCESO" then .iniciarProceso
  else if command = "FINALIZAR_PROCESO" then .finalizarProceso
  else if command = "DETENER_PLANIFICACION" then .detenerPlanificacion
  else if command = "INICIAR_PLANIFICACION" then .iniciarPlanificacion
  else if command = "EXECUTE_SCRIPT" then .executeScript
  else if command = "PROCESO_ESTADO" then .procesoEstado
  else if command = "SALIR" then .salir
  else .error

/-- The package of `send_process`. -/
def sendProcess (stale : List UInt8) (path : String) : Package :=
  let package := createPackage .createProcess stale
  { package with payload := package.payload.addStringToBuffer path }

/-- The package of `send_process_id`. -/
def sendProcessId (stale : List UInt8) (header : OperationCode) (id : Int32) : Package :=
  let package := createPackage header stale
  { package with payload := package.payload.addUInt32ToBuffer id.toUInt32 }

/-- Whether the console goes on, was closed by `close_program`, or has read through a null pointer. -/
inductive ConsoleStatus where
  | running
  | closed
  | dead
deriving DecidableEq, Repr

/-- `start_console`: the messages it sends to the kernel, and whether the console goes on.  Past the end
    of the arguments is the null pointer. -/
def startConsole (stale : List UInt8) (arguments : List String) : List Frame × ConsoleStatus :=
  match arguments with
  | [] => ([], .dead)
  | command :: parameters =>
      match translateCommand command with
      | .iniciarProceso =>
          match parameters with
          | [] => ([], .dead)
          | path :: _ => ([.package (sendProcess stale path)], .running)
      | .finalizarProceso =>
          match parameters with
          | [] => ([], .dead)
          | id :: _ => ([.package (sendProcessId stale .finishProcess (atoi id))], .running)
      | .detenerPlanificacion => ([.header OperationCode.stopPlanning.value], .running)
      | .iniciarPlanificacion => ([.header OperationCode.startPlanning.value], .running)
      | .procesoEstado => ([.header OperationCode.showAllProcesses.value], .running)
      | .salir => ([], .closed)
      | .executeScript | .error => ([], .running)

/-- One turn of `interactive_menu`: the line that is typed, and the one that answers the question of the
    first two choices.  The lines of the script that the fifth choice reads are commands of their own. -/
def interactiveMenu (stale : List UInt8) (arguments answer : String) : List Frame × ConsoleStatus :=
  let choice := atoi arguments
  if choice = 1 then ([.package (sendProcess stale answer)], .running)
  else if choice = 2 then
    ([.package (sendProcessId stale .finishProcess (atoi answer))], .running)
  else if choice = 3 then ([.header OperationCode.startPlanning.value], .running)
  else if choice = 4 then ([.header OperationCode.stopPlanning.value], .running)
  else if choice = 6 then ([.header OperationCode.showAllProcesses.value], .running)
  else if choice = 7 then ([], .closed)
  else ([], .running)

/-- What a console is given: the arguments of a command, or a turn of the menu. -/
inductive ConsoleInput where
  | command (arguments : List String)
  | choice (arguments answer : String)
deriving DecidableEq, Repr

/-- What the console does with it. -/
def ConsoleInput.run (stale : List UInt8) : ConsoleInput → List Frame × ConsoleStatus
  | .command arguments => startConsole stale arguments
  | .choice arguments answer => interactiveMenu stale arguments answer

/-! ### The console at work -/

/-- The console: the arguments that `start_console` was run on and what it sent to the kernel, both the
    oldest first. -/
structure Console where
  started : List (List String)
  sent : List Frame
  status : ConsoleStatus

/-- The console before its first command. -/
def Console.initial : Console where
  started := []
  sent := []
  status := .running

/-- `start_console`, if the console still runs. -/
def Console.start (stale : List UInt8) (console : Console) (arguments : List String) : Console :=
  if console.status = .running then
    let (frames, status) := startConsole stale arguments
    { started := console.started ++ [arguments]
      sent := console.sent ++ frames
      status := status }
  else
    console

section

variable (stringTrim : String → String) (stringSplit : String → List String) (stale : List UInt8)

/-- The loop of `read_file`, with at most so many turns; `fgets` has a buffer of 100 bytes. -/
def readFileLoop : Nat → List UInt8 → Console → Console
  | 0, _, console => console
  | turns + 1, fileToRead, console =>
      match Lines.readLine newline 99 fileToRead with
      | none => console
      | some (lineInstruction, rest) =>
          readFileLoop turns rest (console.start stale (stringSplit (ofCBytes lineInstruction)))

/-- `read_file` on a file that can be opened; each turn of its loop reads at least one byte. -/
def readFile (fileToRead : List UInt8) (console : Console) : Console :=
  readFileLoop stringSplit stale fileToRead.length fileToRead console

/-- `enter_command` when this line is typed. -/
def enterCommand (line : String) : List String := stringSplit (stringTrim line)

/-- `start_manual_console` when these lines are typed. -/
def startManualConsole (lines : List String) (console : Console) : Console :=
  lines.foldl (fun console line => console.start stale (enterCommand stringTrim stringSplit line))
    console

end

/-- A script is a text: its lines can be typed, so that none has a NUL. -/
structure Script where
  bytes : List UInt8
  text : 0 ∉ bytes

/-- The lines of a script, as they are typed. -/
def Script.lines (script : Script) : List String :=
  (Lines.lines newline script.bytes).map ofCBytes

end OsSimulator
