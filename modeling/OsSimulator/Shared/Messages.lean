/-
Module: OsSimulator.Shared.Messages
Purpose: The messages about a process (`shared/src/process.c`): how a PCB is written to a buffer and
  taken from it, and the packages of `send_pcb`, `send_pcb_and_resource` and `send_sleep` with what
  the kernel takes from them.
Main exports: Package, addPcbToBuffer, takePcbFromBuffer, sendPcb, sendPcbAndResource, sendSleep,
  takePcbAndResource, takePcbAndTime
-/
import OsSimulator.Shared.Process
import OsSimulator.Shared.Serialization

namespace OsSimulator

/-- The value of an operation code, its place in the enumeration. -/
def OperationCode.value (code : OperationCode) : UInt8 := .ofNat code.ctorIdx

namespace ProcessState

/-- The value of a state; `EXIT` is the thirteenth instruction type. -/
def value : ProcessState → Int32
  | .new => 0
  | .ready => 1
  | .execution => 2
  | .blocked => 3
  | .exit => 12

/-- The state with a value, if it is one. -/
def ofValue? (value : Int32) : Option ProcessState :=
  [new, ready, execution, blocked, exit].find? fun state => state.value = value

end ProcessState

/-- `t_package`. -/
structure Package where
  header : UInt8
  payload : Buffer

/-- `create_package`. -/
def createPackage (header : OperationCode) (stale : List UInt8) : Package :=
  { header := header.value, payload := createBuffer stale }

/-- `add_UINT32_to_buffer` called with a cell of `cpu_register`: its low half is passed. -/
def addCellToBuffer (buffer : Buffer) (cell : BitVec 64) : Buffer :=
  buffer.addUInt32ToBuffer (.ofBitVec (cell.truncate 32))

/-- `take_UINT32_from_buffer` called for a cell of `cpu_register`: the high half is cleared. -/
def takeCellFromBuffer : Taker (BitVec 64) := do
  let value ← takeUInt32FromBuffer
  return value.toBitVec.zeroExtend 64

/-- `add_pcb_to_buffer`. -/
def addPcbToBuffer (buffer : Buffer) (pcb : Pcb) : Buffer :=
  let buffer := buffer.addUInt32ToBuffer pcb.pid
  let buffer := buffer.addInt32ToBuffer pcb.programCounter
  let buffer := buffer.addInt32ToBuffer pcb.quantum
  let buffer := buffer.addUInt32ToBuffer pcb.size.toUInt32
  let buffer := buffer.addListToBuffer addCellToBuffer pcb.cpuRegister
  let buffer := buffer.addListToBuffer Buffer.addStringToBuffer pcb.resources
  let buffer := buffer.addInt32ToBuffer pcb.tablePages
  let buffer := buffer.addStringToBuffer pcb.path
  let buffer := buffer.addInt32ToBuffer pcb.state.value
  buffer.addInt32ToBuffer pcb.clientSocket

/-- `take_pcb_from_buffer`; a value that is no state has no PCB in the model. -/
def takePcbFromBuffer : Taker Pcb := do
  let pid ← takeUInt32FromBuffer
  let programCounter ← takeInt32FromBuffer
  let quantum ← takeInt32FromBuffer
  let size ← takeUInt32FromBuffer
  let cpuRegister ← takeListFromBuffer takeCellFromBuffer
  let resources ← takeListFromBuffer takeStringFromBuffer
  let tablePages ← takeInt32FromBuffer
  let path ← takeStringFromBuffer
  let stateValue ← takeInt32FromBuffer
  let state ← StateT.lift (ProcessState.ofValue? stateValue)
  let clientSocket ← takeInt32FromBuffer
  return { pid := pid, programCounter := programCounter, size := size.toInt32, quantum := quantum,
           cpuRegister := cpuRegister, resources := resources, tablePages := tablePages,
           path := path, state := state, clientSocket := clientSocket }

/-- The package of `send_pcb`. -/
def sendPcb (stale : List UInt8) (header : OperationCode) (pcb : Pcb) : Package :=
  let package := createPackage header stale
  { package with payload := addPcbToBuffer package.payload pcb }

/-- The package of `send_pcb_and_resource`. -/
def sendPcbAndResource (stale : List UInt8) (header : OperationCode) (pcb : Pcb)
    (resource : String) : Package :=
  let package := createPackage header stale
  let package := { package with payload := addPcbToBuffer package.payload pcb }
  { package with payload := package.payload.addStringToBuffer resource }

/-- The package of `send_sleep`. -/
def sendSleep (stale : List UInt8) (header : OperationCode) (pcb : Pcb) (sleepTime : Int32) :
    Package :=
  let package := createPackage header stale
  let package := { package with payload := addPcbToBuffer package.payload pcb }
  { package with payload := package.payload.addInt32ToBuffer sleepTime }

/-- What the `WAIT_REQUEST` and `SIGNAL_REQUEST` cases of `handle_dispatch_connection` take from the
    payload. -/
def takePcbAndResource : Taker (Pcb × String) := do
  let pcb ← takePcbFromBuffer
  let resourceRequested ← takeStringFromBuffer
  return (pcb, resourceRequested)

/-- What the `SLEEP_REQUEST` case of `handle_dispatch_connection` takes from the payload. -/
def takePcbAndTime : Taker (Pcb × Int32) := do
  let pcb ← takePcbFromBuffer
  let timeToSleep ← takeInt32FromBuffer
  return (pcb, timeToSleep)

end OsSimulator
