/-
Module: OsSimulator.Memory.FinishProcess
Purpose: `handle_finish_process` of the memory program with its two connections: the one to the kernel,
  from which the header of a request was received, and the one to the filesystem.
Main exports: MemoryProgram, MemoryProgram.receiving, MemoryProgram.handleFinishProcessWith,
  MemoryProgram.handleFinishProcess
-/
import OsSimulator.Memory.HandleConnection
import OsSimulator.Shared.Swap

namespace OsSimulator

open Bytes

/-- The page tables, what can be received from the kernel, and the packages that were sent on
    `filesystem_connection`, the oldest first. -/
structure MemoryProgram where
  memory : PagedMemory
  kernelConnection : Connection
  filesystemConnection : List Package

namespace MemoryProgram

/-- The header of this package was received from the kernel; its payload and the following bytes are
    still on the connection. -/
def receiving (package : Package) (following : List UInt8) (memory : PagedMemory) : MemoryProgram where
  memory := memory
  kernelConnection :=
    { stream := ofWord package.payload.offset ++ package.payload.contents ++ following, calls := 0 }
  filesystemConnection := []

/-- `handle_finish_process`, where `receive` is what `receive_payload` does with the connection to the
    kernel, and `freeAgain` is what becomes of the table that `delete_page_table` has freed when it is
    freed again at the end. -/
def handleFinishProcessWith (receive : Receiver (Option Buffer))
    (freeAgain : Nat → PagedMemory → Option PagedMemory) (stringAt : Int32 → Option String)
    (stale : List UInt8) (program : MemoryProgram) : Option MemoryProgram := do
  let (payload, kernelConnection) ← receive program.kernelConnection
  let payload ← payload
  let (pcb, _) ← takePcbFromBuffer payload
  let pid := pcb.pid.toInt32
  let tablePage ← program.memory.getTablePagesByPid pid
  let (swapPositions, memory) ← program.memory.deletePageTable tablePage
  let package ← sendSwap stringAt stale .finishProcess pid swapPositions
  let memory ← freeAgain tablePage memory
  return { memory := memory
           kernelConnection := kernelConnection
           filesystemConnection := program.filesystemConnection ++ [package] }

/-- `receive_payload` on `socket`, the function of the C library: its address is no descriptor, and the
    connection to the kernel is not touched. -/
def receiveFromFunction : Receiver (Option Buffer) := fun kernelConnection => do
  let (payload, _) ← receivePayload badDescriptor { stream := [], calls := 0 }
  return (payload, kernelConnection)

/-- `handle_finish_process`. -/
def handleFinishProcess (stringAt : Int32 → Option String) (stale : List UInt8)
    (program : MemoryProgram) : Option MemoryProgram :=
  program.handleFinishProcessWith receiveFromFunction PagedMemory.freePageTable stringAt stale

end MemoryProgram

end OsSimulator
