/-
Module: OsSimulator.Shared.Process
Purpose: The process control block and the operation codes that the programs exchange
  (`shared/include/process.h`, `shared/include/operation_handler.h`).
Main exports: ProcessState, Pcb, Pcb.setState, OperationCode
-/
import Mathlib.Init

namespace OsSimulator

/-- `t_process_state`.  The enumeration of the source ends at `BLOCKED`; `exit` is the value that
    `finish_process` stores, the constant `EXIT` of `t_instruction_type`. -/
inductive ProcessState where
  | new
  | ready
  | execution
  | blocked
  | exit
deriving DecidableEq, Repr, Inhabited

/-- `t_pcb`.  The cells of `cpu_register` hold `void *` values, so they are machine words; the
    strings of `resources` and the `path` are C strings. -/
structure Pcb where
  pid : UInt32
  programCounter : Int32
  size : Int32
  quantum : Int32
  cpuRegister : List (BitVec 64)
  resources : List String
  tablePages : Int32
  path : String
  state : ProcessState
  clientSocket : Int32
deriving DecidableEq, Repr

/-- `pcb->state = state`. -/
def Pcb.setState (pcb : Pcb) (state : ProcessState) : Pcb := { pcb with state := state }

namespace Pcb

variable (pcb : Pcb) (state other : ProcessState)

@[simp] theorem setState_state : (pcb.setState state).state = state := rfl

@[simp] theorem setState_pid : (pcb.setState state).pid = pcb.pid := rfl

@[simp] theorem setState_resources : (pcb.setState state).resources = pcb.resources := rfl

@[simp] theorem setState_cpuRegister : (pcb.setState state).cpuRegister = pcb.cpuRegister := rfl

@[simp] theorem setState_programCounter :
    (pcb.setState state).programCounter = pcb.programCounter := rfl

end Pcb

/-- `t_operation_code`. -/
inductive OperationCode where
  | defaultOperation
  | instruction
  | instructions
  | interrupt
  | rejectedInterruption
  | interruptQuantum
  | interruptPriority
  | dispatchProcess
  | createProcess
  | processDenied
  | finishProcess
  | blockProcess
  | executeProcess
  | stopPlanning
  | startPlanning
  | modifyMultiprogrammingDegree
  | showAllProcesses
  | writeInMemory
  | memoryOk
  | kernel
  | cpu
  | filesystem
  | memory
  | console
  | loadPage
  | pageFaultRequest
  | pageFault
  | connectionCpuMemory
  | processCreated
  | getFrame
  | writeMemory
  | readMemory
  | reserveSwap
  | waitResponse
  | waitRequest
  | sleepRequest
  | signalRequest
  | signalResponse
deriving DecidableEq, Repr

end OsSimulator
