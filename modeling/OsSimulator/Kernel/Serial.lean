/-
Module: OsSimulator.Kernel.Serial
Purpose: The kernel in serial runs: every operation, whole planner iterations included, runs to
  completion before the next one starts, and there is no SLEEP and no change of degree.
Main exports: Kernel.longTermPlannerIteration, Kernel.shortTermPlannerIteration,
  SerialOperation, Kernel.serialStep
-/
import OsSimulator.Kernel.System

namespace OsSimulator

namespace Kernel

/-- One whole iteration of `long_term_planner`. -/
def longTermPlannerIteration (kernel : Kernel) : Option Kernel := do
  let kernel ← kernel.semWait .longTermPlanner
  let kernel ← kernel.semWait .multiprogrammingDegree
  kernel.longTermPlannerAdmit

/-- One whole iteration of the short-term planner.  The `usleep` and the interrupt header of
    `planning_with_round_robin` leave the kernel's variables alone. -/
def shortTermPlannerIteration (config : KernelConfig) (kernel : Kernel) : Option Kernel := do
  let kernel ← kernel.semWait .shortTermPlanner
  let kernel ← kernel.semWait .processReady
  let kernel ← kernel.shortTermPlannerDispatch config
  some (kernel.semPost .shortTermPlanner)

end Kernel

/-- The operations of a serial run. -/
inductive SerialOperation where
  | createProcess (path : String) (quantum clientSocket : Int32)
  | finishProcess (pid : UInt32)
  | startPlanning
  | stopPlanning
  | longTermPlanner
  | shortTermPlanner
  | message (message : Message)
deriving DecidableEq, Repr

/-- The message is about the process in `queue_exec`, and it is not a SLEEP. -/
def Message.AboutExecuting (message : Message) (kernel : Kernel) : Prop :=
  (kernel.queueExec.head?).map Pcb.pid = some message.pcb.pid ∧
    ∀ time, message.request ≠ .sleep time

instance (message : Message) (kernel : Kernel) : Decidable (message.AboutExecuting kernel) :=
  match requested : message.request with
  | .finish | .interrupt | .wait _ | .signal _ =>
      decidable_of_iff ((kernel.queueExec.head?).map Pcb.pid = some message.pcb.pid)
        (by simp [Message.AboutExecuting, requested])
  | .sleep time =>
      isFalse fun about => about.2 time requested

namespace Kernel

/-- One operation of a serial run.  The console may finish any process but the executing one. -/
def serialStep (config : KernelConfig) (kernel : Kernel) : SerialOperation → Option Kernel
  | .createProcess path quantum clientSocket =>
      some (kernel.receivePcbAndCreate path quantum clientSocket)
  | .finishProcess pid =>
      if ∀ process ∈ kernel.queueExec, process.pid ≠ pid then kernel.finishProcess pid else none
  | .startPlanning => kernel.startPlanning
  | .stopPlanning => kernel.stopPlanning
  | .longTermPlanner => kernel.longTermPlannerIteration
  | .shortTermPlanner =>
      if System.knownAlgorithm config then kernel.shortTermPlannerIteration config else none
  | .message message =>
      if message.AboutExecuting kernel then kernel.handleDispatchConnection message else none

end Kernel

end OsSimulator
