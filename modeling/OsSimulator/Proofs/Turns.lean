/-
Module: OsSimulator.Proofs.Turns
Purpose: The loops of the two planners, one segment between two `sem_wait`s at a time: which token a
  segment takes, where it leaves the planner, and what it does to the queues.
Main exports: Kernel.admitHead, Kernel.dispatch, System.LongTermTurn, System.ShortTermTurn,
  System.longTermPlanner_turn, System.shortTermPlanner_turn
-/
import OsSimulator.Proofs.Steps

namespace OsSimulator

namespace Kernel

/-- The admission of `process`, with `rest` behind it in `queue_new`. -/
def admitHead (process : Pcb) (rest : List Pcb) (kernel : Kernel) : Kernel :=
  (((((kernel.semInit .processNew (kernel.sem .processNew - 1)).setQueue rest .new).log
    (.newToReady process.pid)).queuePush .ready (process.setState .ready)).semPost
      .processReady).semPost .longTermPlanner

/-- The dispatch of `process`, which leaves `rest` in `queue_ready`. -/
def dispatch (process : Pcb) (rest : List Pcb) (kernel : Kernel) : Kernel :=
  (((kernel.semInit .cpuAvailable (kernel.sem .cpuAvailable - 1)).setQueue rest .ready).queuePush
    .exec (process.setState .execution)).sendToCpu .executeProcess (process.setState .execution)

/-- The order in which the short-term planner sees `queue_ready`: only `planning_with_priorities`
    sorts. -/
def readyInOrder (config : KernelConfig) (kernel : Kernel) : List Pcb :=
  if config.planningAlgorithm = "PRIORITIES" then (kernel.sortQueue config).queueReady
  else kernel.queueReady

variable (process : Pcb) (rest : List Pcb) (kernel : Kernel)

@[simp] theorem admitHead_fields :
    (kernel.admitHead process rest).queueNew = rest ∧
      (kernel.admitHead process rest).queueReady = kernel.queueReady ++ [process.setState .ready] ∧
      (kernel.admitHead process rest).queueExec = kernel.queueExec ∧
      (kernel.admitHead process rest).listOfQueueBlocked = kernel.listOfQueueBlocked ∧
      (kernel.admitHead process rest).sleepThreads = kernel.sleepThreads ∧
      (kernel.admitHead process rest).cpuDispatchConnection = kernel.cpuDispatchConnection ∧
      (kernel.admitHead process rest).trace = .newToReady process.pid :: kernel.trace := by
  simp [admitHead, queuePush]

@[simp] theorem admitHead_sem (semaphore : Semaphore) :
    (kernel.admitHead process rest).sem semaphore =
      if semaphore = .processNew then kernel.sem .processNew - 1
      else if semaphore = .processReady then kernel.sem .processReady + 1
      else if semaphore = .longTermPlanner then kernel.sem .longTermPlanner + 1
      else kernel.sem semaphore := by
  cases semaphore <;> simp [admitHead, queuePush]

@[simp] theorem dispatch_fields :
    (kernel.dispatch process rest).queueNew = kernel.queueNew ∧
      (kernel.dispatch process rest).queueReady = rest ∧
      (kernel.dispatch process rest).queueExec =
        kernel.queueExec ++ [process.setState .execution] ∧
      (kernel.dispatch process rest).listOfQueueBlocked = kernel.listOfQueueBlocked ∧
      (kernel.dispatch process rest).sleepThreads = kernel.sleepThreads ∧
      (kernel.dispatch process rest).cpuDispatchConnection =
        kernel.cpuDispatchConnection ++ [(.executeProcess, process.setState .execution)] ∧
      (kernel.dispatch process rest).trace =
        .sentToCpu .executeProcess (process.setState .execution) :: kernel.trace := by
  simp [dispatch, queuePush]

@[simp] theorem dispatch_sem (semaphore : Semaphore) :
    (kernel.dispatch process rest).sem semaphore =
      if semaphore = .cpuAvailable then kernel.sem .cpuAvailable - 1
      else kernel.sem semaphore := by
  cases semaphore <;> simp [dispatch, queuePush]

/-- The planner dispatches the first process in its order. -/
theorem shortTermPlannerDispatch_order {config : KernelConfig} {next : Kernel}
    (dispatched : kernel.shortTermPlannerDispatch config = some next) :
    ∃ process rest, kernel.readyInOrder config = process :: rest ∧
      0 < kernel.sem .cpuAvailable ∧ next = kernel.dispatch process rest := by
  simp only [shortTermPlannerDispatch, Option.bind_eq_bind, Option.bind_eq_some_iff,
    semWait_eq_some] at dispatched
  obtain ⟨_, ⟨positive, rfl⟩, moved⟩ := dispatched
  unfold readyInOrder
  split at moved
  · rename_i priorities
    rw [if_pos priorities]
    unfold moveProcessToExec at moved
    split at moved
    · cases moved
    · rename_i process rest head
      refine ⟨process, rest, by simpa [sortQueue] using head, positive, ?_⟩
      exact (Option.some.inj moved).symm
  · rename_i others
    rw [if_neg others]
    unfold moveProcessToExec at moved
    split at moved
    · cases moved
    · rename_i process rest head
      exact ⟨process, rest, by simpa using head, positive, (Option.some.inj moved).symm⟩

/-- The planner's order is one of `queue_ready`. -/
theorem readyInOrder_perm (config : KernelConfig) :
    (kernel.readyInOrder config).Perm kernel.queueReady := by
  unfold readyInOrder
  split
  · exact sortQueue_perm config kernel
  · exact List.Perm.refl _

end Kernel

namespace System

/-- One segment of `long_term_planner`. -/
inductive LongTermTurn (system next : System) : Prop where
  | takesPlanner (position : system.longTerm = .parked)
      (token : 0 < system.kernel.sem .longTermPlanner)
      (result : next =
        { system with
          kernel :=
            system.kernel.semInit .longTermPlanner (system.kernel.sem .longTermPlanner - 1)
          longTerm := .hasPlanner })
  | takesDegree (position : system.longTerm = .hasPlanner)
      (token : 0 < system.kernel.sem .multiprogrammingDegree)
      (result : next =
        { system with
          kernel := system.kernel.semInit .multiprogrammingDegree
            (system.kernel.sem .multiprogrammingDegree - 1)
          longTerm := .hasDegree })
  | admits (process : Pcb) (rest : List Pcb) (position : system.longTerm = .hasDegree)
      (head : system.kernel.queueNew = process :: rest)
      (token : 0 < system.kernel.sem .processNew)
      (result : next =
        { system with kernel := system.kernel.admitHead process rest, longTerm := .parked })

/-- One segment of the short-term planner. -/
inductive ShortTermTurn (config : KernelConfig) (system next : System) : Prop where
  | takesPlanner (position : system.shortTerm = .parked)
      (token : 0 < system.kernel.sem .shortTermPlanner)
      (result : next =
        { system with
          kernel :=
            system.kernel.semInit .shortTermPlanner (system.kernel.sem .shortTermPlanner - 1)
          shortTerm := .hasPlanner })
  | takesReady (position : system.shortTerm = .hasPlanner)
      (token : 0 < system.kernel.sem .processReady)
      (result : next =
        { system with
          kernel := system.kernel.semInit .processReady (system.kernel.sem .processReady - 1)
          shortTerm := .hasReady })
  | dispatchesForQuantum (process : Pcb) (rest : List Pcb) (position : system.shortTerm = .hasReady)
      (algorithm : config.planningAlgorithm = "ROUND_ROBIN")
      (order : system.kernel.readyInOrder config = process :: rest)
      (token : 0 < system.kernel.sem .cpuAvailable)
      (result : next =
        { system with kernel := system.kernel.dispatch process rest, shortTerm := .inQuantum })
  | dispatches (process : Pcb) (rest : List Pcb) (position : system.shortTerm = .hasReady)
      (algorithm : config.planningAlgorithm ≠ "ROUND_ROBIN")
      (order : system.kernel.readyInOrder config = process :: rest)
      (token : 0 < system.kernel.sem .cpuAvailable)
      (result : next =
        { system with
          kernel := (system.kernel.dispatch process rest).semPost .shortTermPlanner
          shortTerm := .parked })
  | endsQuantum (position : system.shortTerm = .inQuantum)
      (result : next =
        { system with
          kernel := system.kernel.semPost .shortTermPlanner
          shortTerm := .parked
          interruptHeaders := system.interruptHeaders + 1 })

variable {config : KernelConfig} {system next : System}

theorem longTermPlanner_turn (taken : system.longTermPlanner = some next) :
    LongTermTurn system next := by
  unfold longTermPlanner at taken
  split at taken
  · rename_i position
    obtain ⟨_, waited, rfl⟩ := Option.map_eq_some_iff.mp taken
    obtain ⟨token, rfl⟩ := (Kernel.semWait_eq_some ..).mp waited
    exact .takesPlanner position token rfl
  · rename_i position
    obtain ⟨_, waited, rfl⟩ := Option.map_eq_some_iff.mp taken
    obtain ⟨token, rfl⟩ := (Kernel.semWait_eq_some ..).mp waited
    exact .takesDegree position token rfl
  · rename_i position
    obtain ⟨_, admitted, rfl⟩ := Option.map_eq_some_iff.mp taken
    obtain ⟨process, rest, head, token, rfl⟩ := Kernel.longTermPlannerAdmit_cases admitted
    exact .admits process rest position head token rfl

theorem shortTermPlanner_turn (taken : system.shortTermPlanner config = some next) :
    ShortTermTurn config system next := by
  obtain ⟨_, taken⟩ := Option.ite_none_right_eq_some.mp taken
  split at taken
  · rename_i position
    obtain ⟨_, waited, rfl⟩ := Option.map_eq_some_iff.mp taken
    obtain ⟨token, rfl⟩ := (Kernel.semWait_eq_some ..).mp waited
    exact .takesPlanner position token rfl
  · rename_i position
    obtain ⟨_, waited, rfl⟩ := Option.map_eq_some_iff.mp taken
    obtain ⟨token, rfl⟩ := (Kernel.semWait_eq_some ..).mp waited
    exact .takesReady position token rfl
  · rename_i position
    obtain ⟨kernel, dispatched, result⟩ := Option.map_eq_some_iff.mp taken
    obtain ⟨process, rest, order, token, rfl⟩ :=
      Kernel.shortTermPlannerDispatch_order system.kernel dispatched
    split at result
    · rename_i algorithm
      exact .dispatchesForQuantum process rest position algorithm order token result.symm
    · rename_i algorithm
      exact .dispatches process rest position algorithm order token result.symm
  · rename_i position
    exact .endsQuantum position (Option.some.inj taken).symm

end System

end OsSimulator
