/-
Module: OsSimulator.Proofs.Quanta
Purpose: What a quantum can do.  Each one ends in one interrupt header, which sets the CPU's flag at most
  once, and a flag that is set brings back at most one process: there are never more preemptions than
  dispatches, and none unless the algorithm is ROUND_ROBIN.
Main exports: Kernel.preempted, System.interruptsDue, System.WithinQuanta, cpu_run_within_quanta
-/
import OsSimulator.Proofs.CpuRefinement
import OsSimulator.Proofs.WaitingLines

namespace OsSimulator

open Transition

/-- The pid of a process that came back with `INTERRUPT`. -/
def KernelEvent.preemptedPid? : KernelEvent → Option UInt32
  | .received message => if message.request = .interrupt then some message.pcb.pid else none
  | _ => none

namespace Kernel

/-- The processes that came back with `INTERRUPT`, the newest first. -/
def preempted (kernel : Kernel) : List UInt32 := kernel.trace.filterMap KernelEvent.preemptedPid?

variable {kernel next : Kernel} {message : Message}

theorem preempted_finishProcess {pid : UInt32} (finished : kernel.finishProcess pid = some next) :
    next.preempted = kernel.preempted := by
  refine filterMap_finishProcess ?_ finished
  constructor <;> intros <;> rfl

theorem preempted_received (kernel : Kernel) (message : Message) :
    (kernel.log (.received message)).preempted.length =
      kernel.preempted.length + if message.request = .interrupt then 1 else 0 := by
  by_cases requested : message.request = .interrupt <;>
    simp [preempted, KernelEvent.preemptedPid?, requested]

/-- What a handler logs after the message is no message. -/
theorem preempted_dispatchEffect (effect : DispatchEffect message kernel next) :
    next.preempted.length =
      kernel.preempted.length + if message.request = .interrupt then 1 else 0 := by
  rw [← preempted_received]
  cases effect with
  | finishes _ finished => rw [preempted_finishProcess finished]
  | interrupts _ result =>
      subst result
      simp [preempted, handleInterrupt, queuePush]
  | grants _ _ _ _ result =>
      subst result
      simp [preempted, removeResourceInstance, KernelEvent.preemptedPid?, List.filterMap_cons]
  | blocks _ _ _ _ _ _ _ lines kind result =>
      subst result
      have silent : lines.filterMap KernelEvent.preemptedPid? = [] := by
        apply List.filterMap_eq_nil_iff.mpr
        intro line member
        obtain ⟨pid, retained, required, rfl⟩ := kind line member
        rfl
      simp [preempted, silent, KernelEvent.preemptedPid?, List.filterMap_cons]
  | releases _ _ _ _ result =>
      subst result
      simp [preempted, addResourceInstance, KernelEvent.preemptedPid?, List.filterMap_cons]
  | sleeps _ _ result =>
      subst result
      simp [preempted, handleSleepInterruption]

end Kernel

namespace System

variable {config : KernelConfig} {system next : System} {event : Event}

/-- The preemptions that are still due: for the quantum that runs, for the headers that the CPU has not
    read, for its flag, and for the messages that the kernel has not handled. -/
def interruptsDue (system : System) : Nat :=
  (if system.shortTerm = .inQuantum then 1 else 0) + system.interruptHeaders +
    (if system.hasInterrupt then 1 else 0) +
    system.cpuMessages.countP (·.request = .interrupt)

/-- The dispatches that began a quantum. -/
def quanta (config : KernelConfig) (system : System) : Nat :=
  if config.planningAlgorithm = "ROUND_ROBIN" then system.kernel.executed.length else 0

/-- There are no more preemptions, had or due, than quanta. -/
def WithinQuanta (config : KernelConfig) (system : System) : Prop :=
  system.kernel.preempted.length + system.interruptsDue ≤ system.quanta config

theorem WithinQuanta.init (config : KernelConfig) : (init config).WithinQuanta config := by
  simp [WithinQuanta, System.init, Kernel.init, Kernel.preempted, interruptsDue]

/-- A step that neither preempts nor dispatches and leaves what is due. -/
theorem WithinQuanta.congr (within : system.WithinQuanta config)
    (preempted : next.kernel.preempted = system.kernel.preempted)
    (executed : next.kernel.executed = system.kernel.executed)
    (due : next.interruptsDue ≤ system.interruptsDue) : next.WithinQuanta config := by
  simp only [WithinQuanta, quanta, preempted, executed] at within ⊢
  omega

/-- What the long-term planner and the consoles do. -/
theorem preempted_kept (effect : StepEffect config system next event)
    (ofKernel : event.isOfKernel = true) (notDispatch : event ≠ .handleDispatch) :
    next.kernel.preempted = system.kernel.preempted := by
  cases effect with
  | creates path quantum clientSocket result =>
      subst result
      simp [Kernel.preempted, Kernel.receivePcbAndCreate, Kernel.moveProcessToNew,
        Kernel.queuePush, Kernel.sendToMemory, KernelEvent.preemptedPid?, List.filterMap_cons]
  | finishes _ _ finished result =>
      subst result
      exact Kernel.preempted_finishProcess finished
  | modifies newDegree result =>
      subst result
      obtain ⟨_, _, _, _, _, _, _, _, _, logged, _⟩ :=
        system.kernel.modifyMultiprogrammingDegree_fields newDegree
      simp [Kernel.preempted, logged, KernelEvent.preemptedPid?, List.filterMap_cons]
  | plans _ quiet => rw [Kernel.preempted, quiet.trace, Kernel.preempted]
  | admits _ _ admits =>
      simp [Kernel.preempted, admits.trace, KernelEvent.preemptedPid?, List.filterMap_cons]
  | dispatches _ _ dispatches =>
      simp [Kernel.preempted, dispatches.trace, KernelEvent.preemptedPid?, List.filterMap_cons]
  | executes => cases ofKernel
  | handles => exact absurd rfl notDispatch
  | sleepStarts _ _ _ _ result => subst result; rfl
  | sleepEnds _ thread _ sleeping result =>
      subst result
      simp [Kernel.preempted, Kernel.sleepThreadStep, sleeping, Kernel.queuePush]

/-- The short-term planner begins a quantum with a dispatch, and ends it with an interrupt. -/
theorem WithinQuanta.shortTerm (within : system.WithinQuanta config)
    (taken : system.shortTermPlanner config = some next) : next.WithinQuanta config := by
  cases shortTermPlanner_turn taken with
  | takesPlanner position _ result | takesReady position _ result =>
      subst result
      refine within.congr rfl rfl ?_
      simp [interruptsDue, position]
  | dispatchesForQuantum process rest position algorithm _ _ result =>
      subst result
      have executed : (system.kernel.dispatch process rest).executed =
          process.pid :: system.kernel.executed := by
        simp [Kernel.executed, KernelEvent.executedPid?]
      have preempted : (system.kernel.dispatch process rest).preempted = system.kernel.preempted := by
        simp [Kernel.preempted, KernelEvent.preemptedPid?, List.filterMap_cons]
      simp only [WithinQuanta, quanta, interruptsDue, position, algorithm, executed, preempted,
        if_true, List.length_cons, reduceCtorEq, if_false] at within ⊢
      omega
  | dispatches process rest position algorithm _ _ result =>
      subst result
      have preempted : ((system.kernel.dispatch process rest).semPost .shortTermPlanner).preempted =
          system.kernel.preempted := by
        simp [Kernel.preempted, KernelEvent.preemptedPid?, List.filterMap_cons]
      simp only [WithinQuanta, quanta, interruptsDue, position, algorithm, preempted] at within ⊢
      simpa using within
  | endsQuantum position result =>
      subst result
      refine within.congr rfl rfl ?_
      simp only [interruptsDue, position, reduceCtorEq, if_true, if_false]
      omega

/-- One step of the system. -/
theorem WithinQuanta.step (within : system.WithinQuanta config)
    (taken : system.step config event = some next) : next.WithinQuanta config := by
  have effect := step_cases taken
  cases event with
  | shortTermPlanner => exact within.shortTerm taken
  | cpuReadInterrupt =>
      obtain ⟨some_, same⟩ := Option.ite_none_right_eq_some.mp taken
      obtain rfl := Option.some.inj same
      refine within.congr rfl rfl ?_
      simp only [interruptsDue, if_true]
      omega
  | cpuExecute request cpuRegister programCounter =>
      change system.cpuExecute request cpuRegister programCounter = some next at taken
      unfold cpuExecute at taken
      split at taken
      · cases taken
      · obtain ⟨flag, same⟩ := Option.ite_none_left_eq_some.mp taken
        obtain rfl := Option.some.inj same
        refine within.congr rfl rfl ?_
        -- the flag becomes the message, if there is one
        simp only [interruptsDue, List.countP_append, List.countP_singleton]
        by_cases requested : request = .interrupt
        · have set : system.hasInterrupt = true := by simpa [requested] using flag
          simp only [set, requested, decide_true, if_true, Bool.false_eq_true, if_false]
          omega
        · simp only [requested, decide_false, Bool.false_eq_true, if_false]
          omega
  | handleDispatch =>
      cases effect with
      | plans _ quiet planning => cases planning
      | handles message rest kernel head effect result =>
          subst result
          have preempted := Kernel.preempted_dispatchEffect effect
          have executed := Kernel.executed_dispatchEffect effect
          simp only [WithinQuanta, quanta, interruptsDue, head, preempted, executed,
            List.countP_cons] at within ⊢
          simp at within ⊢
          omega
  | createProcess _ _ _ | finishProcess _ | startPlanning | stopPlanning
  | modifyMultiprogrammingDegree _ | longTermPlanner | sleepThread _ =>
      obtain ⟨flag, messages, others⟩ := step_leaves rfl (by simp) taken
      obtain ⟨shortTerm, headers⟩ := others (by simp)
      refine within.congr (preempted_kept effect rfl (by simp)) (effect.executed_kept (by simp)) ?_
      simp only [interruptsDue, flag, messages, shortTerm, headers]
      exact Nat.le_refl _

end System

/-- The preemptions that are due while the CPU takes its messages late: for the quantum that runs, for the
    interrupts that its interrupt thread has not raised, and for the messages to the kernel. -/
def CpuSystem.interruptsDue (state : CpuSystem) : Nat :=
  (if state.system.shortTerm = .inQuantum then 1 else 0) + state.system.interruptHeaders +
    state.unraised + state.system.cpuMessages.countP (·.request = .interrupt)

/-- The preemptions that the kernel has handled, with those that are due, are never more than the quanta,
    one for each dispatch under ROUND_ROBIN, in any run of the kernel with the threads of the CPU. -/
theorem cpu_run_within_quanta (config : KernelConfig) (machine : Machine)
    (events : List CpuSystemEvent) (state : CpuSystem)
    (reaches : run (CpuSystem.step config machine) (CpuSystem.init config) events = some state) :
    state.system.kernel.preempted.length + state.interruptsDue ≤ state.system.quanta config := by
  obtain ⟨atomic, system, ran, refines⟩ := exists_run_of_simulation CpuSystem.Refines
    (fun refines stepped => refines.step stepped) (CpuSystem.Refines.init config) reaches
  have within : system.WithinQuanta config :=
    invariant_of_run (System.WithinQuanta config) (fun within taken => within.step taken)
      (System.WithinQuanta.init config) ran
  obtain ⟨unanswered, hasInterrupt, _, rfl⟩ := refines
  have preempted : (state.system.withCpu unanswered state.unraised hasInterrupt).kernel.preempted =
      state.system.kernel.preempted := rfl
  have quanta : (state.system.withCpu unanswered state.unraised hasInterrupt).quanta config =
      state.system.quanta config := rfl
  have due : state.interruptsDue ≤
      (state.system.withCpu unanswered state.unraised hasInterrupt).interruptsDue := by
    change state.interruptsDue ≤ (if state.system.shortTerm = .inQuantum then 1 else 0) +
      (state.system.interruptHeaders + state.unraised) + (if hasInterrupt then 1 else 0) +
        state.system.cpuMessages.countP (·.request = .interrupt)
    rw [CpuSystem.interruptsDue]
    omega
  rw [System.WithinQuanta, preempted, quanta] at within
  omega

theorem cpu_run_within_quanta_quantumExpires :
    ∃ state, run (CpuSystem.step roundRobinConfig exitingMachine) (CpuSystem.init roundRobinConfig)
        (dispatchFirstOfTwo ++ quantumExpires) = some state ∧
      state.system.kernel.executed.length = 1 ∧
      state.system.kernel.preempted.length + state.interruptsDue ≤
        state.system.quanta roundRobinConfig :=
  ⟨_, rfl, by decide, cpu_run_within_quanta roundRobinConfig exitingMachine
    (dispatchFirstOfTwo ++ quantumExpires) _ rfl⟩

end OsSimulator
