/-
Module: OsSimulator.Proofs.CpuExclusivity
Purpose: When the CPU has one process at a time, in runs of whole handlers and planner segments.
  `sem_cpu_available` is posted for the state of the PCB that `finish_process` finds, so a console
  command that finishes the executing process gives away a CPU that is still busy; that is the only way.
Main exports: System.CpuExclusive, System.SparesExecuting, run_cpuExclusive_iff
-/
import OsSimulator.Proofs.Steps

namespace OsSimulator

open Transition

namespace System

/-- `sem_cpu_available` never exceeds 1, and is 0 while the CPU holds a process. -/
def CpuExclusive (system : System) : Prop :=
  system.kernel.sem .cpuAvailable ≤ 1 ∧
    (system.cpuHolds ≠ [] → system.kernel.sem .cpuAvailable = 0)

/-- If the step sends `EXECUTE_PROCESS`, the CPU holds no process. -/
def SendsToFreeCpu (config : KernelConfig) (system : System) (event : Event) : Prop :=
  ∀ next pcb, system.step config event = some next →
    next.kernel.trace = .sentToCpu .executeProcess pcb :: system.kernel.trace →
    system.cpuHolds = []

/-- A console `FINISH_PROCESS` does not find a process in state `EXECUTION` while the CPU is busy or
    already available. -/
def SparesExecuting (system : System) : Event → Prop
  | .finishProcess pid =>
      match system.kernel.findInAllQueues pid with
      | some (_, process) =>
          process.state = .execution →
            system.kernel.sem .cpuAvailable = 0 ∧ system.cpuHolds = []
      | none => True
  | _ => True

instance (system : System) : ∀ event, Decidable (system.SparesExecuting event)
  | .finishProcess pid =>
      match found : system.kernel.findInAllQueues pid with
      | some (_, process) =>
          decidable_of_iff
            (process.state = .execution →
              system.kernel.sem .cpuAvailable = 0 ∧ system.cpuHolds = [])
            (by simp [SparesExecuting, found])
      | none => isTrue (by simp [SparesExecuting, found])
  | .createProcess .. | .startPlanning | .stopPlanning | .modifyMultiprogrammingDegree _
  | .longTermPlanner | .shortTermPlanner | .cpuExecute .. | .cpuReadInterrupt
  | .handleDispatch | .sleepThread _ => isTrue trivial

/-- The token of the CPU and the processes the CPU holds: at most one of them altogether. -/
def cpuTokens (system : System) : Nat :=
  system.kernel.sem .cpuAvailable + system.cpuHolds.length

variable {config : KernelConfig} {system next : System}

theorem cpuTokens_init (config : KernelConfig) : (System.init config).cpuTokens = 1 := rfl

theorem CpuExclusive.of_cpuTokens (bound : system.cpuTokens ≤ 1) : system.CpuExclusive := by
  unfold cpuTokens at bound
  refine ⟨by omega, fun busy => ?_⟩
  have := List.length_pos_of_ne_nil busy
  omega

/-- A finish makes the CPU available exactly when the process found is in state `EXECUTION`. -/
theorem semCpu_finishes {pid : UInt32} {kernel after middle : Kernel} {id : QueueId}
    {process : Pcb} {woken : List Pcb}
    (finishes : Kernel.Finishes pid kernel after id process woken middle) :
    after.sem .cpuAvailable =
      kernel.sem .cpuAvailable + if process.state = .execution then 1 else 0 := by
  have sem := finishes.sem .cpuAvailable
  cases state : process.state <;>
    simpa [state, Kernel.finishWaits, Kernel.finishPosts] using sem

theorem semCpu_finishProcess_le {pid : UInt32} {kernel after : Kernel}
    (finished : kernel.finishProcess pid = some after) :
    after.sem .cpuAvailable ≤ kernel.sem .cpuAvailable + 1 ∧
      after.cpuDispatchConnection = kernel.cpuDispatchConnection := by
  rcases Kernel.finishProcess_cases finished with
    ⟨_, rfl⟩ | ⟨id, process, woken, middle, finishes⟩
  · simp
  · rw [semCpu_finishes finishes, finishes.fields.2.2.2.2.2.2.2.2]
    split <;> simp

/-- A message hands over at most the one token it brings: either the kernel answers and the CPU
    goes on with the process, or the turn ends and the CPU becomes available at most once. -/
theorem cpuTokens_dispatchEffect {message : Message} {kernel after : Kernel}
    (effect : Kernel.DispatchEffect message kernel after) :
    after.sem .cpuAvailable + after.cpuDispatchConnection.length ≤
      kernel.sem .cpuAvailable + kernel.cpuDispatchConnection.length + 1 := by
  cases effect with
  | finishes _ finished =>
      obtain ⟨sem, connection⟩ := semCpu_finishProcess_le finished
      simp only [Kernel.log_fields] at sem connection
      rw [connection]
      omega
  | interrupts _ result =>
      subst result
      simp [Kernel.handleInterrupt, Kernel.queuePush]
      omega
  | grants _ _ _ _ result =>
      subst result
      simp [Kernel.removeResourceInstance]
      omega
  | blocks _ _ _ _ _ _ _ _ _ result =>
      subst result
      simp [Kernel.pushBlocked_sem]
      omega
  | releases _ _ _ _ result =>
      subst result
      simp [Kernel.addResourceInstance]
      omega
  | sleeps _ _ result =>
      subst result
      simp [Kernel.handleSleepInterruption]
      omega

/-- A console finish that the guard allows leaves at most one token. -/
theorem cpuTokens_finishProcess {pid : UInt32} {kernel : Kernel}
    (bound : system.cpuTokens ≤ 1) (spares : system.SparesExecuting (.finishProcess pid))
    (finished : system.kernel.finishProcess pid = some kernel) :
    ({ system with kernel := kernel } : System).cpuTokens ≤ 1 := by
  rcases Kernel.finishProcess_cases finished with
    ⟨_, rfl⟩ | ⟨id, process, woken, middle, finishes⟩
  · simpa [cpuTokens, cpuHolds] using bound
  · simp only [SparesExecuting, finishes.found] at spares
    simp only [cpuTokens, cpuHolds, semCpu_finishes finishes, finishes.fields.2.2.2.2.2.2.2.2]
    split
    · rename_i executing
      obtain ⟨taken, free⟩ := spares executing
      unfold cpuHolds at free
      rw [taken, free]
      simp
    · exact bound

/-- The step lemma: only the console can raise the number of tokens above one. -/
theorem cpuTokens_step {event : Event} (bound : system.cpuTokens ≤ 1)
    (spares : system.SparesExecuting event) (taken : system.step config event = some next) :
    next.cpuTokens ≤ 1 := by
  cases step_cases taken with
  | creates path quantum clientSocket result =>
      subst result
      simpa [cpuTokens, cpuHolds, Kernel.receivePcbAndCreate, Kernel.moveProcessToNew,
        Kernel.queuePush, Kernel.sendToMemory] using bound
  | finishes pid kernel finished result =>
      subst result
      exact cpuTokens_finishProcess bound spares finished
  | modifies newDegree result =>
      subst result
      unfold Kernel.modifyMultiprogrammingDegree
      split <;> simpa [cpuTokens, cpuHolds] using bound
  | plans _ quiet =>
      simpa [cpuTokens, cpuHolds, quiet.semCpu, quiet.cpuDispatchConnection, quiet.cpuMessages]
        using bound
  | admits _ _ admits =>
      simpa [cpuTokens, cpuHolds, admits.semCpu, admits.cpuDispatchConnection, admits.cpuMessages]
        using bound
  | dispatches _ _ dispatches =>
      have token := dispatches.semCpu
      simp [cpuTokens, cpuHolds, dispatches.cpuDispatchConnection, dispatches.cpuMessages]
        at bound ⊢
      omega
  | executes _ _ _ _ _ _ head result =>
      subst result
      simp [cpuTokens, cpuHolds, head] at bound ⊢
      omega
  | handles message rest kernel head effect result =>
      subst result
      have tokens := cpuTokens_dispatchEffect effect
      simp [cpuTokens, cpuHolds, head] at bound ⊢
      omega
  | sleepStarts _ _ _ _ result =>
      subst result
      exact bound
  | sleepEnds _ thread _ sleeping result =>
      subst result
      simpa [cpuTokens, cpuHolds, Kernel.sleepThreadStep, sleeping, Kernel.queuePush] using bound

/-- No message handler sends `EXECUTE_PROCESS`. -/
theorem trace_dispatchEffect_ne {message : Message} {kernel after : Kernel} {pcb : Pcb}
    (effect : Kernel.DispatchEffect message kernel after) :
    after.trace ≠ .sentToCpu .executeProcess pcb :: kernel.trace := by
  intro sent
  cases effect with
  | finishes _ finished =>
      rcases Kernel.finishProcess_cases finished with
        ⟨_, rfl⟩ | ⟨id, process, woken, middle, finishes⟩
      · simp at sent
      · obtain ⟨lines, trace, _⟩ := finishes.trace
        simp [trace] at sent
  | interrupts _ result =>
      subst result
      simp [Kernel.handleInterrupt, Kernel.queuePush] at sent
  | grants _ _ _ _ result =>
      subst result
      simp [Kernel.removeResourceInstance] at sent
  | blocks _ _ _ _ _ _ _ lines kind result =>
      subst result
      cases lines with
      | nil => simp at sent
      | cons line lines =>
          obtain ⟨pid, retained, required, rfl⟩ := kind line List.mem_cons_self
          simp at sent
  | releases _ _ _ _ result =>
      subst result
      simp [Kernel.addResourceInstance] at sent
  | sleeps _ _ result =>
      subst result
      simp [Kernel.handleSleepInterruption] at sent

/-- Only the short-term planner sends `EXECUTE_PROCESS`. -/
theorem dispatches_of_sent {event : Event} {pcb : Pcb}
    (effect : StepEffect config system next event)
    (sent : next.kernel.trace = .sentToCpu .executeProcess pcb :: system.kernel.trace) :
    ∃ process rest, Dispatches system next process rest := by
  cases effect with
  | creates _ _ _ result =>
      subst result
      simp [Kernel.receivePcbAndCreate, Kernel.moveProcessToNew, Kernel.queuePush,
        Kernel.sendToMemory] at sent
  | finishes pid kernel finished result =>
      subst result
      rcases Kernel.finishProcess_cases finished with
        ⟨_, rfl⟩ | ⟨id, process, woken, middle, finishes⟩
      · simp at sent
      · obtain ⟨lines, trace, _⟩ := finishes.trace
        simp [trace] at sent
  | modifies _ result =>
      subst result
      simp [Kernel.modifyMultiprogrammingDegree] at sent
  | plans _ quiet =>
      rw [quiet.trace] at sent
      simp at sent
  | admits _ _ admits =>
      rw [admits.trace] at sent
      simp at sent
  | dispatches process rest dispatches => exact ⟨process, rest, dispatches⟩
  | executes _ _ _ _ _ _ _ result =>
      subst result
      simp at sent
  | handles _ _ _ _ effect result =>
      subst result
      exact absurd sent (trace_dispatchEffect_ne effect)
  | sleepStarts _ _ _ _ result =>
      subst result
      simp at sent
  | sleepEnds _ thread _ sleeping result =>
      subst result
      simp [Kernel.sleepThreadStep, sleeping, Kernel.queuePush] at sent

/-- A dispatch takes the token of the CPU, so the CPU holds nothing then. -/
theorem sendsToFreeCpu_of_cpuTokens (bound : system.cpuTokens ≤ 1) (event : Event) :
    system.SendsToFreeCpu config event := by
  intro next pcb taken sent
  obtain ⟨process, rest, dispatches⟩ := dispatches_of_sent (step_cases taken) sent
  have token := dispatches.token
  unfold cpuTokens at bound
  exact List.eq_nil_of_length_eq_zero (by omega)

/-- A console finish outside the guard posts a token too many. -/
theorem sparesExecuting_of_cpuExclusive {event : Event}
    (taken : system.step config event = some next) (_ : system.CpuExclusive)
    (after : next.CpuExclusive) : system.SparesExecuting event := by
  cases event with
  | finishProcess pid =>
      obtain ⟨kernel, finished, rfl⟩ := Option.map_eq_some_iff.mp taken
      rcases Kernel.finishProcess_cases finished with
        ⟨missing, _⟩ | ⟨id, process, woken, middle, finishes⟩
      · simp [SparesExecuting, missing]
      · simp only [SparesExecuting, finishes.found]
        intro executing
        obtain ⟨atMostOne, busy⟩ := after
        simp only [semCpu_finishes finishes, executing, if_true, cpuHolds,
          finishes.fields.2.2.2.2.2.2.2.2] at atMostOne busy
        refine ⟨by omega, ?_⟩
        by_contra holds
        exact absurd (busy holds) (by omega)
  | _ => trivial

end System

/-- In every run of whole handlers and planner segments, the CPU has one process at a time throughout,
    and `EXECUTE_PROCESS` is only sent to a free CPU, if and only if no console `FINISH_PROCESS` finds an executing process while the
    CPU is busy or available. -/
theorem run_cpuExclusive_iff (config : KernelConfig) (events : List Event) (system : System)
    (reaches : run (System.step config) (System.init config) events = some system) :
    (Throughout (System.step config) System.CpuExclusive (System.init config) events ∧
        Meets (System.step config) (System.SendsToFreeCpu config) (System.init config) events) ↔
      Meets (System.step config) System.SparesExecuting (System.init config) events := by
  constructor
  · rintro ⟨exclusive, _⟩
    exact exclusive.meets_of_run System.sparesExecuting_of_cpuExclusive reaches
  · intro spares
    have tokens : Throughout (System.step config) (fun system => system.cpuTokens ≤ 1)
        (System.init config) events :=
      throughout_of_guarded_run System.cpuTokens_step (System.cpuTokens_init config).le spares
    exact ⟨tokens.imp fun _ => System.CpuExclusive.of_cpuTokens,
      tokens.meets fun _ event bound => System.sendsToFreeCpu_of_cpuTokens bound event⟩

end OsSimulator
