/-
Module: OsSimulator.Proofs.Counters
Purpose: The counting semaphores in concurrent runs.  Between two steps each of them agrees with the
  length of its queue, up to the token that the short-term planner has taken and not used yet, and the
  token of each planner is in exactly one place.
Main exports: Kernel.Balanced, System.Counted, System.Counted.step
-/
import OsSimulator.Proofs.Accounting
import OsSimulator.Proofs.Turns

namespace OsSimulator

open Transition

namespace Kernel

/-- The semaphores of `queue_new` and `queue_ready` move along with their queues, and those of the
    planners do not move. -/
structure Balanced (kernel next : Kernel) : Prop where
  new : next.sem .processNew + kernel.queueNew.length =
    kernel.sem .processNew + next.queueNew.length
  ready : next.sem .processReady + kernel.queueReady.length =
    kernel.sem .processReady + next.queueReady.length
  stopping : next.sem .mutexStoppingPlanner = kernel.sem .mutexStoppingPlanner
  shortTerm : next.sem .shortTermPlanner = kernel.sem .shortTermPlanner
  longTerm : next.sem .longTermPlanner = kernel.sem .longTermPlanner

namespace Balanced

variable {kernel next : Kernel} {message : Message} {pid : UInt32}

/-- Nothing moves in these two queues. -/
theorem of_same (new : next.queueNew = kernel.queueNew) (ready : next.queueReady = kernel.queueReady)
    (semNew : next.sem .processNew = kernel.sem .processNew)
    (semReady : next.sem .processReady = kernel.sem .processReady)
    (stopping : next.sem .mutexStoppingPlanner = kernel.sem .mutexStoppingPlanner)
    (shortTerm : next.sem .shortTermPlanner = kernel.sem .shortTermPlanner)
    (longTerm : next.sem .longTermPlanner = kernel.sem .longTermPlanner) : Balanced kernel next where
  new := by rw [semNew, new]
  ready := by rw [semReady, ready]
  stopping := stopping
  shortTerm := shortTerm
  longTerm := longTerm

/-- The state of the process says which semaphore `finish_process` has to take a token from. -/
theorem finishProcess (states : kernel.StatesMatch)
    (finished : kernel.finishProcess pid = some next) : Balanced kernel next := by
  rcases finishProcess_cases finished with ⟨_, rfl⟩ | ⟨id, process, woken, middle, finishes⟩
  · exact of_same (by simp) (by simp) (by simp) (by simp) (by simp) (by simp) (by simp)
  · have state := states.state_of_mem finishes.mem_queue
    have sem := finishes.sem
    obtain ⟨new, ready, _, _⟩ := finishes.weigh one_stateBlind
    have semNew := sem .processNew
    have semReady := sem .processReady
    have semStopping := sem .mutexStoppingPlanner
    have semShort := sem .shortTermPlanner
    have semLong := sem .longTermPlanner
    simp only [weigh_one] at new ready
    simp only [state, reduceCtorEq, if_true, if_false] at semNew semReady semStopping semShort semLong
    constructor
    all_goals
      cases id <;>
        simp only [QueueId.state, finishPosts, finishWaits, reduceCtorEq, if_true, if_false] at * <;>
        omega

/-- A message moves a process into `queue_ready` together with a token, or finishes one. -/
theorem dispatchEffect (states : kernel.StatesMatch) (effect : DispatchEffect message kernel next) :
    Balanced kernel next := by
  cases effect with
  | finishes _ finished =>
      have logged : (kernel.log (.received message)).StatesMatch :=
        states.congr (by simp) (by simp) (by simp) (by simp)
      have balanced := finishProcess logged finished
      exact ⟨balanced.new, balanced.ready, balanced.stopping, balanced.shortTerm, balanced.longTerm⟩
  | interrupts _ result =>
      subst result
      constructor <;> simp [handleInterrupt, queuePush]
      omega
  | grants _ _ _ _ result =>
      subst result
      constructor <;> simp [removeResourceInstance]
  | blocks _ _ _ _ _ _ _ _ _ result =>
      subst result
      constructor <;> simp [pushBlocked_sem]
  | releases _ _ _ _ result =>
      subst result
      constructor <;> simp [addResourceInstance]
  | sleeps _ _ result =>
      subst result
      constructor <;> simp [handleSleepInterruption]

end Balanced

end Kernel

namespace System

/-- The token of `sem_process_ready` that the short-term planner has taken for a dispatch. -/
def readyHeld (system : System) : Nat := if system.shortTerm = .hasReady then 1 else 0

/-- The token that the short-term planner has taken from `sem_short_term_planner`. -/
def shortTermHeld (system : System) : Nat := if system.shortTerm = .parked then 0 else 1

/-- The token that the long-term planner has taken from `sem_long_term_planner`. -/
def longTermHeld (system : System) : Nat := if system.longTerm = .parked then 0 else 1

/-- The counting semaphores agree with the queues and with the planners. -/
structure Counted (system : System) : Prop where
  semNew : system.kernel.sem .processNew = system.kernel.queueNew.length
  semReady : system.kernel.sem .processReady + system.readyHeld = system.kernel.queueReady.length
  semBlocked : system.kernel.sem .processBlocked = system.kernel.blockedLength
  shortTerm : system.kernel.sem .mutexStoppingPlanner + system.kernel.sem .shortTermPlanner +
    system.shortTermHeld = 1
  longTerm : system.kernel.sem .mutexStoppingPlanner + system.kernel.sem .longTermPlanner +
    system.longTermHeld = 1

namespace Counted

variable {config : KernelConfig} {system next : System}

theorem init (config : KernelConfig) : (System.init config).Counted where
  semNew := rfl
  semReady := rfl
  semBlocked := by
    simp [System.init, Kernel.init, initialSemaphores, Kernel.blockedLength]
  shortTerm := rfl
  longTerm := rfl

/-- A step of somebody else than the planners. -/
theorem of_balanced (counted : system.Counted) (balanced : Kernel.Balanced system.kernel next.kernel)
    (blocked : next.kernel.sem .processBlocked = next.kernel.blockedLength)
    (longTerm : next.longTerm = system.longTerm) (shortTerm : next.shortTerm = system.shortTerm) :
    next.Counted := by
  have new := balanced.new
  have ready := balanced.ready
  obtain ⟨semNew, semReady, _, short, long⟩ := counted
  constructor
  · omega
  · simp only [readyHeld, shortTerm] at semReady ⊢
    omega
  · exact blocked
  · simp only [shortTermHeld, shortTerm, balanced.stopping, balanced.shortTerm]
    exact short
  · simp only [longTermHeld, longTerm, balanced.stopping, balanced.longTerm]
    exact long

theorem longTermPlanner (counted : system.Counted) (turn : LongTermTurn system next) :
    next.Counted := by
  obtain ⟨semNew, semReady, semBlocked, short, long⟩ := counted
  cases turn with
  | takesPlanner position token result =>
      subst result
      simp only [longTermHeld, position, if_true] at long
      exact ⟨by simpa using semNew, by simpa [readyHeld] using semReady,
        by simpa [Kernel.blockedLength] using semBlocked, by simpa [shortTermHeld] using short,
        by simp [longTermHeld]; omega⟩
  | takesDegree position token result =>
      subst result
      simp only [longTermHeld, position, reduceCtorEq, if_false] at long
      exact ⟨by simpa using semNew, by simpa [readyHeld] using semReady,
        by simpa [Kernel.blockedLength] using semBlocked, by simpa [shortTermHeld] using short,
        by simp [longTermHeld]; omega⟩
  | admits process rest position head token result =>
      subst result
      rw [head, List.length_cons] at semNew
      simp only [longTermHeld, position, reduceCtorEq, if_false] at long
      exact ⟨by simp [semNew], by simp [readyHeld] at semReady ⊢; omega,
        by simpa [Kernel.blockedLength] using semBlocked, by simpa [shortTermHeld] using short,
        by simp [longTermHeld]; omega⟩

theorem shortTermPlanner (counted : system.Counted) (turn : ShortTermTurn config system next) :
    next.Counted := by
  obtain ⟨semNew, semReady, semBlocked, short, long⟩ := counted
  cases turn with
  | takesPlanner position token result =>
      subst result
      simp only [shortTermHeld, position, if_true] at short
      simp only [readyHeld, position, reduceCtorEq, if_false] at semReady
      exact ⟨by simpa using semNew, by simpa [readyHeld] using semReady,
        by simpa [Kernel.blockedLength] using semBlocked, by simp [shortTermHeld]; omega,
        by simpa [longTermHeld] using long⟩
  | takesReady position token result =>
      subst result
      simp only [shortTermHeld, position, reduceCtorEq, if_false] at short
      simp only [readyHeld, position, reduceCtorEq, if_false] at semReady
      exact ⟨by simpa using semNew, by simp [readyHeld]; omega,
        by simpa [Kernel.blockedLength] using semBlocked, by simp [shortTermHeld]; omega,
        by simpa [longTermHeld] using long⟩
  | dispatchesForQuantum process rest position algorithm order token result =>
      subst result
      have length := (order ▸ system.kernel.readyInOrder_perm config).length_eq
      simp only [shortTermHeld, position, reduceCtorEq, if_false] at short
      simp only [readyHeld, position, if_true, ← length, List.length_cons] at semReady
      exact ⟨by simpa using semNew, by simp [readyHeld]; omega,
        by simpa [Kernel.blockedLength] using semBlocked, by simp [shortTermHeld]; omega,
        by simpa [longTermHeld] using long⟩
  | dispatches process rest position algorithm order token result =>
      subst result
      have length := (order ▸ system.kernel.readyInOrder_perm config).length_eq
      simp only [shortTermHeld, position, reduceCtorEq, if_false] at short
      simp only [readyHeld, position, if_true, ← length, List.length_cons] at semReady
      exact ⟨by simpa using semNew, by simp [readyHeld]; omega,
        by simpa [Kernel.blockedLength] using semBlocked, by simp [shortTermHeld]; omega,
        by simpa [longTermHeld] using long⟩
  | endsQuantum position result =>
      subst result
      simp only [shortTermHeld, position, reduceCtorEq, if_false] at short
      simp only [readyHeld, position, reduceCtorEq, if_false] at semReady
      exact ⟨by simpa using semNew, by simpa [readyHeld] using semReady,
        by simpa [Kernel.blockedLength] using semBlocked, by simp [shortTermHeld]; omega,
        by simpa [longTermHeld] using long⟩

/-- The two commands move the tokens of both planners at once. -/
theorem startPlanning {kernel : Kernel} (counted : system.Counted)
    (started : system.kernel.startPlanning = some kernel) :
    ({ system with kernel := kernel } : System).Counted := by
  simp only [Kernel.startPlanning, Option.bind_eq_bind, Option.bind_eq_some_iff,
    Kernel.semWait_eq_some] at started
  obtain ⟨_, ⟨token, rfl⟩, result⟩ := started
  obtain rfl := Option.some.inj result
  obtain ⟨semNew, semReady, semBlocked, short, long⟩ := counted
  exact ⟨by simpa using semNew, by simpa [readyHeld] using semReady,
    by simpa [Kernel.blockedLength] using semBlocked,
    by simp [shortTermHeld] at short ⊢; omega, by simp [longTermHeld] at long ⊢; omega⟩

theorem stopPlanning {kernel : Kernel} (counted : system.Counted)
    (stopped : system.kernel.stopPlanning = some kernel) :
    ({ system with kernel := kernel } : System).Counted := by
  simp only [Kernel.stopPlanning, Option.bind_eq_bind, Option.bind_eq_some_iff,
    Kernel.semWait_eq_some] at stopped
  obtain ⟨_, ⟨tokenShort, rfl⟩, tokenLong, rfl⟩ := stopped
  obtain ⟨semNew, semReady, semBlocked, short, long⟩ := counted
  simp at tokenShort tokenLong
  exact ⟨by simpa using semNew, by simpa [readyHeld] using semReady,
    by simpa [Kernel.blockedLength] using semBlocked,
    by simp [shortTermHeld] at short ⊢; omega, by simp [longTermHeld] at long ⊢; omega⟩

/-- Every step keeps the counters right. -/
theorem step {event : Event} (counted : system.Counted) (shape : system.kernel.Shape config)
    (states : system.kernel.StatesMatch) (taken : system.step config event = some next) :
    next.Counted := by
  cases event with
  | createProcess path quantum clientSocket =>
      obtain rfl := Option.some.inj taken
      refine counted.of_balanced ?_ ?_ rfl rfl
      · constructor <;> simp [Kernel.receivePcbAndCreate, Kernel.moveProcessToNew, Kernel.queuePush,
          Kernel.sendToMemory]
        omega
      · simpa [Kernel.receivePcbAndCreate, Kernel.moveProcessToNew, Kernel.queuePush,
          Kernel.sendToMemory, Kernel.blockedLength] using counted.semBlocked
  | finishProcess pid =>
      obtain ⟨kernel, finished, rfl⟩ := Option.map_eq_some_iff.mp taken
      exact counted.of_balanced (.finishProcess states finished)
        (Kernel.semBlocked_finishProcess states counted.semBlocked finished) rfl rfl
  | startPlanning =>
      obtain ⟨kernel, started, rfl⟩ := Option.map_eq_some_iff.mp taken
      exact counted.startPlanning started
  | stopPlanning =>
      obtain ⟨kernel, stopped, rfl⟩ := Option.map_eq_some_iff.mp taken
      exact counted.stopPlanning stopped
  | modifyMultiprogrammingDegree newDegree =>
      obtain rfl := Option.some.inj taken
      obtain ⟨new, ready, _, blocked, _, _, _, _, _, _, _, sem⟩ :=
        system.kernel.modifyMultiprogrammingDegree_fields newDegree
      refine counted.of_balanced ?_ ?_ rfl rfl
      · exact .of_same new ready (sem _ (by simp)) (sem _ (by simp)) (sem _ (by simp))
          (sem _ (by simp)) (sem _ (by simp))
      · rw [Kernel.blockedLength, blocked]
        exact (sem _ (by simp)).trans counted.semBlocked
  | longTermPlanner => exact counted.longTermPlanner (longTermPlanner_turn taken)
  | shortTermPlanner => exact counted.shortTermPlanner (shortTermPlanner_turn taken)
  | cpuExecute request cpuRegister programCounter =>
      cases step_cases taken with
      | plans _ _ planning => exact planning.elim
      | executes _ _ _ _ _ _ _ result =>
          subst result
          exact ⟨counted.semNew, counted.semReady, counted.semBlocked, counted.shortTerm,
            counted.longTerm⟩
  | cpuReadInterrupt =>
      obtain ⟨_, result⟩ := Option.ite_none_right_eq_some.mp taken
      obtain rfl := Option.some.inj result
      exact ⟨counted.semNew, counted.semReady, counted.semBlocked, counted.shortTerm,
        counted.longTerm⟩
  | handleDispatch =>
      cases step_cases taken with
      | plans _ _ planning => exact planning.elim
      | handles message rest kernel head effect result =>
          subst result
          exact counted.of_balanced (.dispatchEffect states effect)
            (Kernel.semBlocked_dispatchEffect shape states counted.semBlocked effect) rfl rfl
  | sleepThread index =>
      cases step_cases taken with
      | plans _ _ planning => exact planning.elim
      | sleepStarts _ _ _ _ result =>
          subst result
          exact ⟨counted.semNew, counted.semReady, counted.semBlocked, counted.shortTerm,
            counted.longTerm⟩
      | sleepEnds _ thread _ sleeping result =>
          subst result
          refine counted.of_balanced ?_ ?_ rfl rfl
          · constructor <;> simp [Kernel.sleepThreadStep, sleeping, Kernel.queuePush]
            omega
          · simpa [Kernel.sleepThreadStep, sleeping, Kernel.queuePush, Kernel.blockedLength]
              using counted.semBlocked

end Counted

end System

end OsSimulator
