/-
Module: OsSimulator.Proofs.AtomicRuns
Purpose: Every run of the system of `Kernel.System`, whose steps are whole handlers and segments of the
  planners, is an interleaving of the kernel's threads, operation by operation.
Main exports: World.Shows, World.exists_run_of_step, system_run_is_interleaving
-/
import Mathlib.Data.List.Nodup
import Mathlib.Data.List.Perm.Basic
import OsSimulator.Proofs.Atomicity
import OsSimulator.Proofs.Interleavings
import OsSimulator.Proofs.Steps

namespace OsSimulator

open Threads Transition

/-! ### Where a thread is in its program -/

/-- What `long_term_planner` has still to do in its iteration. -/
def LongTermPosition.rest : LongTermPosition → Code Unit
  | .parked => Code.longTermPlanner
  | .hasPlanner => do
      Code.semWait .multiprogrammingDegree
      Code.longTermPlannerAdmit
  | .hasDegree => Code.longTermPlannerAdmit

/-- What the short-term planners do after the dispatch. -/
def Code.afterDispatch (config : KernelConfig) : Code Unit :=
  if config.planningAlgorithm = "ROUND_ROBIN" then interruptAfterQuantum
  else semPost .shortTermPlanner

/-- What the short-term planner has still to do in its iteration. -/
def ShortTermPosition.rest (config : KernelConfig) : ShortTermPosition → Code Unit
  | .parked => Code.shortTermPlanner config
  | .hasPlanner => do
      Code.semWait .processReady
      Code.shortTermPlannerDispatch config
      Code.afterDispatch config
  | .hasReady => do
      Code.shortTermPlannerDispatch config
      Code.afterDispatch config
  | .inQuantum => Code.interruptAfterQuantum

/-- A sleep thread of the system, with its place in the pool and the pointer it was given. -/
structure Sleeper where
  index : Nat
  pointer : PcbPointer
  thread : SleepThread

/-- What a sleep thread has still to do. -/
def Sleeper.rest (sleeper : Sleeper) : Code Unit :=
  match sleeper.thread.phase with
  | .starting => Code.threadSleepProcess sleeper.pointer
  | .sleeping => Code.afterSleep sleeper.pointer

/-- The PCB that a sleep thread has for itself. -/
def Sleeper.owned (sleeper : Sleeper) : PcbPointer × Pcb := (sleeper.pointer, sleeper.thread.process)

theorem LongTermPosition.rest_parked :
    rest .parked = Code.semWait .longTermPlanner >>= fun _ => rest .hasPlanner := rfl

/-- Each of the three loops waits for the same semaphores, then dispatches. -/
theorem ShortTermPosition.rest_parked {config : KernelConfig}
    (known : System.knownAlgorithm config = true) :
    rest config .parked = Code.semWait .shortTermPlanner >>= fun _ => rest config .hasPlanner := by
  have algorithm : config.planningAlgorithm ∈ ["FIFO", "ROUND_ROBIN", "PRIORITIES"] := by
    simpa [System.knownAlgorithm] using known
  simp only [List.mem_cons, List.not_mem_nil, or_false] at algorithm
  rcases algorithm with fifo | roundRobin | priorities
  · simp [rest, Code.shortTermPlanner, fifo, Code.planingWithFifo, Code.shortTermPlannerDispatch,
      Code.afterDispatch, Program.bind_assoc]
  · simp [rest, Code.shortTermPlanner, roundRobin, Code.planningWithRoundRobin,
      Code.shortTermPlannerDispatch, Code.afterDispatch, Code.interruptAfterQuantum,
      Program.bind_assoc]
  · simp [rest, Code.shortTermPlanner, priorities, Code.planningWithPriorities,
      Code.shortTermPlannerDispatch, Code.afterDispatch, Program.bind_assoc]

namespace World

variable {config : KernelConfig} {world : World} {role : Role} {index : Nat} {α : Type}

/-- The thread at an index has this role, and this is still to do. -/
def HasThread (world : World) (index : Nat) (role : Role) (rest : Code Unit) : Prop :=
  ∃ performed, world.pool.threads[index]? =
    some { role := role, performed := performed, rest := rest }

/-- The threads of the world stand where the system says.  The CPU has sent the same messages, and the
    memory holds the kernel, with a PCB for every sleep thread. -/
structure Shows (config : KernelConfig) (world : World) (system : System) (sleepers : List Sleeper) :
    Prop where
  memory : world.memory.Shows
    ⟨system.kernel, [], sleepers.map Sleeper.owned, [], system.interruptHeaders⟩
  longTerm : world.HasThread 0 .longTermPlanner system.longTerm.rest
  shortTerm : world.HasThread 1 .shortTermPlanner (system.shortTerm.rest config)
  dispatchHandler : ∃ message, world.HasThread 2 (.dispatchHandler message) (pure ())
  asleep : ∀ sleeper ∈ sleepers, 3 ≤ sleeper.index ∧
    ∃ role, world.HasThread sleeper.index role sleeper.rest
  apart : (sleepers.map Sleeper.index).Nodup
  sleepThreads : system.kernel.sleepThreads = sleepers.map Sleeper.thread
  cpuMessages : world.cpuMessages = system.cpuMessages
  hasInterrupt : world.hasInterrupt = system.hasInterrupt

/-- Steps of one thread are steps of the world. -/
theorem run_advance {pool : Pool Role Operation Memory} {turns : Nat}
    (ran : run (fun pool index => Pool.advance (Operation.perform config) index pool) world.pool
      (List.replicate turns index) = some pool) :
    run (World.step config) world (List.replicate turns (.advance index)) =
      some { world with pool := pool } := by
  have embedded : run (World.step config) { world with pool := world.pool }
      ((List.replicate turns index).map WorldEvent.advance) = some { world with pool := pool } := by
    refine run_embed (fun pool => { world with pool := pool }) WorldEvent.advance ?_ ran
    intro pool index next advanced
    change Option.map _ _ = _
    rw [advanced]
    rfl
  rw [List.map_replicate] at embedded
  exact embedded

/-- A thread executes the first part of what it has to do, while no other thread does anything. -/
theorem run_simulated {program : Code α} {after : α → Code Unit} {snapshot : Snapshot}
    {ending : α → Snapshot → Prop} (thread : world.HasThread index role (program >>= after))
    (simulates : program.Simulates config snapshot ending) (shows : world.memory.Shows snapshot) :
    ∃ turns memory performed result next,
      run (World.step config) world (List.replicate turns (.advance index)) =
        some { world with
          pool :=
            { state := memory
              threads := world.pool.threads.set index
                { role := role, performed := performed, rest := after result } } } ∧
      memory.Shows next ∧ ending result next := by
  obtain ⟨_, at_index⟩ := thread
  obtain ⟨result, memory, executes, next, shown, ends⟩ := simulates world.memory shows
  obtain ⟨turns, performed, ran⟩ := Pool.exec_advances at_index rfl executes
  exact ⟨turns, memory, performed, result, next, run_advance ran, shown, ends⟩

/-! ### Threads that stay where they are -/

section Threads

variable {threads : List (Thread Role Operation Memory)} {memory : Memory} {rest : Code Unit}
  {other : Nat} {thread : Thread Role Operation Memory}

theorem HasThread.lt (there : world.HasThread index role rest) : index < world.pool.threads.length := by
  obtain ⟨_, at_index⟩ := there
  exact (List.getElem?_eq_some_iff.mp at_index).1

theorem HasThread.set_self (there : world.HasThread index role rest) (performed : List Operation)
    (after : Code Unit) (next : World)
    (threads : next.pool.threads = world.pool.threads.set index
      { role := role, performed := performed, rest := after }) :
    next.HasThread index role after :=
  ⟨performed, by rw [threads, List.getElem?_set_self there.lt]⟩

theorem HasThread.set_ne (there : world.HasThread index role rest) (apart : other ≠ index)
    (next : World) (threads : next.pool.threads = world.pool.threads.set other thread) :
    next.HasThread index role rest := by
  obtain ⟨performed, at_index⟩ := there
  exact ⟨performed, by rw [threads, List.getElem?_set_ne apart, at_index]⟩

/-- A thread that is through with its program is given another one. -/
theorem HasThread.restart (there : world.HasThread index role (pure ())) (next : Role)
    (program : Code Unit) : world.pool.restart index next program =
      some { world.pool with threads := world.pool.threads.set index (.start next program) } := by
  obtain ⟨performed, at_index⟩ := there
  rw [Pool.restart, at_index]
  exact if_pos rfl

theorem HasThread.roleAt (there : world.HasThread index role rest) :
    world.roleAt index = some role := by
  obtain ⟨performed, at_index⟩ := there
  rw [World.roleAt, at_index]
  rfl

/-- A thread is created. -/
theorem HasThread.append (there : world.HasThread index role rest) (next : World)
    (threads : next.pool.threads = world.pool.threads ++ [thread]) :
    next.HasThread index role rest := by
  have inside := there.lt
  obtain ⟨performed, at_index⟩ := there
  exact ⟨performed, by rw [threads, List.getElem?_append_left inside, at_index]⟩

end Threads

/-! ### Consoles -/

theorem Command.sleepThreads_onKernel {command : Command} {kernel next : Kernel}
    (handled : command.onKernel kernel = some next) : next.sleepThreads = kernel.sleepThreads := by
  cases command with
  | createProcess path quantum clientSocket =>
      obtain rfl := Option.some.inj handled
      simp [Kernel.receivePcbAndCreate, Kernel.moveProcessToNew, Kernel.queuePush,
        Kernel.sendToMemory]
  | finishProcess pid => exact (Kernel.threads_finishProcess handled).1
  | startPlanning =>
      obtain ⟨waited, waits, posts⟩ := Option.bind_eq_some_iff.mp handled
      obtain rfl := Option.some.inj posts
      obtain ⟨_, rfl⟩ := (Kernel.semWait_eq_some ..).mp waits
      simp
  | stopPlanning =>
      obtain ⟨waited, waits, waitsAgain⟩ := Option.bind_eq_some_iff.mp handled
      obtain ⟨_, rfl⟩ := (Kernel.semWait_eq_some ..).mp waits
      obtain ⟨_, rfl⟩ := (Kernel.semWait_eq_some ..).mp waitsAgain
      simp
  | modifyMultiprogrammingDegree newDegree =>
      obtain rfl := Option.some.inj handled
      exact (Kernel.modifyMultiprogrammingDegree_fields ..).2.2.2.2.2.2.2.1
  | showAllProcesses =>
      obtain rfl := Option.some.inj handled
      rfl

variable {system : System} {sleepers : List Sleeper} {kernel : Kernel}

/-- A console connects, sends one command, and its handler runs. -/
theorem Shows.command (shows : world.Shows config system sleepers) {command : Command}
    (handled : command.onKernel system.kernel = some kernel) :
    ∃ block after, run (World.step config) world block = some after ∧
      after.Shows config { system with kernel := kernel } sleepers := by
  let connected : World := { world with pool := world.pool.spawn (.console none) (pure ()) }
  let place := world.pool.threads.length
  have there : connected.HasThread place (.console none) (pure ()) :=
    ⟨[], by simp [connected, Pool.spawn, place, Thread.start]⟩
  let asked : World :=
    { connected with
      pool :=
        { connected.pool with
          threads := connected.pool.threads.set place
            (.start (.console (some command)) (Code.handlerConnection command)) } }
  have takes : World.step config connected (.command place command) = some asked := by
    rw [World.step, World.command, there.roleAt]
    exact congrArg (Option.map _) (there.restart _ _)
  have commands : run (World.step config) world [.connect, .command place command] =
      some asked := by
    rw [run_cons]
    change run (World.step config) connected [.command place command] = _
    rw [run_cons, takes]
    rfl
  have starts : asked.HasThread place (.console (some command))
      (Code.handlerConnection command >>= fun _ => pure ()) := by
    rw [Program.bind_pure_unit]
    exact ⟨[], List.getElem?_set_self there.lt⟩
  have simulates : (Code.handlerConnection command).Simulates config _ fun _ snapshot =>
      snapshot = ⟨kernel, [], sleepers.map Sleeper.owned, [], system.interruptHeaders⟩ :=
    Code.simulates_handlerConnection handled rfl
  obtain ⟨turns, memory, performed, _, _, ran, shown, rfl⟩ :=
    run_simulated starts simulates shows.memory
  refine ⟨_, _, by rw [run_append, commands]; exact ran, ?_⟩
  have kept : ∀ {index role rest}, world.HasThread index role rest →
      World.HasThread { asked with
        pool :=
          { state := memory
            threads := asked.pool.threads.set place
              { role := .console (some command), performed := performed, rest := pure () } } }
        index role rest := by
    intro index role rest there
    have apart : place ≠ index := Nat.ne_of_gt there.lt
    have first := there.append connected rfl
    have second := first.set_ne apart asked rfl
    exact second.set_ne apart _ rfl
  exact
    { memory := shown
      longTerm := kept shows.longTerm
      shortTerm := kept shows.shortTerm
      dispatchHandler := shows.dispatchHandler.imp fun _ => kept
      asleep := fun sleeper member =>
        (shows.asleep sleeper member).imp_right fun there => there.imp fun _ => kept
      apart := shows.apart
      sleepThreads := (Command.sleepThreads_onKernel handled).trans shows.sleepThreads
      cpuMessages := shows.cpuMessages
      hasInterrupt := shows.hasInterrupt }

/-! ### Planners -/

/-- The last segment of an iteration of a planner, and the start of the next iteration. -/
theorem run_iteration {segment : Code Unit} {snapshot next : Snapshot}
    (planner : role = .longTermPlanner ∨ role = .shortTermPlanner)
    (thread : world.HasThread index role segment)
    (simulates : segment.Simulates config snapshot fun _ reached => reached = next)
    (shows : world.memory.Shows snapshot) :
    ∃ block memory,
      run (World.step config) world block =
        some { world with
          pool :=
            { state := memory
              threads := world.pool.threads.set index
                { role := role, performed := [], rest := role.code config } } } ∧
      memory.Shows next := by
  have whole : world.HasThread index role (segment >>= fun _ => pure ()) := by
    rw [Program.bind_pure_unit]
    exact thread
  obtain ⟨turns, memory, performed, _, _, ran, shown, rfl⟩ := run_simulated whole simulates shows
  let through : World :=
    { world with
      pool :=
        { state := memory
          threads := world.pool.threads.set index
            { role := role, performed := performed, rest := pure () } } }
  have idle : through.HasThread index role (pure ()) := thread.set_self performed _ through rfl
  have iterates : World.step config through (.iterate index) =
      some { through with
        pool :=
          { through.pool with
            threads := through.pool.threads.set index (.start role (role.code config)) } } := by
    rw [World.step, World.iterate, idle.roleAt]
    rcases planner with rfl | rfl
    · exact congrArg (Option.map _) (idle.restart _ _)
    · exact congrArg (Option.map _) (idle.restart _ _)
  refine ⟨List.replicate turns (.advance index) ++ [.iterate index], memory, ?_, shown⟩
  rw [run_append, ran, Option.bind_some, run_cons]
  change (World.step config through (.iterate index)).bind _ = _
  rw [iterates, Option.bind_some, run_nil]
  exact congrArg (fun threads => some { through with
    pool := { through.pool with threads := threads } }) (List.set_set ..)

/-- What changes when the long-term planner has moved on. -/
theorem Shows.longTermMoved (shows : world.Shows config system sleepers) {memory : Memory}
    {performed : List Operation} (position : LongTermPosition)
    (shown : memory.Shows
      ⟨kernel, [], sleepers.map Sleeper.owned, [], system.interruptHeaders⟩)
    (sleepThreads : kernel.sleepThreads = system.kernel.sleepThreads) :
    Shows config { world with
        pool :=
          { state := memory
            threads := world.pool.threads.set 0
              { role := .longTermPlanner, performed := performed, rest := position.rest } } }
      { system with kernel := kernel, longTerm := position } sleepers where
  memory := shown
  longTerm := shows.longTerm.set_self _ _ _ rfl
  shortTerm := shows.shortTerm.set_ne (by decide) _ rfl
  dispatchHandler := shows.dispatchHandler.imp fun _ there => there.set_ne (by decide) _ rfl
  asleep sleeper member := by
    obtain ⟨beyond, role, there⟩ := shows.asleep sleeper member
    exact ⟨beyond, role, there.set_ne (by omega) _ rfl⟩
  apart := shows.apart
  sleepThreads := sleepThreads.trans shows.sleepThreads
  cpuMessages := shows.cpuMessages
  hasInterrupt := shows.hasInterrupt

/-- What changes when the short-term planner has moved on. -/
theorem Shows.shortTermMoved (shows : world.Shows config system sleepers) {memory : Memory}
    {performed : List Operation} (position : ShortTermPosition) {headers : Nat}
    (shown : memory.Shows ⟨kernel, [], sleepers.map Sleeper.owned, [], headers⟩)
    (sleepThreads : kernel.sleepThreads = system.kernel.sleepThreads) :
    Shows config { world with
        pool :=
          { state := memory
            threads := world.pool.threads.set 1
              { role := .shortTermPlanner, performed := performed,
                rest := position.rest config } } }
      { system with kernel := kernel, shortTerm := position, interruptHeaders := headers }
      sleepers where
  memory := shown
  longTerm := shows.longTerm.set_ne (by decide) _ rfl
  shortTerm := shows.shortTerm.set_self _ _ _ rfl
  dispatchHandler := shows.dispatchHandler.imp fun _ there => there.set_ne (by decide) _ rfl
  asleep sleeper member := by
    obtain ⟨beyond, role, there⟩ := shows.asleep sleeper member
    exact ⟨beyond, role, there.set_ne (by omega) _ rfl⟩
  apart := shows.apart
  sleepThreads := sleepThreads.trans shows.sleepThreads
  cpuMessages := shows.cpuMessages
  hasInterrupt := shows.hasInterrupt

theorem Shows.longTermPlanner {next : System} (shows : world.Shows config system sleepers)
    (taken : system.longTermPlanner = some next) :
    ∃ block after, run (World.step config) world block = some after ∧
      after.Shows config next sleepers := by
  have waits : ∀ {semaphore waited position},
      semaphore.mutex? = none → system.kernel.semWait semaphore = some waited →
      system.longTerm.rest = (Code.semWait semaphore >>= fun _ => position.rest) →
      ∃ block after, run (World.step config) world block = some after ∧
        after.Shows config { system with kernel := waited, longTerm := position } sleepers := by
    intro semaphore waited position counts waits rest
    have simulates : (Code.semWait semaphore).Simulates config _ fun _ reached =>
        reached = ⟨waited, [], sleepers.map Sleeper.owned, [], system.interruptHeaders⟩ :=
      Code.simulates_semWait counts waits rfl
    obtain ⟨turns, memory, performed, _, _, ran, shown, rfl⟩ :=
      run_simulated (rest ▸ shows.longTerm) simulates shows.memory
    obtain ⟨_, rfl⟩ := (Kernel.semWait_eq_some ..).mp waits
    exact ⟨_, _, ran, shows.longTermMoved _ shown (by simp)⟩
  unfold System.longTermPlanner at taken
  cases position : system.longTerm with
  | parked =>
      rw [position] at taken
      obtain ⟨waited, waited_eq, rfl⟩ := Option.map_eq_some_iff.mp taken
      exact waits rfl waited_eq (by rw [position]; rfl)
  | hasPlanner =>
      rw [position] at taken
      obtain ⟨waited, waited_eq, rfl⟩ := Option.map_eq_some_iff.mp taken
      exact waits rfl waited_eq (by rw [position]; rfl)
  | hasDegree =>
      rw [position] at taken
      obtain ⟨admitted, admits, rfl⟩ := Option.map_eq_some_iff.mp taken
      have thread := shows.longTerm
      rw [position] at thread
      obtain ⟨block, memory, ran, shown⟩ := run_iteration (.inl rfl) thread
        (Code.simulates_longTermPlannerAdmit admits rfl) shows.memory
      obtain ⟨_, _, _, _, rfl⟩ := Kernel.longTermPlannerAdmit_cases admits
      exact ⟨block, _, ran, shows.longTermMoved .parked shown (by simp [Kernel.queuePush])⟩

theorem Shows.shortTermPlanner {next : System} (shows : world.Shows config system sleepers)
    (taken : system.shortTermPlanner config = some next) :
    ∃ block after, run (World.step config) world block = some after ∧
      after.Shows config next sleepers := by
  obtain ⟨known, taken⟩ := Option.ite_none_right_eq_some.mp taken
  have waits : ∀ {semaphore waited position},
      semaphore.mutex? = none → system.kernel.semWait semaphore = some waited →
      system.shortTerm.rest config = (Code.semWait semaphore >>= fun _ => position.rest config) →
      ∃ block after, run (World.step config) world block = some after ∧
        after.Shows config { system with kernel := waited, shortTerm := position } sleepers := by
    intro semaphore waited position counts waits rest
    have simulates : (Code.semWait semaphore).Simulates config _ fun _ reached =>
        reached = ⟨waited, [], sleepers.map Sleeper.owned, [], system.interruptHeaders⟩ :=
      Code.simulates_semWait counts waits rfl
    obtain ⟨turns, memory, performed, _, _, ran, shown, rfl⟩ :=
      run_simulated (rest ▸ shows.shortTerm) simulates shows.memory
    obtain ⟨_, rfl⟩ := (Kernel.semWait_eq_some ..).mp waits
    exact ⟨_, _, ran, shows.shortTermMoved _ shown (by simp)⟩
  cases position : system.shortTerm with
  | parked =>
      rw [position] at taken
      obtain ⟨waited, waited_eq, rfl⟩ := Option.map_eq_some_iff.mp taken
      exact waits rfl waited_eq (by rw [position]; exact ShortTermPosition.rest_parked known)
  | hasPlanner =>
      rw [position] at taken
      obtain ⟨waited, waited_eq, rfl⟩ := Option.map_eq_some_iff.mp taken
      exact waits rfl waited_eq (by rw [position]; rfl)
  | hasReady =>
      rw [position] at taken
      obtain ⟨dispatched, dispatches, result⟩ := Option.map_eq_some_iff.mp taken
      have thread := shows.shortTerm
      rw [position] at thread
      obtain ⟨_, _, _, _, dispatched_eq⟩ := Kernel.shortTermPlannerDispatch_cases dispatches
      have asleep : dispatched.sleepThreads = system.kernel.sleepThreads := by
        rw [dispatched_eq]
        simp [Kernel.queuePush]
      by_cases roundRobin : config.planningAlgorithm = "ROUND_ROBIN"
      · rw [if_pos roundRobin] at result
        subst result
        have simulates : (Code.shortTermPlannerDispatch config).Simulates config _
            fun _ reached =>
              reached = ⟨dispatched, [], sleepers.map Sleeper.owned, [], system.interruptHeaders⟩ :=
          Code.simulates_shortTermPlannerDispatch dispatches rfl
        obtain ⟨turns, memory, performed, _, _, ran, shown, rfl⟩ :=
          run_simulated thread simulates shows.memory
        rw [Code.afterDispatch, if_pos roundRobin] at ran
        exact ⟨_, _, ran, shows.shortTermMoved .inQuantum shown asleep⟩
      · rw [if_neg roundRobin] at result
        subst result
        have simulates : (ShortTermPosition.hasReady.rest config).Simulates config
            ⟨system.kernel, [], sleepers.map Sleeper.owned, [], system.interruptHeaders⟩
            fun _ reached => reached = ⟨dispatched.semPost .shortTermPlanner, [],
              sleepers.map Sleeper.owned, [], system.interruptHeaders⟩ := by
          refine Program.simulates_bind
            (Code.simulates_shortTermPlannerDispatch dispatches ?_)
          rw [Code.afterDispatch, if_neg roundRobin]
          exact Code.simulates_semPost rfl rfl
        obtain ⟨block, memory, ran, shown⟩ := run_iteration (.inr rfl) thread simulates shows.memory
        exact ⟨block, _, ran, shows.shortTermMoved .parked shown (by simpa using asleep)⟩
  | inQuantum =>
      rw [position] at taken
      obtain rfl := Option.some.inj taken
      have thread := shows.shortTerm
      rw [position] at thread
      obtain ⟨block, memory, ran, shown⟩ := run_iteration (.inr rfl) thread
        (Code.simulates_interruptAfterQuantum rfl) shows.memory
      exact ⟨block, _, ran, shows.shortTermMoved .parked shown (by simp)⟩

/-! ### The CPU -/

theorem Shows.cpuExecute {next : System} {request : CpuRequest} {cpuRegister : List (BitVec 64)}
    {programCounter : Int32} (shows : world.Shows config system sleepers)
    (taken : system.cpuExecute request cpuRegister programCounter = some next) :
    ∃ after, World.step config world (.cpuExecute request cpuRegister programCounter) = some after ∧
      after.Shows config next sleepers := by
  unfold System.cpuExecute at taken
  cases connection : system.kernel.cpuDispatchConnection with
  | nil => simp [connection] at taken
  | cons first rest =>
      obtain ⟨header, process⟩ := first
      rw [connection] at taken
      obtain ⟨allowed, result⟩ := Option.ite_none_left_eq_some.mp taken
      obtain rfl := Option.some.inj result
      have unread : world.memory.cpuDispatchConnection = (header, process) :: rest :=
        shows.memory.cpuDispatchConnection.trans connection
      refine ⟨{ world with
        pool :=
          { world.pool with state := { world.memory with cpuDispatchConnection := rest } }
        cpuMessages := world.cpuMessages ++ [⟨request, { process with
          cpuRegister := cpuRegister, programCounter := programCounter }⟩]
        hasInterrupt := false }, ?_,
        { shows with
          memory := shows.memory.receive rest
          cpuMessages := congrArg (· ++ _) shows.cpuMessages
          hasInterrupt := rfl }⟩
      rw [World.step, World.cpuExecute, unread]
      exact if_neg (shows.hasInterrupt ▸ allowed)

theorem Shows.cpuReadInterrupt (shows : world.Shows config system sleepers)
    (sent : 0 < system.interruptHeaders) :
    ∃ after, World.step config world .cpuReadInterrupt = some after ∧
      after.Shows config
        { system with interruptHeaders := system.interruptHeaders - 1, hasInterrupt := true }
        sleepers := by
  have same : world.memory.interruptHeaders = system.interruptHeaders :=
    shows.memory.interruptHeaders
  refine ⟨_, if_pos (same ▸ sent), { shows with memory := ?_, hasInterrupt := rfl }⟩
  exact { shows.memory with interruptHeaders := congrArg (· - 1) same }

/-! ### The handler of the CPU's messages -/

theorem Kernel.sleepThreads_of_dispatchEffect {message : Message} {kernel next : Kernel}
    (effect : Kernel.DispatchEffect message kernel next)
    (awake : ∀ time, message.request ≠ .sleep time) : next.sleepThreads = kernel.sleepThreads := by
  cases effect with
  | finishes calls finished => exact (Kernel.threads_finishProcess finished).1
  | interrupts requested result =>
      rw [result]
      simp [Kernel.handleInterrupt, Kernel.queuePush]
  | grants resource requested valid available result =>
      rw [result]
      simp [Kernel.removeResourceInstance]
  | blocks resource process rest requested valid unavailable head lines kind result =>
      rw [result]
      simp
  | releases resource requested valid held result =>
      rw [result]
      simp [Kernel.addResourceInstance]
  | sleeps time requested result => exact absurd requested (awake time)

/-- The handler receives a message and runs; the thread that a SLEEP creates begins to run. -/
theorem Shows.handleDispatch {message : Message} {rest : List Message}
    (shows : world.Shows config system sleepers) (head : system.cpuMessages = message :: rest)
    (handled : system.kernel.handleDispatchConnection message = some kernel) :
    ∃ block after sleepersAfter, run (World.step config) world block = some after ∧
      after.Shows config { system with cpuMessages := rest, kernel := kernel } sleepersAfter := by
  obtain ⟨last, idle⟩ := shows.dispatchHandler
  let received : World :=
    { world with
      pool :=
        { world.pool with
          threads := world.pool.threads.set 2
            (.start (.dispatchHandler (some message)) (Code.handleDispatchConnection message)) }
      cpuMessages := rest }
  have receives : World.step config world (.receive 2) = some received := by
    have waiting : world.cpuMessages = message :: rest := shows.cpuMessages.trans head
    rw [World.step, World.receive, idle.roleAt, waiting]
    exact congrArg (Option.map _) (idle.restart _ _)
  have starts : received.HasThread 2 (.dispatchHandler (some message))
      (Code.handleDispatchConnection message >>= fun _ => pure ()) := by
    rw [Program.bind_pure_unit]
    exact ⟨[], List.getElem?_set_self idle.lt⟩
  obtain ⟨turns, memory, performed, _, next, ran, shown, ends⟩ :=
    run_simulated starts (Code.simulates_handleDispatchConnection handled) shows.memory
  let handledWorld : World :=
    { received with
      pool :=
        { state := memory
          threads := received.pool.threads.set 2
            { role := .dispatchHandler (some message), performed := performed, rest := pure () } } }
  have kept : ∀ {index role rest}, 2 ≠ index → world.HasThread index role rest →
      handledWorld.HasThread index role rest := fun apart there =>
    (there.set_ne apart received rfl).set_ne apart handledWorld rfl
  have through : handledWorld.HasThread 2 (.dispatchHandler (some message)) (pure ()) :=
    starts.set_self performed _ handledWorld rfl
  have first : run (World.step config) world (.receive 2 :: List.replicate turns (.advance 2)) =
      some handledWorld := by
    rw [run_cons, receives]
    exact ran
  rcases ends with ⟨awake, rfl⟩ | ⟨process, time, requested, rfl⟩
  · refine ⟨_, handledWorld, sleepers, first, ?_⟩
    exact
      { memory := shown
        longTerm := kept (by decide) shows.longTerm
        shortTerm := kept (by decide) shows.shortTerm
        dispatchHandler := ⟨_, through⟩
        asleep := fun sleeper member => by
          obtain ⟨beyond, role, there⟩ := shows.asleep sleeper member
          exact ⟨beyond, role, kept (by omega) there⟩
        apart := shows.apart
        sleepThreads := (Kernel.sleepThreads_of_dispatchEffect
          (Kernel.handleDispatchConnection_cases handled) awake).trans shows.sleepThreads
        cpuMessages := rfl
        hasInterrupt := shows.hasInterrupt }
  · let sleeper : Sleeper :=
      { index := handledWorld.pool.threads.length
        pointer := process
        thread := { process := message.pcb, sleepTime := time, phase := .starting } }
    let started : World :=
      { handledWorld with
        pool := Pool.spawn (.sleeper process time) (Code.threadSleepProcess process)
          { handledWorld.pool with state := { memory with createdThreads := [] } } }
    have starts : World.step config handledWorld .startSleeper = some started := by
      have created : handledWorld.memory.createdThreads = [(process, time)] := shown.createdThreads
      rw [World.step, World.startSleeper, created]
    have keptAgain : ∀ {index role rest}, 2 ≠ index → world.HasThread index role rest →
        started.HasThread index role rest := fun apart there =>
      (kept apart there).append started rfl
    have asleep : kernel.sleepThreads = system.kernel.sleepThreads ++ [sleeper.thread] := by
      simp only [Kernel.handleDispatchConnection, requested] at handled
      rw [← Option.some.inj handled]
      simp [Kernel.handleSleepInterruption, sleeper]
    refine ⟨.receive 2 :: List.replicate turns (.advance 2) ++ [.startSleeper], started,
      sleepers ++ [sleeper], ?_, ?_⟩
    · rw [run_append, first, Option.bind_some, run_cons, starts]
      rfl
    have owned : List.Subperm ((sleepers ++ [sleeper]).map Sleeper.owned)
        ((process, message.pcb) :: sleepers.map Sleeper.owned) := by
      rw [List.map_append]
      exact (List.perm_append_singleton ..).subperm
    exact
      { memory := { shown.reown owned with createdThreads := rfl }
        longTerm := keptAgain (by decide) shows.longTerm
        shortTerm := keptAgain (by decide) shows.shortTerm
        dispatchHandler := ⟨_, through.append started rfl⟩
        asleep := fun other member => by
          rcases List.mem_append.mp member with old | new
          · obtain ⟨beyond, role, there⟩ := shows.asleep other old
            exact ⟨beyond, role, keptAgain (by omega) there⟩
          · rw [List.mem_singleton.mp new]
            exact ⟨through.lt, .sleeper process time, [], List.getElem?_concat_length ..⟩
        apart := by
          rw [List.map_append, List.map_singleton]
          refine List.nodup_append.mpr ⟨shows.apart, List.nodup_singleton _, ?_⟩
          intro index old other new
          obtain ⟨other, member, rfl⟩ := List.mem_map.mp old
          rw [List.mem_singleton.mp new]
          obtain ⟨beyond, role, there⟩ := shows.asleep other member
          exact Nat.ne_of_lt (kept (by omega) there).lt
        sleepThreads := by rw [List.map_append, asleep, shows.sleepThreads]; rfl
        cpuMessages := rfl
        hasInterrupt := shows.hasInterrupt }

/-! ### Sleep threads -/

/-- Another sleep thread is not at this one's index. -/
theorem Shows.index_ne {place other : Nat} {sleeper neighbour : Sleeper}
    (shows : world.Shows config system sleepers) (at_place : sleepers[place]? = some sleeper)
    (at_other : sleepers[other]? = some neighbour) (apart : other ≠ place) :
    sleeper.index ≠ neighbour.index := by
  intro same
  have inside : other < (sleepers.map Sleeper.index).length := by
    rw [List.length_map]
    exact (List.getElem?_eq_some_iff.mp at_other).1
  refine apart ((List.getElem?_inj inside shows.apart).mp ?_)
  rw [List.getElem?_map, List.getElem?_map, at_place, at_other, Option.map_some, Option.map_some,
    same]

theorem Shows.sleepThread {place : Nat} {thread : SleepThread}
    (shows : world.Shows config system sleepers)
    (at_place : system.kernel.sleepThreads[place]? = some thread) :
    ∃ block after sleepersAfter, run (World.step config) world block = some after ∧
      after.Shows config { system with kernel := system.kernel.sleepThreadStep thread place }
        sleepersAfter := by
  obtain ⟨sleeper, at_sleeper, rfl⟩ : ∃ sleeper, sleepers[place]? = some sleeper ∧
      sleeper.thread = thread := by
    rw [shows.sleepThreads, List.getElem?_map] at at_place
    exact Option.map_eq_some_iff.mp at_place
  obtain ⟨beyond, role, there⟩ := shows.asleep sleeper (List.mem_of_getElem? at_sleeper)
  cases phase : sleeper.thread.phase with
  | starting =>
      have thread : world.HasThread sleeper.index role
          (Code.popLocked .exec >>= fun _ => Code.afterSleep sleeper.pointer) := by
        rw [Sleeper.rest, phase] at there
        exact there
      have simulates : (Code.popLocked .exec).Simulates config _ fun _ reached => reached =
          ⟨system.kernel.setQueue (system.kernel.queue .exec).tail .exec, [],
            sleepers.map Sleeper.owned, [], system.interruptHeaders⟩ :=
        Code.simulates_discard List.not_mem_nil fun _ => rfl
      obtain ⟨turns, memory, performed, _, _, ran, shown, rfl⟩ :=
        run_simulated thread simulates shows.memory
      let asleep : Sleeper := { sleeper with thread := { sleeper.thread with phase := .sleeping } }
      have unchanged : ∀ {β : Type} (feature : Sleeper → β), feature asleep = feature sleeper →
          (sleepers.set place asleep).map feature = sleepers.map feature := by
        intro β feature same
        obtain ⟨inside, here⟩ := List.getElem?_eq_some_iff.mp at_sleeper
        have within : place < (sleepers.map feature).length := by simpa using inside
        have at_map : (sleepers.map feature)[place] = feature sleeper := by
          rw [List.getElem_map, here]
        rw [List.map_set, same, ← at_map, List.set_getElem_self]
      refine ⟨_, _, sleepers.set place asleep, ran, ?_⟩
      exact
        { memory := by
            rw [unchanged Sleeper.owned rfl, Kernel.sleepThreadStep, phase]
            exact shown.sleepThreads _
          longTerm := shows.longTerm.set_ne (by omega) _ rfl
          shortTerm := shows.shortTerm.set_ne (by omega) _ rfl
          dispatchHandler := shows.dispatchHandler.imp fun _ there => there.set_ne (by omega) _ rfl
          asleep := fun other member => by
            obtain ⟨index, at_index⟩ := List.mem_iff_getElem?.mp member
            by_cases here : index = place
            · subst here
              rw [List.getElem?_set_self (List.getElem?_eq_some_iff.mp at_sleeper).1] at at_index
              obtain rfl := Option.some.inj at_index
              exact ⟨beyond, role, thread.set_self _ _ _ rfl⟩
            · rw [List.getElem?_set_ne (Ne.symm here)] at at_index
              obtain ⟨otherBeyond, other_role, others⟩ :=
                shows.asleep other (List.mem_of_getElem? at_index)
              exact ⟨otherBeyond, other_role,
                others.set_ne (shows.index_ne at_sleeper at_index here) _ rfl⟩
          apart := by
            rw [unchanged Sleeper.index rfl]
            exact shows.apart
          sleepThreads := by
            rw [Kernel.sleepThreadStep, phase, List.map_set, ← shows.sleepThreads]
            rfl
          cpuMessages := shows.cpuMessages
          hasInterrupt := shows.hasInterrupt }
  | sleeping =>
      have thread : world.HasThread sleeper.index role
          (Code.afterSleep sleeper.pointer >>= fun _ => pure ()) := by
        rw [Sleeper.rest, phase] at there
        rw [Program.bind_pure_unit]
        exact there
      let process : Pcb :=
        { sleeper.thread.process with
          state := .ready
          programCounter := sleeper.thread.process.programCounter + 1 }
      have simulates : (Code.afterSleep sleeper.pointer).Simulates config
          ⟨system.kernel, [], sleeper.owned :: (sleepers.eraseIdx place).map Sleeper.owned, [],
            system.interruptHeaders⟩ fun _ reached => reached =
          ⟨(system.kernel.queuePush .ready process).semPost .processReady, [],
            (sleepers.eraseIdx place).map Sleeper.owned, [], system.interruptHeaders⟩ :=
        Code.simulates_afterSleep rfl
      have owned : List.Subperm (sleeper.owned :: (sleepers.eraseIdx place).map Sleeper.owned)
          (sleepers.map Sleeper.owned) := by
        obtain ⟨inside, here⟩ := List.getElem?_eq_some_iff.mp at_sleeper
        rw [← here, ← List.map_cons]
        exact ((List.getElem_cons_eraseIdx_perm inside).map Sleeper.owned).subperm
      obtain ⟨turns, memory, performed, _, _, ran, shown, rfl⟩ :=
        run_simulated thread simulates (shows.memory.reown owned)
      refine ⟨_, _, sleepers.eraseIdx place, ran, ?_⟩
      exact
        { memory := by
            rw [Kernel.sleepThreadStep, phase]
            exact shown.sleepThreads _
          longTerm := shows.longTerm.set_ne (by omega) _ rfl
          shortTerm := shows.shortTerm.set_ne (by omega) _ rfl
          dispatchHandler := shows.dispatchHandler.imp fun _ there => there.set_ne (by omega) _ rfl
          asleep := fun other member => by
            obtain ⟨index, apart, at_index⟩ := List.mem_eraseIdx_iff_getElem?.mp member
            obtain ⟨otherBeyond, other_role, others⟩ :=
              shows.asleep other (List.mem_of_getElem? at_index)
            exact ⟨otherBeyond, other_role,
              others.set_ne (shows.index_ne at_sleeper at_index apart) _ rfl⟩
          apart := ((List.eraseIdx_sublist ..).map _).nodup shows.apart
          sleepThreads := by
            rw [← List.eraseIdx_map, ← shows.sleepThreads]
            simp [Kernel.sleepThreadStep, phase, Kernel.queuePush]
          cpuMessages := shows.cpuMessages
          hasInterrupt := shows.hasInterrupt }

/-! ### Runs -/

/-- Every step of the system is some steps of the world. -/
theorem Shows.step {event : Event} {next : System} (shows : world.Shows config system sleepers)
    (taken : system.step config event = some next) :
    ∃ block after sleepersAfter, run (World.step config) world block = some after ∧
      after.Shows config next sleepersAfter := by
  have console : ∀ command : Command, (system.onKernel command.onKernel) = some next →
      ∃ block after sleepersAfter, run (World.step config) world block = some after ∧
        after.Shows config next sleepersAfter := by
    intro command taken
    obtain ⟨kernel, handled, rfl⟩ := Option.map_eq_some_iff.mp taken
    obtain ⟨block, after, ran, shown⟩ := shows.command handled
    exact ⟨block, after, sleepers, ran, shown⟩
  have single : ∀ {moved : WorldEvent} {after : World},
      World.step config world moved = some after → run (World.step config) world [moved] =
        some after := by
    intro moved after moves
    rw [run_cons, moves]
    rfl
  cases event with
  | createProcess path quantum clientSocket =>
      exact console (.createProcess path quantum clientSocket) taken
  | finishProcess pid => exact console (.finishProcess pid) taken
  | startPlanning => exact console .startPlanning taken
  | stopPlanning => exact console .stopPlanning taken
  | modifyMultiprogrammingDegree newDegree =>
      exact console (.modifyMultiprogrammingDegree newDegree) taken
  | longTermPlanner =>
      obtain ⟨block, after, ran, shown⟩ := shows.longTermPlanner taken
      exact ⟨block, after, sleepers, ran, shown⟩
  | shortTermPlanner =>
      obtain ⟨block, after, ran, shown⟩ := shows.shortTermPlanner taken
      exact ⟨block, after, sleepers, ran, shown⟩
  | cpuExecute request cpuRegister programCounter =>
      obtain ⟨after, moves, shown⟩ := shows.cpuExecute taken
      exact ⟨_, after, sleepers, single moves, shown⟩
  | cpuReadInterrupt =>
      obtain ⟨sent, result⟩ := Option.ite_none_right_eq_some.mp taken
      obtain rfl := Option.some.inj result
      obtain ⟨after, moves, shown⟩ := shows.cpuReadInterrupt sent
      exact ⟨_, after, sleepers, single moves, shown⟩
  | handleDispatch =>
      rw [System.step] at taken
      cases head : system.cpuMessages with
      | nil => simp [head] at taken
      | cons message rest =>
          rw [head] at taken
          obtain ⟨kernel, handled, rfl⟩ := Option.map_eq_some_iff.mp taken
          exact shows.handleDispatch head handled
  | sleepThread index =>
      rw [System.step] at taken
      cases at_index : system.kernel.sleepThreads[index]? with
      | none => simp [at_index] at taken
      | some thread =>
          rw [at_index] at taken
          obtain rfl := Option.some.inj taken
          exact shows.sleepThread at_index

theorem Shows.init (config : KernelConfig) :
    (World.init config).Shows config (System.init config) [] where
  memory := Memory.Shows.init config
  longTerm := ⟨[], rfl⟩
  shortTerm := ⟨[], rfl⟩
  dispatchHandler := ⟨none, [], rfl⟩
  asleep _ member := absurd member List.not_mem_nil
  apart := List.nodup_nil
  sleepThreads := rfl
  cpuMessages := rfl
  hasInterrupt := rfl

end World

/-- Every run of the system is a run of the threads, operation by operation: from the same start they
    can come to a memory that holds the kernel of the system, with the same messages under way. -/
theorem system_run_is_interleaving (config : KernelConfig) (events : List Event) (system : System)
    (reaches : run (System.step config) (System.init config) events = some system) :
    ∃ interleaving world sleepers,
      run (World.step config) (World.init config) interleaving = some world ∧
        world.Shows config system sleepers := by
  obtain ⟨interleaving, world, ran, sleepers, shown⟩ :=
    exists_run_of_simulation (fun system world => ∃ sleepers, World.Shows config world system sleepers)
      (fun ⟨sleepers, shows⟩ taken => by
        obtain ⟨block, after, sleepersAfter, ran, shown⟩ := shows.step taken
        exact ⟨block, after, ran, sleepersAfter, shown⟩)
      ⟨[], World.Shows.init config⟩ reaches
  exact ⟨interleaving, world, sleepers, ran, shown⟩

/-- A process is created, dispatched and put to sleep. -/
def putToSleep : List Event :=
  dispatchFirst ++ [.cpuExecute (.sleep 5) [1, 0, 0, 0] 1, .handleDispatch, .sleepThread 0]

theorem system_run_is_interleaving_putToSleep :
    ∃ system, run (System.step fifoConfig) (System.init fifoConfig) putToSleep = some system ∧
      ∃ interleaving world sleepers,
        run (World.step fifoConfig) (World.init fifoConfig) interleaving = some world ∧
          world.Shows fifoConfig system sleepers :=
  ⟨_, rfl, system_run_is_interleaving fifoConfig putToSleep _ rfl⟩

end OsSimulator
