/-
Module: OsSimulator.Proofs.StartStop
Purpose: START_PLANNING and STOP_PLANNING with a single console.  Their handler waits for tokens that
  nobody else posts (`mutex_stopping_planner`) or that a planner keeps while it waits for a process,
  so it can be left waiting for ever; it is not where planning is stopped when START arrives, and the
  planners are between two iterations, and stay there, when STOP does.
Main exports: World.Wedged, World.SingleConsole, World.PlannersYield, console_never_wedged,
  useless_command_never_returns
-/
import OsSimulator.Proofs.Planning

namespace OsSimulator

open Threads Transition

/-- The command is one of those that start, finish or plan processes. -/
def Command.createsOrPlans : Command → Bool
  | .createProcess .. | .finishProcess _ | .startPlanning | .stopPlanning => true
  | .modifyMultiprogrammingDegree _ | .showAllProcesses => false

instance Planner.decidableForall {property : Planner → Prop}
    [∀ planner, Decidable (property planner)] :
    Decidable (∀ planner, property planner) :=
  decidable_of_iff (property .shortTerm ∧ property .longTerm)
    ⟨fun both planner => by cases planner <;> simp [both], fun all => ⟨all _, all _⟩⟩

/-- The thread handles START_PLANNING or STOP_PLANNING. -/
def Role.StartsOrStops (role : Role) : Prop :=
  role = .console (some .startPlanning) ∨ role = .console (some .stopPlanning)

namespace World

/-- The thread at `index` has an operation to perform and is suspended on it. -/
def Blocked (config : KernelConfig) (world : World) (index : Nat) : Prop :=
  ∃ op, world.pool.nextOp index = some op ∧ op.perform config world.memory = none

/-- The step is one of a planner, of a sleep thread or of the handler of the CPU's messages. -/
def KernelStep (world : World) : WorldEvent → Prop
  | .advance index | .iterate index | .receive index =>
      ∀ command, world.roleAt index ≠ some (.console command)
  | .startSleeper => True
  | _ => False

/-- A console's handler is blocked inside START_PLANNING or STOP_PLANNING while no planner, no sleep
    thread and no handler of the CPU's messages can take a step. -/
structure Wedged (config : KernelConfig) (world : World) : Prop where
  console : ∃ index role, world.roleAt index = some role ∧ role.StartsOrStops ∧
    world.Blocked config index
  others : ∀ event, world.KernelStep event → world.step config event = none

/-- There is one console, and it only creates and finishes processes and starts and stops planning. -/
def SingleConsole (world : World) : WorldEvent → Prop
  | .connect => ∀ thread ∈ world.pool.threads, thread.role.waiting ≠ .console none
  | .command _ request => request.createsOrPlans = true
  | _ => True

/-- No STOP_PLANNING is in progress. -/
def NoStop (world : World) : Prop :=
  ∀ thread ∈ world.pool.threads, thread.role = .console (some .stopPlanning) → thread.Idle

/-- START_PLANNING arrives while planning is stopped, STOP_PLANNING while both planners are between
    two iterations, and no planner begins an iteration while STOP_PLANNING is in progress. -/
def PlannersYield (world : World) : WorldEvent → Prop
  | .command _ .startPlanning => 0 < world.memory.sem .mutexStoppingPlanner
  | .command _ .stopPlanning => ∀ planner : Planner, 0 < world.memory.sem planner.semaphore
  | .advance index =>
      ∀ planner : Planner, world.roleAt index = some planner.role →
        world.pool.nextOp index = some (.wait planner.semaphore) → world.NoStop
  | _ => True

instance (world : World) : Decidable world.NoStop :=
  inferInstanceAs (Decidable (∀ thread ∈ world.pool.threads, _ → _))

instance (world : World) (event : WorldEvent) : Decidable (world.SingleConsole event) := by
  cases event <;> unfold SingleConsole <;> infer_instance

instance (world : World) (event : WorldEvent) : Decidable (world.PlannersYield event) :=
  match event with
  | .command _ .startPlanning => inferInstanceAs (Decidable (0 < _))
  | .command _ .stopPlanning => inferInstanceAs (Decidable (∀ _ : Planner, 0 < _))
  | .advance _ => inferInstanceAs (Decidable (∀ _ : Planner, _ → _ → world.NoStop))
  | .command _ (.createProcess ..) | .command _ (.finishProcess _)
  | .command _ (.modifyMultiprogrammingDegree _) | .command _ .showAllProcesses
  | .iterate _ | .connect | .receive _ | .startSleeper | .cpuExecute .. | .cpuReadInterrupt =>
      isTrue trivial

end World

/-! ### What the two commands have done -/

theorem Role.StartsOrStops.waits_or_posts {role : Role} (command : role.StartsOrStops)
    {op : Operation} (member : op ∈ role.planningOps) :
    (∃ semaphore, op = .wait semaphore) ∨ ∃ semaphore, op = .post semaphore := by
  rcases command with rfl | rfl <;>
    · simp only [Role.planningOps, List.mem_cons, List.not_mem_nil, or_false] at member
      rcases member with rfl | rfl | rfl <;> simp

theorem Role.StartsOrStops.waiting_eq {role : Role} (command : role.StartsOrStops) :
    role.waiting = .console none := by
  rcases command with rfl | rfl <;> rfl

theorem Role.StartsOrStops.isPlanning {role : Role} (command : role.StartsOrStops)
    {op : Operation} (member : op ∈ role.planningOps) : op.isPlanning = true := by
  rcases command with rfl | rfl <;>
    · simp only [Role.planningOps, List.mem_cons, List.not_mem_nil, or_false] at member
      rcases member with rfl | rfl | rfl <;> rfl

theorem Role.StartsOrStops.nodup {role : Role} (command : role.StartsOrStops) :
    role.planningOps.Nodup := by
  rcases command with rfl | rfl <;> decide

/-- A START and a STOP handler perform the planning operations of their role and no others. -/
def commands : Discipline Role Operation Memory where
  relevant _ := true
  guard _ _ _ := True
  during role trace := role.StartsOrStops → trace <:+ role.planningOps
  ending role trace := role.StartsOrStops → trace = role.planningOps

/-- Every program keeps to the discipline. -/
theorem commands_programs (config : KernelConfig) (role : Role) :
    commands.during role [] ∧ (role.code config).Keeps commands role
      (fun trace _ => commands.ending role trace) [] := by
  refine ⟨fun _ => List.nil_suffix, ?_⟩
  by_cases command : role.StartsOrStops
  · rcases command with rfl | rfl <;>
      simp [Role.code, Code.handlerConnection, Code.semWait, Code.semPost, commands,
        Discipline.record, Role.planningOps, List.suffix_cons_iff]
  · exact Program.keeps_of_free _ (fun _ starts => absurd starts command)
      fun _ _ starts => absurd starts command

namespace World

/-- What holds in every state of a world with a single console. -/
structure Single (world : World) : Prop where
  planned : world.Planned
  commands : world.pool.Follows commands
  sole : ∀ (i j : Nat) (first second : Thread Role Operation Memory),
    world.pool.threads[i]? = some first → world.pool.threads[j]? = some second →
      first.role.waiting = .console none → second.role.waiting = .console none → i = j

variable {config : KernelConfig} {world next : World} {event : WorldEvent}

theorem single_init (config : KernelConfig) : (World.init config).Single where
  planned := planned_init config
  commands := by
    intro thread member
    simp only [World.init, List.mem_cons, List.not_mem_nil, or_false] at member
    rcases member with rfl | rfl | rfl
    · exact .start (commands_programs config _).1 (commands_programs config .longTermPlanner).2
    · exact .start (commands_programs config _).1 (commands_programs config .shortTermPlanner).2
    · exact .start (commands_programs config (.dispatchHandler none)).1
        (commands_programs config (.dispatchHandler none)).2
  sole i j first second at_i at_j first_console _ := by
    have member := List.mem_of_getElem? at_i
    simp only [World.init, List.mem_cons, List.not_mem_nil, or_false] at member
    rcases member with rfl | rfl | rfl <;> cases first_console

theorem Single.step (single : world.Single) (one : world.SingleConsole event)
    (stepped : world.step config event = some next) : next.Single where
  planned := single.planned.step stepped
  commands := (World.poolStep stepped).follows (commands_programs config)
    (fun _ _ _ _ _ _ => trivial) single.commands
  sole i j first second at_i at_j first_console second_console := by
    have step := World.poolStep stepped
    have none_yet : ∀ thread : Thread Role Operation Memory, event.Starts thread.role →
        (thread.role = .console none ∨
          ∃ process sleepTime, thread.role = .sleeper process sleepTime) →
        thread.role.waiting = .console none →
          ∀ other ∈ world.pool.threads, other.role.waiting ≠ .console none := by
      rintro thread starts (created | ⟨_, _, created⟩) console
      · rw [created] at starts
        cases event with
        | connect => exact one
        | _ => exact starts.elim
      · rw [created] at console
        cases console
    rcases step.waiting_cases at_i with ⟨firstOld, before_i, sameFirst⟩ | ⟨last_i, starts, new⟩
    · rcases step.waiting_cases at_j with ⟨secondOld, before_j, sameSecond⟩ | ⟨_, starts, new⟩
      · exact single.sole i j _ _ before_i before_j (sameFirst.trans first_console)
          (sameSecond.trans second_console)
      · exact absurd (sameFirst.trans first_console)
          (none_yet second starts new second_console _ (List.mem_of_getElem? before_i))
    · rcases step.waiting_cases at_j with ⟨secondOld, before_j, sameSecond⟩ | ⟨last_j, _, _⟩
      · exact absurd (sameSecond.trans second_console)
          (none_yet first starts new first_console _ (List.mem_of_getElem? before_j))
      · rw [last_i, last_j]

end World

namespace World

variable {config : KernelConfig} {world next : World} {event : WorldEvent} {index other : Nat}
  {thread : Thread Role Operation Memory}

/-- What a START or a STOP handler does next, and has done, is a part of what it has to do. -/
theorem Single.next_performed (single : world.Single)
    (at_index : world.pool.threads[index]? = some thread) (command : thread.role.StartsOrStops)
    {op : Operation} (nextOp : thread.nextOp = some op) :
    op :: thread.performed <:+ thread.role.planningOps := by
  have follows := single.commands thread (List.mem_of_getElem? at_index)
  have during := follows.during_next world.memory nextOp trivial command
  simpa [OsSimulator.commands, Discipline.record] using during

/-- A START or STOP handler that is through has done all of it. -/
theorem Single.performed_of_idle (single : world.Single)
    (at_index : world.pool.threads[index]? = some thread) (command : thread.role.StartsOrStops)
    (idle : thread.Idle) : thread.performed = thread.role.planningOps := by
  have done := (single.commands thread (List.mem_of_getElem? at_index)).ending idle command
  simpa [OsSimulator.commands] using done

/-- The console is served: the tokens that its handler has still to wait for are there. -/
structure Served (world : World) : Prop where
  single : world.Single
  ready : ∀ (index : Nat) (thread : Thread Role Operation Memory) (semaphore : Semaphore),
    world.pool.threads[index]? = some thread → thread.role.StartsOrStops →
      .wait semaphore ∈ thread.role.planningOps → .wait semaphore ∉ thread.performed →
        0 < world.memory.sem semaphore

/-- The handler of a served console is not blocked. -/
theorem Served.not_blocked (served : world.Served) {role : Role}
    (at_role : world.roleAt index = some role) (command : role.StartsOrStops) :
    ¬ world.Blocked config index := by
  rintro ⟨op, nextOp, suspended⟩
  obtain ⟨thread, at_index, threadNext⟩ := Option.bind_eq_some_iff.mp nextOp
  obtain rfl : thread.role = role := by simpa [roleAt, at_index] using at_role
  have performed := served.single.next_performed at_index command threadNext
  have planned := performed.mem List.mem_cons_self
  rcases command.waits_or_posts planned with ⟨semaphore, rfl⟩ | ⟨semaphore, rfl⟩
  · have notYet := (List.nodup_cons.mp (performed.sublist.nodup command.nodup)).1
    have positive := served.ready index thread semaphore at_index command planned notYet
    simp [Operation.perform, positive] at suspended
  · cases suspended

theorem served_init (config : KernelConfig) : (World.init config).Served where
  single := single_init config
  ready index thread semaphore at_index command := by
    have member := List.mem_of_getElem? at_index
    simp only [World.init, List.mem_cons, List.not_mem_nil, or_false] at member
    rcases member with rfl | rfl | rfl <;> simp [Role.StartsOrStops, Thread.start] at command

/-- Who takes a token that a START or STOP handler waits for: another handler of these commands, or
    the planner whose token it is, from STOP. -/
theorem taker_cases (follows : thread.Follows planning) {semaphore : Semaphore} {role : Role}
    (command : role.StartsOrStops) (awaited : .wait semaphore ∈ role.planningOps)
    (nextOp : thread.nextOp = some (.wait semaphore)) :
    thread.role.StartsOrStops ∨ role = .console (some .stopPlanning) ∧
      ∃ planner : Planner, thread.role = planner.role ∧ semaphore = planner.semaphore := by
  have member := (Planner.next_planned follows nextOp (command.isPlanning awaited)).mem List.mem_cons_self
  unfold Role.planningOps at member
  split at member
  · rename_i longTerm
    obtain rfl : semaphore = .longTermPlanner := by simpa [Operation.anonymous] using member
    rcases command with rfl | rfl
    · simp [Role.planningOps] at awaited
    · exact .inr ⟨rfl, .longTerm, longTerm, rfl⟩
  · rename_i shortTerm
    obtain rfl : semaphore = .shortTermPlanner := by simpa [Operation.anonymous] using member
    rcases command with rfl | rfl
    · simp [Role.planningOps] at awaited
    · exact .inr ⟨rfl, .shortTerm, shortTerm, rfl⟩
  · exact .inl (.inl ‹_›)
  · exact .inl (.inr ‹_›)
  · cases member

/-- An operation takes no token that the console still waits for, if no planner begins an iteration
    during STOP. -/
theorem Served.ready_advance (served : world.Served) {op : Operation} {after : Memory}
    {old : Thread Role Operation Memory} {rest : Code Unit} {semaphore : Semaphore}
    (yield : world.PlannersYield (.advance index))
    (at_old : world.pool.threads[index]? = some old) (nextOp : old.nextOp = some op)
    (performed : op.perform config world.memory = some after)
    (at_other : (world.pool.threads.set index
      { old with performed := op :: old.performed, rest := rest })[other]? = some thread)
    (command : thread.role.StartsOrStops) (awaited : .wait semaphore ∈ thread.role.planningOps)
    (notYet : .wait semaphore ∉ thread.performed) : 0 < after.sem semaphore := by
  have follows := served.single.planned.follows old (List.mem_of_getElem? at_old)
  have notInit : ∀ value, op ≠ .init semaphore value := by
    rintro value rfl
    have relevant : (Operation.wait semaphore).isPlanning = true := command.isPlanning awaited
    exact Planner.next_not_init follows relevant nextOp
  by_cases here : index = other
  · subst here
    obtain ⟨inside, _⟩ := List.getElem?_eq_some_iff.mp at_old
    rw [List.getElem?_set_self inside] at at_other
    obtain rfl := Option.some.inj at_other
    obtain ⟨notNow, notBefore⟩ := not_or.mp (mt List.mem_cons.mpr notYet)
    have kept := Operation.sem_le_perform notInit (Ne.symm notNow) performed
    exact lt_of_lt_of_le (served.ready index old semaphore at_old command awaited notBefore) kept
  · rw [List.getElem?_set_ne here] at at_other
    have notWait : op ≠ .wait semaphore := by
      rintro rfl
      rcases taker_cases follows command awaited nextOp with handler | ⟨stop, planner, begins, rfl⟩
      · exact here (served.single.sole index other _ _ at_old at_other handler.waiting_eq
          command.waiting_eq)
      · have noStop := yield planner (by simp [roleAt, at_old, begins])
          (by simp [Pool.nextOp, at_old, nextOp])
        have idle := noStop thread (List.mem_of_getElem? at_other) stop
        rw [served.single.performed_of_idle at_other command idle] at notYet
        exact notYet awaited
    have kept := Operation.sem_le_perform notInit notWait performed
    exact lt_of_lt_of_le (served.ready other thread semaphore at_other command awaited notYet) kept

theorem Served.step (served : world.Served)
    (guarded : world.SingleConsole event ∧ world.PlannersYield event)
    (stepped : world.step config event = some next) : next.Served where
  single := served.single.step guarded.1 stepped
  ready other thread semaphore at_other command awaited notYet := by
    have step := World.poolStep stepped
    unfold World.memory
    generalize next.pool = pool at step at_other ⊢
    cases step with
    | advance advanced =>
        obtain ⟨old, op, rest, after, at_old, program, performed, rfl⟩ :=
          Pool.advance_cases advanced
        have nextOp := Thread.nextOp_of_rest program
        exact served.ready_advance guarded.2 at_old nextOp performed at_other command awaited notYet
    | @restart _ index old role starts at_old _ _ =>
        by_cases here : index = other
        · subst here
          obtain ⟨inside, _⟩ := List.getElem?_eq_some_iff.mp at_old
          rw [List.getElem?_set_self inside] at at_other
          obtain rfl := Option.some.inj at_other
          cases event with
          | command index request =>
              rcases command with start | stop
              · obtain rfl : role = .console (some .startPlanning) := start
                obtain rfl : .startPlanning = request := starts
                obtain rfl : semaphore = .mutexStoppingPlanner := by
                  simpa [Thread.start, Role.planningOps] using awaited
                exact guarded.2
              · obtain rfl : role = .console (some .stopPlanning) := stop
                obtain rfl : .stopPlanning = request := starts
                have both : semaphore = .longTermPlanner ∨ semaphore = .shortTermPlanner := by
                  simpa [Thread.start, Role.planningOps] using awaited
                rcases both with rfl | rfl
                · exact guarded.2 .longTerm
                · exact guarded.2 .shortTerm
          | _ => rcases command with start | stop <;> simp_all [WorldEvent.Starts, Thread.start]
        · rw [List.getElem?_set_ne here] at at_other
          exact served.ready other thread semaphore at_other command awaited notYet
    | spawn _ new same =>
        rcases Pool.getElem?_of_spawn at_other with before | ⟨_, rfl⟩
        · have sameSem := congrFun same.sem semaphore
          exact lt_of_lt_of_eq (served.ready other thread semaphore before command awaited notYet)
            sameSem.symm
        · rcases new with rfl | ⟨_, _, rfl⟩ <;> simp [Role.StartsOrStops, Thread.start] at command
    | environment same =>
        have sameSem := congrFun same.sem semaphore
        exact lt_of_lt_of_eq (served.ready other thread semaphore at_other command awaited notYet)
          sameSem.symm

end World

/-- With a single console, START_PLANNING and STOP_PLANNING never block while no other thread can take
    a step, if START finds planning stopped and STOP finds planners that yield. -/
theorem console_never_wedged (config : KernelConfig) (events : List WorldEvent)
    (meets : Meets (World.step config)
      (fun world event => world.SingleConsole event ∧ world.PlannersYield event)
      (World.init config) events) :
    Throughout (World.step config) (fun world => ¬ world.Wedged config) (World.init config)
      events := by
  have served := throughout_of_guarded_run World.Served.step (World.served_init config) meets
  apply served.imp
  rintro world served wedged
  obtain ⟨index, role, at_role, command, blocked⟩ := wedged.console
  exact served.not_blocked at_role command blocked

/-- Planning is started, a process is created while it is stopped again, and planning is started for
    a second time. -/
def startStopStart : List WorldEvent :=
  [.connect, .command 3 .startPlanning, .advance 3, .advance 3, .advance 3,
    .command 3 .stopPlanning, .advance 3, .advance 3, .advance 3,
    .command 3 (.createProcess "DEADLOCK_A" 0 5)] ++ List.replicate 11 (.advance 3) ++
    [.command 3 .startPlanning, .advance 3, .advance 3, .advance 3] ++ List.replicate 8 (.advance 0)

theorem console_never_wedged_startStopStart :
    (run (World.step fifoConfig) (World.init fifoConfig) startStopStart).isSome = true ∧
      Throughout (World.step fifoConfig) (fun world => ¬ world.Wedged fifoConfig)
        (World.init fifoConfig) startStopStart :=
  ⟨by decide, console_never_wedged fifoConfig startStopStart (by decide)⟩

/-- Planning is started twice; in between both planners have come to wait for a process. -/
def startTwice : List WorldEvent :=
  [.connect, .command 3 .startPlanning, .advance 3, .advance 3, .advance 3,
    .advance 0, .advance 0, .advance 1, .command 3 .startPlanning]

/-- After the second START nothing can happen any more but that another console connects. -/
theorem console_wedged_startTwice :
    ∃ world, run (World.step fifoConfig) (World.init fifoConfig) startTwice = some world ∧
      Meets (World.step fifoConfig) World.SingleConsole (World.init fifoConfig) startTwice ∧
      world.Wedged fifoConfig ∧
      ∀ event, event ≠ .connect → world.step fifoConfig event = none := by
  have silent : ∀ world, run (World.step fifoConfig) (World.init fifoConfig) startTwice = some world →
      ∀ event, event ≠ .connect → world.step fifoConfig event = none := by
    intro world reaches event notConnect
    obtain rfl := Option.some.inj reaches
    cases event with
    | connect => contradiction
    | advance index | iterate index | receive index | command index request =>
        match index with
        | 0 | 1 | 2 | 3 | _ + 4 => rfl
    | startSleeper | cpuReadInterrupt => rfl
    | cpuExecute request cpuRegister programCounter => rfl
  refine ⟨_, rfl, by decide, ⟨⟨3, _, rfl, .inl rfl, _, rfl, rfl⟩, ?_⟩, silent _ rfl⟩
  intro event kernelStep
  apply silent _ rfl
  rintro rfl
  exact kernelStep

/-! ### Commands that never return -/

namespace World

variable {config : KernelConfig} {world next : World} {event : WorldEvent} {index other : Nat}
  {thread : Thread Role Operation Memory}

/-- The only console is inside a START that waits for `mutex_stopping_planner`, which is zero, or inside
    a STOP that waits for planners that are stopped. -/
structure Forsaken (index : Nat) (world : World) : Prop where
  single : world.Single
  handler : ∃ thread, world.pool.threads[index]? = some thread ∧
    (thread.role = .console (some .startPlanning) ∧
        .wait .mutexStoppingPlanner ∉ thread.performed ∧ world.memory.sem .mutexStoppingPlanner = 0 ∨
      thread.role = .console (some .stopPlanning) ∧
        .wait .shortTermPlanner ∉ thread.performed ∧ world.Stopped)

/-- The handler of a forsaken console is not through. -/
theorem Forsaken.not_idle (forsaken : world.Forsaken index)
    (at_index : world.pool.threads[index]? = some thread) : ¬ thread.Idle := by
  intro idle
  obtain ⟨handler, at_handler, start | stop⟩ := forsaken.handler
  all_goals
    rw [at_handler] at at_index
    obtain rfl := Option.some.inj at_index
  · have done := forsaken.single.performed_of_idle at_handler (.inl start.1) idle
    rw [done, start.1] at start
    simp [Role.planningOps] at start
  · have done := forsaken.single.performed_of_idle at_handler (.inr stop.1) idle
    rw [done, stop.1] at stop
    simp [Role.planningOps] at stop

/-- A handler that waits for a token that is not there performs at most the `sem_post` of STOP. -/
theorem Forsaken.advance_self (forsaken : world.Forsaken index) {op : Operation} {after : Memory}
    (at_index : world.pool.threads[index]? = some thread) (nextOp : thread.nextOp = some op)
    (performed : op.perform config world.memory = some after) :
    thread.role = .console (some .stopPlanning) ∧ op = .post .mutexStoppingPlanner ∧
      .wait .shortTermPlanner ∉ thread.performed := by
  obtain ⟨handler, at_handler, start | stop⟩ := forsaken.handler
  all_goals
    rw [at_handler] at at_index
    obtain rfl := Option.some.inj at_index
  · obtain ⟨start, notYet, zero⟩ := start
    have planned := forsaken.single.next_performed at_handler (.inl start) nextOp
    rw [start] at planned
    simp only [Role.planningOps, List.suffix_cons_iff, List.suffix_nil, List.cons.injEq,
      reduceCtorEq, or_false] at planned
    rcases planned with ⟨_, before⟩ | ⟨_, before⟩ | ⟨rfl, _⟩
    · simp [before] at notYet
    · simp [before] at notYet
    · simp [Operation.perform, zero] at performed
  · obtain ⟨stop, notYet, stopped⟩ := stop
    have planned := forsaken.single.next_performed at_handler (.inr stop) nextOp
    rw [stop] at planned
    simp only [Role.planningOps, List.suffix_cons_iff, List.suffix_nil, List.cons.injEq,
      reduceCtorEq, or_false] at planned
    rcases planned with ⟨_, before⟩ | ⟨rfl, _⟩ | ⟨rfl, _⟩
    · simp [before] at notYet
    · have zero : world.memory.sem .shortTermPlanner = 0 := (stopped.parked .shortTerm).1
      simp [Operation.perform, zero] at performed
    · exact ⟨stop, rfl, notYet⟩

/-- No other thread posts the token that START waits for. -/
theorem Forsaken.zero_advance (single : world.Single) {op : Operation} {after : Memory}
    {old : Thread Role Operation Memory} (at_index : world.pool.threads[index]? = some thread)
    (start : thread.role = .console (some .startPlanning))
    (zero : world.memory.sem .mutexStoppingPlanner = 0) (different : other ≠ index)
    (at_other : world.pool.threads[other]? = some old) (nextOp : old.nextOp = some op)
    (performed : op.perform config world.memory = some after) :
    after.sem .mutexStoppingPlanner = 0 := by
  have follows := single.planned.follows old (List.mem_of_getElem? at_other)
  have notInit : ∀ value, op ≠ .init .mutexStoppingPlanner value := by
    rintro value rfl
    exact Planner.next_not_init follows rfl nextOp
  have notPost : op ≠ .post .mutexStoppingPlanner := by
    rintro rfl
    have member := (Planner.next_planned follows nextOp rfl).mem List.mem_cons_self
    have stops : old.role = .console (some .stopPlanning) := by
      unfold Role.planningOps at member
      split at member <;> simp_all [Operation.anonymous]
    exact different (single.sole other index _ _ at_other at_index (by rw [stops]; rfl)
      (by rw [start]; rfl))
  have lost := Operation.sem_perform .mutexStoppingPlanner notInit performed
  have nonneg := Operation.takes_nonneg notPost
  omega

/-- A forsaken console is sent no command. -/
theorem Forsaken.no_command (forsaken : world.Forsaken index) {request : Command} :
    world.step config (.command other request) = none := by
  rw [Option.eq_none_iff_forall_ne_some]
  intro next stepped
  simp only [World.step, World.command] at stepped
  split at stepped
  · rename_i command at_role
    obtain ⟨pool, restarted, rfl⟩ := Option.map_eq_some_iff.mp stepped
    obtain ⟨thread, at_other, idle, rfl⟩ := Pool.restart_cases restarted
    rw [roleAt, at_other, Option.map_some, Option.some_inj] at at_role
    have console : thread.role.waiting = .console none := by rw [at_role]; rfl
    obtain ⟨handler, at_index, roles⟩ := forsaken.handler
    have handlerConsole : handler.role.waiting = .console none := by
      rcases roles with ⟨start, _⟩ | ⟨stop, _⟩
      · rw [start]
        rfl
      · rw [stop]
        rfl
    obtain rfl := forsaken.single.sole other index _ _ at_other at_index console handlerConsole
    exact forsaken.not_idle at_other idle
  · cases stepped

theorem Forsaken.step (forsaken : world.Forsaken index) (one : world.SingleConsole event)
    (stepped : world.step config event = some next) : next.Forsaken index where
  single := forsaken.single.step one stepped
  handler := by
    have noStart : ∀ other, event ≠ .command other .startPlanning := by
      rintro other rfl
      rw [forsaken.no_command] at stepped
      cases stepped
    have stays : ∀ stopped : world.Stopped, next.Stopped := fun stopped =>
      stopped.step noStart stepped
    obtain ⟨handler, at_index, roles⟩ := forsaken.handler
    have step := World.poolStep stepped
    generalize pool_eq : next.pool = pool at step
    have memory_eq : next.memory = pool.state := congrArg Pool.state pool_eq
    rw [memory_eq]
    cases step with
    | @advance other _ advanced =>
        obtain ⟨old, op, rest, after, at_old, program, performed, rfl⟩ :=
          Pool.advance_cases advanced
        have nextOp := Thread.nextOp_of_rest program
        by_cases here : other = index
        · subst here
          obtain ⟨stop, rfl, notYet⟩ := forsaken.advance_self at_old nextOp performed
          obtain ⟨inside, _⟩ := List.getElem?_eq_some_iff.mp at_old
          refine ⟨_, List.getElem?_set_self inside, .inr ⟨stop, by simp [notYet], ?_⟩⟩
          rw [at_old] at at_index
          obtain rfl := Option.some.inj at_index
          rcases roles with ⟨start, _⟩ | ⟨_, _, stopped⟩
          · rw [stop] at start
            cases start
          · exact stays stopped
        · refine ⟨handler, (List.getElem?_set_ne here).trans at_index, ?_⟩
          apply roles.imp
          · rintro ⟨start, notYet, zero⟩
            exact ⟨start, notYet, Forsaken.zero_advance forsaken.single at_index start zero here at_old
              nextOp performed⟩
          · rintro ⟨stop, notYet, stopped⟩
            exact ⟨stop, notYet, stays stopped⟩
    | @restart _ other old _ _ at_old idle _ =>
        have here : other ≠ index := by
          rintro rfl
          exact forsaken.not_idle at_old idle
        refine ⟨handler, (List.getElem?_set_ne here).trans at_index, ?_⟩
        apply roles.imp id
        rintro ⟨stop, notYet, stopped⟩
        exact ⟨stop, notYet, stays stopped⟩
    | spawn _ _ same =>
        obtain ⟨inside, _⟩ := List.getElem?_eq_some_iff.mp at_index
        refine ⟨handler, (List.getElem?_append_left inside).trans at_index, ?_⟩
        apply roles.imp
        · rintro ⟨start, notYet, zero⟩
          exact ⟨start, notYet, (congrFun same.sem _).trans zero⟩
        · rintro ⟨stop, notYet, stopped⟩
          exact ⟨stop, notYet, stays stopped⟩
    | environment same =>
        refine ⟨handler, at_index, ?_⟩
        apply roles.imp
        · rintro ⟨start, notYet, zero⟩
          exact ⟨start, notYet, (congrFun same.sem _).trans zero⟩
        · rintro ⟨stop, notYet, stopped⟩
          exact ⟨stop, notYet, stays stopped⟩

/-- The command waits for planning to be as it already is. -/
def Useless (world : World) (request : Command) : Prop :=
  request = .startPlanning ∧ world.memory.sem .mutexStoppingPlanner = 0 ∨
    request = .stopPlanning ∧ world.memory.sem .mutexStoppingPlanner = 1

/-- A useless command leaves its console forsaken. -/
theorem Single.forsaken (single : world.Single) {request : Command} (useless : world.Useless request)
    (stepped : world.step config (.command index request) = some next) : next.Forsaken index := by
  have moved := stepped
  simp only [World.step, World.command] at moved
  split at moved
  · rename_i command at_role
    obtain ⟨pool, restarted, rfl⟩ := Option.map_eq_some_iff.mp moved
    obtain ⟨thread, at_index, idle, rfl⟩ := Pool.restart_cases restarted
    have console : thread.role.waiting = .console none := by
      rw [roleAt, at_index, Option.map_some, Option.some_inj] at at_role
      rw [at_role]
      rfl
    have noneInProgress : world.NoneInProgress := by
      intro other member commands
      obtain ⟨position, at_position⟩ := List.mem_iff_getElem?.mp member
      obtain rfl := single.sole position index _ _ at_position at_index
        (Role.StartsOrStops.waiting_eq commands) console
      rw [at_index] at at_position
      obtain rfl := Option.some.inj at_position
      exact idle
    obtain ⟨inside, _⟩ := List.getElem?_eq_some_iff.mp at_index
    refine ⟨single.step ?_ stepped, _, List.getElem?_set_self inside, ?_⟩
    · rcases useless with ⟨rfl, _⟩ | ⟨rfl, _⟩ <;> rfl
    · rcases useless with ⟨rfl, zero⟩ | ⟨rfl, one⟩
      · exact .inl ⟨rfl, List.not_mem_nil, zero⟩
      · have stopped : world.Stopped :=
          ⟨single.planned, single.planned.parked noneInProgress one,
            fun thread member start => noneInProgress thread member (.inl start)⟩
        exact .inr ⟨rfl, List.not_mem_nil, stopped.step (by simp) stepped⟩
  · cases moved

end World

/-- A START while planning is on, and a STOP while it is off, never return: whatever happens later,
    the only console's handler is still inside. -/
theorem useless_command_never_returns {config : KernelConfig} {events later : List WorldEvent}
    {index : Nat} {request : Command} {world next final : World}
    (one : Meets (World.step config) World.SingleConsole (World.init config)
      (events ++ .command index request :: later))
    (reaches : run (World.step config) (World.init config) events = some world)
    (useless : world.Useless request)
    (commanded : world.step config (.command index request) = some next)
    (ends : run (World.step config) next later = some final) :
    ∃ thread, final.pool.threads[index]? = some thread ∧ ¬ thread.Idle := by
  obtain ⟨oneBefore, oneAfter⟩ := one.append reaches
  have single := invariant_of_guarded_run World.Single World.Single.step (World.single_init config)
    oneBefore reaches
  simp only [Meets, commanded] at oneAfter
  have forsaken := invariant_of_guarded_run (World.Forsaken index) World.Forsaken.step
    (single.forsaken useless commanded) oneAfter.2 ends
  obtain ⟨thread, at_index, _⟩ := forsaken.handler
  exact ⟨thread, at_index, forsaken.not_idle at_index⟩

end OsSimulator
