/-
Module: OsSimulator.Proofs.CpuTurns
Purpose: When the CPU has one process at a time, whatever the threads of the kernel are interleaved with.
  The CPU's one token is at `sem_cpu_available`, with the short-term planner until it sends, with the
  CPU, or with the dispatch handler until it posts or answers; only the `finish_process` of a console
  posts a token that it was not given.
Main exports: World.CpuHolds, World.CpuExclusive, World.SendsToFreeCpu, World.SparesCpu,
  run_cpu_exclusive, run_sends_to_busy_cpu
-/
import OsSimulator.Concurrent.FramedWorld
import OsSimulator.Lib.Budgets
import OsSimulator.Proofs.Grants
import OsSimulator.Proofs.QueueTokens

namespace OsSimulator

open Threads Transition

/-- The operation gives the CPU away, or back. -/
def Operation.endsTurn : Operation → Bool
  | .post semaphore | .init semaphore _ => semaphore = .cpuAvailable
  | .sendToCpu .. => true
  | _ => false

/-- The thread handles a message of the CPU, and has neither answered it nor given the CPU back. -/
def HandlesTurn (thread : Thread Role Operation Memory) : Prop :=
  (∃ message, thread.role = .dispatchHandler (some message)) ∧ ¬ thread.Idle ∧
    ∀ op ∈ thread.performed, op.endsTurn = false

/-- What a thread has in hand of the CPU: the short-term planner the token it has taken, until it sends a
    process; the dispatch handler the turn that its message has ended, until it answers or gives the CPU
    back.  A console that gives the CPU back takes that from nobody. -/
def cpuBudget : Budget Role Operation where
  initial
    | .dispatchHandler (some _) => 1
    | _ => 0
  gain role
    | .wait semaphore => if semaphore = .cpuAvailable then 1 else 0
    | .post semaphore =>
        if semaphore = .cpuAvailable then
          match role with
          | .console _ => 0
          | _ => -1
        else
          0
    | .init semaphore value => if semaphore = .cpuAvailable then -value else 0
    -- no message pays for an EXECUTE_PROCESS
    | .sendToCpu header _ => if header = .executeProcess ∧ role ≠ .shortTermPlanner then -2 else -1
    | _ => 0

namespace World

/-- The CPU holds a process: one that was sent to it and that it has not answered, or one that it has
    sent back in a message which the kernel has not handled so far that the turn is over. -/
def CpuHolds (world : World) : Prop :=
  world.memory.cpuDispatchConnection ≠ [] ∨ world.cpuMessages ≠ [] ∨
    ∃ thread ∈ world.pool.threads, HandlesTurn thread

/-- `sem_cpu_available` never exceeds 1, and is 0 while the CPU holds a process. -/
def CpuExclusive (world : World) : Prop :=
  world.memory.sem .cpuAvailable ≤ 1 ∧ (world.CpuHolds → world.memory.sem .cpuAvailable = 0)

/-- If the step sends `EXECUTE_PROCESS`, the CPU holds no process. -/
def SendsToFreeCpu (world : World) : WorldEvent → Prop
  | .advance index =>
      ∀ process, world.pool.nextOp index = some (.sendToCpu .executeProcess process) → ¬ world.CpuHolds
  | _ => True

/-- The token of the CPU wherever it is: at its semaphore, on the way to the CPU, with it, on the way
    back, or in the hand of a thread. -/
def cpuTokens (world : World) : Int :=
  world.memory.sem .cpuAvailable + world.memory.cpuDispatchConnection.length +
    world.cpuMessages.length + world.pool.total (Thread.inHand cpuBudget)

/-- When a console gives the CPU back, nobody else has the CPU's token, and it is not at the semaphore. -/
def SparesCpu (world : World) : WorldEvent → Prop
  | .advance index =>
      ∀ command, world.roleAt index = some (.console command) →
        world.pool.nextOp index = some (.post .cpuAvailable) → world.cpuTokens = 0
  | _ => True

end World

instance (world : World) : ∀ event, Decidable (world.SparesCpu event)
  | .advance index =>
      match role : world.roleAt index with
      | some (.console command) =>
          decidable_of_iff (world.pool.nextOp index = some (.post .cpuAvailable) →
              world.cpuTokens = 0)
            (by simp [World.SparesCpu, role])
      | none | some .longTermPlanner | some .shortTermPlanner | some (.dispatchHandler _)
      | some (.sleeper ..) => isTrue (by simp [World.SparesCpu, role])
  | .iterate _ | .connect | .command .. | .receive _ | .startSleeper | .cpuExecute ..
  | .cpuReadInterrupt => isTrue trivial

/-! ### Every program affords its operations -/

/-- What grants nothing is free. -/
theorem cpuBudget_free {role : Role} {op : Operation} (free : op.NoGrant) :
    cpuBudget.gain role op = 0 := by
  cases op <;> simp_all [cpuBudget]

namespace Code

variable {α β : Type} {role : Role} {tokens : Int}

theorem NoGrant.cpuFree {code : Code α} (free : code.NoGrant) :
    code.Every fun op => cpuBudget.gain role op = 0 :=
  Program.Every.imp (fun _ => cpuBudget_free) free

/-- Code that grants nothing can be skipped. -/
theorem cpuAffords_skip {code : Code α} {rest : α → Code β} {ending : Int → β → Prop}
    (free : code.NoGrant) (nonneg : 0 ≤ tokens)
    (later : ∀ result, (rest result).Affords (cpuBudget.gain role) ending tokens) :
    (code >>= rest).Affords (cpuBudget.gain role) ending tokens :=
  Program.Every.affords_bind free.cpuFree nonneg later

theorem NoGrant.cpuAffords {code : Code α} (free : code.NoGrant) (nonneg : 0 ≤ tokens) :
    code.Affords (cpuBudget.gain role) (fun _ _ => True) tokens :=
  Program.Every.affords free.cpuFree nonneg fun _ => trivial

theorem cpuAffords_look {value : Memory → α} {rest : α → Code β} {ending : Int → β → Prop}
    (nonneg : 0 ≤ tokens)
    (later : ∀ result, (rest result).Affords (cpuBudget.gain role) ending tokens) :
    (look value >>= rest).Affords (cpuBudget.gain role) ending tokens :=
  cpuAffords_skip ⟨rfl, fun _ => trivial⟩ nonneg later

/-- The one token is spent, and the rest is free. -/
theorem cpuAffords_pay {op : Operation} {rest : Unit → Code β} (pays : cpuBudget.gain role op = -1)
    (free : (rest ()).NoGrant) :
    (Program.perform op >>= rest).Affords (cpuBudget.gain role) (fun _ _ => True) 1 := by
  have left : 1 + cpuBudget.gain role op = 0 := by rw [pays]; rfl
  rw [Program.affords_bind, Program.affords_perform, left]
  exact ⟨le_refl 0, NoGrant.cpuAffords free (le_refl 0)⟩

/-- Whoever finishes a process gives the CPU back once: a console for nothing, the dispatch handler with
    what the message has brought. -/
theorem cpuAffords_finishProcess (nonneg : 0 ≤ tokens)
    (pays : 0 ≤ tokens + cpuBudget.gain role (.post .cpuAvailable)) (pid : UInt32) :
    (finishProcess pid).Affords (cpuBudget.gain role) (fun _ _ => True) tokens := by
  apply cpuAffords_skip noGrant_buildAllQueuesInList nonneg
  intro queues
  apply cpuAffords_skip (noGrant_searchQueues pid queues) nonneg
  intro found
  cases found with
  | none => trivial
  | some place =>
      have free : NoGrant (Program.observe (.readState place.2)
          fun memory => (memory.pcb place.2).state) := ⟨rfl, fun _ => trivial⟩
      apply cpuAffords_skip free nonneg
      intro previousState
      apply cpuAffords_skip (by simp) nonneg
      intro _
      apply cpuAffords_skip (noGrant_freeResourcesRetained _) nonneg
      intro _
      apply cpuAffords_skip (noGrant_removeLocked _ _) nonneg
      intro _
      apply cpuAffords_skip noGrant_checkProcessInBlockedAndSendToReady nonneg
      intro _
      apply cpuAffords_skip (noGrant_sendPcbToMemory _ _) nonneg
      intro _
      have degree : cpuBudget.gain role (.post .multiprogrammingDegree) = 0 := rfl
      have ready : cpuBudget.gain role (.wait .processReady) = 0 := rfl
      have blocked : cpuBudget.gain role (.wait .processBlocked) = 0 := rfl
      have new : cpuBudget.gain role (.wait .processNew) = 0 := rfl
      cases previousState <;>
        simp [updateQueueSemaphores, semWait, semPost, degree, ready, blocked, new, nonneg, pays]

/-- The planner sends one process for the token it has taken. -/
theorem cpuAffords_moveProcessToExec {rest : Unit → Code Unit} (free : ∀ result, (rest result).NoGrant) :
    (moveProcessToExec >>= rest).Affords (cpuBudget.gain .shortTermPlanner) (fun _ _ => True) 1 := by
  rw [Program.affords_bind]
  apply cpuAffords_skip (noGrant_popLocked (by decide)) (by decide)
  intro element
  apply cpuAffords_skip (noGrant_dereference element) (by decide)
  intro process
  apply cpuAffords_skip (by simp) (by decide)
  intro _
  apply cpuAffords_skip (noGrant_pushLocked .exec process) (by decide)
  intro _
  apply cpuAffords_skip (noGrant_semWait rfl) (by decide)
  intro _
  have left : 1 + cpuBudget.gain .shortTermPlanner (.sendToCpu .executeProcess process) = 0 := rfl
  rw [Program.affords_bind, Program.affords_perform, left]
  refine ⟨le_refl 0, ?_⟩
  refine Program.Every.affords (NoGrant.cpuFree (noGrant_semPost rfl)) (le_refl 0) fun result => ?_
  exact NoGrant.cpuAffords (free result) (le_refl 0)

/-- All three planners wait for the CPU and then dispatch. -/
theorem cpuAffords_shortTermIteration {rest : Unit → Code Unit}
    (later : (rest ()).Affords (cpuBudget.gain .shortTermPlanner) (fun _ _ => True) 1) :
    (semWait .shortTermPlanner >>= fun _ => semWait .processReady >>= fun _ =>
      semWait .cpuAvailable >>= rest).Affords (cpuBudget.gain .shortTermPlanner) (fun _ _ => True)
        0 := by
  apply cpuAffords_skip (noGrant_semWait rfl) (le_refl 0)
  intro _
  apply cpuAffords_skip (noGrant_semWait rfl) (le_refl 0)
  intro _
  rw [Program.affords_bind, semWait, Program.affords_perform]
  exact ⟨by decide, later⟩

theorem cpuAffords_shortTermPlanner (config : KernelConfig) :
    (shortTermPlanner config).Affords (cpuBudget.gain .shortTermPlanner) (fun _ _ => True) 0 := by
  rcases shortTermPlanner_cases config with fifo | roundRobin | priorities | unknown
  · rw [fifo]
    apply cpuAffords_shortTermIteration
    apply cpuAffords_skip (noGrant_semWait rfl) (by decide)
    intro _
    apply cpuAffords_moveProcessToExec
    simp [semPost]
  · rw [roundRobin]
    apply cpuAffords_shortTermIteration
    apply cpuAffords_skip (noGrant_semWait rfl) (by decide)
    intro _
    apply cpuAffords_moveProcessToExec
    simp [semWait, semPost]
  · rw [priorities]
    apply cpuAffords_shortTermIteration
    apply cpuAffords_skip noGrant_sortQueue (by decide)
    intro _
    apply cpuAffords_skip (noGrant_semWait rfl) (by decide)
    intro _
    apply cpuAffords_moveProcessToExec
    simp [semPost]
  · rw [unknown]
    trivial

/-- The planner of the long term has nothing to do with the CPU. -/
theorem cpuAffords_longTermPlanner :
    longTermPlanner.Affords (cpuBudget.gain .longTermPlanner) (fun _ _ => True) 0 := by
  apply cpuAffords_skip (noGrant_semWait rfl) (le_refl 0)
  intro _
  have degree : Program.Every (fun op => cpuBudget.gain .longTermPlanner op = 0)
      (semWait .multiprogrammingDegree) := ⟨rfl, fun _ => trivial⟩
  apply Program.Every.affords_bind degree (le_refl 0)
  intro _
  apply cpuAffords_skip (noGrant_semWait rfl) (le_refl 0)
  intro _
  have popped : Program.Every (fun op => cpuBudget.gain .longTermPlanner op = 0) (popLocked .new) := by
    simp [popLocked, semWait, semPost, QueueId.mutex, cpuBudget]
  have moved : Program.Every (fun op => cpuBudget.gain .longTermPlanner op = 0) moveProcessToReady := by
    apply Program.Every.bind popped
    intro element
    apply Program.Every.bind (NoGrant.cpuFree (noGrant_dereference element))
    intro process
    exact NoGrant.cpuFree (by simp)
  apply Program.Every.affords_bind moved (le_refl 0)
  intro _
  exact NoGrant.cpuAffords (by simp [semPost]) (le_refl 0)

/-- Each message is answered once, or gives the CPU back once. -/
theorem cpuAffords_handleDispatchConnection (message : Message) :
    (handleDispatchConnection message).Affords
      (cpuBudget.gain (.dispatchHandler (some message))) (fun _ _ => True) 1 := by
  apply cpuAffords_skip (noGrant_semWait rfl) (by decide)
  intro _
  apply cpuAffords_skip (noGrant_semPost rfl) (by decide)
  intro _
  have allocates : (allocate message.pcb).NoGrant := by simp [allocate]
  apply cpuAffords_skip allocates (by decide)
  intro process
  have finishes (pid : UInt32) : (finishProcess pid).Affords
      (cpuBudget.gain (.dispatchHandler (some message))) (fun _ _ => True) 1 :=
    cpuAffords_finishProcess (by decide) (le_refl 0) pid
  cases message.request with
  | finish => exact finishes _
  | interrupt =>
      apply cpuAffords_skip (noGrant_popLocked (by decide)) (by decide)
      intro _
      exact cpuAffords_pay rfl (by simp [semPost])
  | wait resource =>
      apply cpuAffords_look (by decide)
      intro valid
      split
      · apply cpuAffords_look (by decide)
        intro available
        split
        · simp [cpuBudget]
        · apply cpuAffords_look (by decide)
          intro index
          apply cpuAffords_skip (noGrant_popLocked (by decide)) (by decide)
          intro element
          apply cpuAffords_skip (noGrant_dereference element) (by decide)
          intro blocked
          exact cpuAffords_pay rfl (by simp [semPost])
      · apply cpuAffords_look (by decide)
        exact finishes
  | signal resource =>
      apply cpuAffords_look (by decide)
      intro valid
      split
      · apply cpuAffords_look (by decide)
        intro held
        split
        · simp [cpuBudget]
        · apply cpuAffords_look (by decide)
          exact finishes
      · apply cpuAffords_look (by decide)
        exact finishes
  | sleep time => simp [handleSleepInterruption, semPost, cpuBudget]

/-- A console has no token of the CPU, and needs none. -/
theorem cpuAffords_handlerConnection (command : Command) :
    (handlerConnection command).Affords (cpuBudget.gain (.console (some command)))
      (fun _ _ => True) 0 := by
  cases command with
  | createProcess path quantum clientSocket =>
      apply cpuAffords_skip (noGrant_receivePcbAndCreate path quantum clientSocket) (le_refl 0)
      intro process
      exact NoGrant.cpuAffords (noGrant_moveProcessToNew process) (le_refl 0)
  | finishProcess pid => exact cpuAffords_finishProcess (le_refl 0) (le_refl 0) pid
  | startPlanning | stopPlanning =>
      exact NoGrant.cpuAffords (by simp [handlerConnection, semWait, semPost]) (le_refl 0)
  | modifyMultiprogrammingDegree newDegree =>
      rw [handlerConnection, modifyMultiprogrammingDegree]
      split
      · simp [cpuBudget]
      · trivial
  | showAllProcesses =>
      apply cpuAffords_skip noGrant_buildAllQueuesInList (le_refl 0)
      intro queues
      trivial

end Code

/-- Every program affords its operations with what its thread has when it starts. -/
theorem cpuBudget_programs (config : KernelConfig) (role : Role) :
    0 ≤ cpuBudget.initial role ∧ (role.code config).Affords (cpuBudget.gain role)
      (fun _ _ => True) (cpuBudget.initial role) := by
  cases role with
  | longTermPlanner => exact ⟨le_refl 0, Code.cpuAffords_longTermPlanner⟩
  | shortTermPlanner => exact ⟨le_refl 0, Code.cpuAffords_shortTermPlanner config⟩
  | dispatchHandler message =>
      cases message with
      | none => exact ⟨le_refl 0, trivial⟩
      | some message => exact ⟨zero_le_one, Code.cpuAffords_handleDispatchConnection message⟩
  | console command =>
      cases command with
      | none => exact ⟨le_refl 0, trivial⟩
      | some command => exact ⟨le_refl 0, Code.cpuAffords_handlerConnection command⟩
  | sleeper process sleepTime =>
      exact ⟨le_refl 0,
        Code.NoGrant.cpuAffords (Code.noGrant_threadSleepProcess process) (le_refl 0)⟩

/-! ### The books of the CPU -/

/-- What an operation gives its thread is taken from the semaphore or from the connection, unless a
    console gives the CPU back. -/
theorem Operation.cpuBudget_perform {config : KernelConfig} {op : Operation} {memory after : Memory}
    {role : Role} (performed : op.perform config memory = some after)
    (paid : ∀ command, role = .console command → op ≠ .post .cpuAvailable) :
    (after.sem .cpuAvailable : Int) + after.cpuDispatchConnection.length + cpuBudget.gain role op ≤
      memory.sem .cpuAvailable + memory.cpuDispatchConnection.length := by
  cases op with
  | wait semaphore =>
      obtain ⟨positive, result⟩ := Option.ite_none_right_eq_some.mp performed
      obtain rfl := Option.some.inj result
      by_cases cpu : semaphore = .cpuAvailable
      · subst cpu
        simp [cpuBudget, Memory.setSem]
        omega
      · simp [cpuBudget, Memory.setSem, cpu, Ne.symm cpu]
  | post semaphore =>
      obtain rfl := Option.some.inj performed
      by_cases cpu : semaphore = .cpuAvailable
      · subst cpu
        have notConsole : cpuBudget.gain role (.post .cpuAvailable) = -1 := by
          cases role with
          | console command => exact absurd rfl (paid command rfl)
          | _ => rfl
        rw [notConsole]
        simp [Memory.setSem]
        omega
      · simp [cpuBudget, Memory.setSem, cpu, Ne.symm cpu]
  | init semaphore value =>
      obtain rfl := Option.some.inj performed
      by_cases cpu : semaphore = .cpuAvailable
      · subst cpu
        simp [cpuBudget, Memory.setSem]
      · simp [cpuBudget, Memory.setSem, cpu, Ne.symm cpu]
  | sendToCpu header process =>
      obtain rfl := Option.some.inj performed
      have costs : cpuBudget.gain role (.sendToCpu header process) ≤ -1 := by
        simp only [cpuBudget]
        split <;> decide
      simp only [List.length_append, List.length_singleton]
      omega
  | push id process | pop id | remove id process =>
      obtain rfl := Option.some.inj performed
      cases id <;> exact le_of_eq (add_zero _)
  | modifyInstance resource value =>
      simp only [Operation.perform] at performed
      split at performed <;> obtain rfl := Option.some.inj performed <;> exact le_of_eq (add_zero _)
  | nullPointer => cases performed
  | read | readState process | allocate pcb | nextId | find id pid | setState process state
  | advanceCounter process | addResource process resource | removeResource process resource
  | sort | sendInterrupt | sendToMemory chunk | createThread process sleepTime =>
      obtain rfl := Option.some.inj performed
      exact le_of_eq (add_zero _)

namespace World

/-- There is at most one token of the CPU, and nobody spends what he does not have. -/
structure CpuBooks (world : World) : Prop where
  affords : world.pool.Affords cpuBudget
  tokens : world.cpuTokens ≤ 1

variable {config : KernelConfig} {world next : World} {event : WorldEvent}

theorem CpuBooks.init (config : KernelConfig) : (World.init config).CpuBooks := by
  have starts := Pool.affords_start (cpuBudget_programs config) (Memory.init config)
    [.longTermPlanner, .shortTermPlanner, .dispatchHandler none]
  refine ⟨starts.1, ?_⟩
  have total : (World.init config).pool.total (Thread.inHand cpuBudget) ≤ 0 := starts.2
  have one : (World.init config).cpuTokens =
      1 + (World.init config).pool.total (Thread.inHand cpuBudget) := rfl
  omega

/-- The step lemma: only a console can add a token, and that is what it has to spare. -/
theorem CpuBooks.step (books : world.CpuBooks) (spares : world.SparesCpu event)
    (stepped : world.step config event = some next) : next.CpuBooks := by
  have tokens := books.tokens
  have programs := cpuBudget_programs config
  cases World.step_cases stepped with
  | @advances index pool advanced =>
      obtain ⟨thread, op, at_index, nextOp, performed, affords, atMost, _⟩ :=
        books.affords.advance advanced
      refine ⟨affords, ?_⟩
      have nonneg := affords.total_nonneg
      simp only [cpuTokens, World.memory] at tokens ⊢
      by_cases paid : ∀ command, thread.role = .console command → op ≠ .post .cpuAvailable
      · have changed := Operation.cpuBudget_perform performed paid
        omega
      · simp only [not_forall, not_not, exists_prop] at paid
        obtain ⟨command, console, rfl⟩ := paid
        have role : world.roleAt index = some (.console command) := by
          rw [roleAt, at_index, Option.map_some, console]
        have next_is : world.pool.nextOp index = some (.post .cpuAvailable) := by
          rw [Pool.nextOp, at_index]
          exact nextOp
        have spare : world.cpuTokens = 0 := spares command role next_is
        simp only [cpuTokens, World.memory] at spare
        have posted : pool.state = world.pool.state.setSem .cpuAvailable
            (world.pool.state.sem .cpuAvailable + 1) := (Option.some.inj performed).symm
        have free : cpuBudget.gain thread.role (.post .cpuAvailable) = 0 := by rw [console]; rfl
        have value : pool.state.sem .cpuAvailable = world.pool.state.sem .cpuAvailable + 1 := by
          rw [posted]
          rfl
        have connection : pool.state.cpuDispatchConnection =
            world.pool.state.cpuDispatchConnection := by rw [posted]; rfl
        rw [value, connection]
        push_cast
        omega
  | @iterates index thread role at_index idle same planner =>
      obtain ⟨affords, atMost⟩ := books.affords.restart at_index (programs role).1 (programs role).2
      have nothing : cpuBudget.initial role = 0 := by rcases planner with rfl | rfl <;> rfl
      refine ⟨affords, ?_⟩
      simp only [cpuTokens, World.memory] at tokens ⊢
      omega
  | @commands index thread request old at_index idle console =>
      obtain ⟨affords, atMost⟩ := books.affords.restart at_index
        (programs (.console (some request))).1 (programs (.console (some request))).2
      have nothing : cpuBudget.initial (.console (some request)) = 0 := rfl
      refine ⟨affords, ?_⟩
      simp only [cpuTokens, World.memory] at tokens ⊢
      omega
  | @receives index thread message rest old at_index idle handler head =>
      obtain ⟨affords, atMost⟩ := books.affords.restart at_index
        (programs (.dispatchHandler (some message))).1 (programs (.dispatchHandler (some message))).2
      have one : cpuBudget.initial (.dispatchHandler (some message)) = 1 := rfl
      refine ⟨affords, ?_⟩
      simp only [cpuTokens, World.memory, head, List.length_cons] at tokens ⊢
      push_cast at tokens
      omega
  | connects =>
      obtain ⟨affords, atMost⟩ := books.affords.spawn (programs (.console none)).1
        (programs (.console none)).2
      have nothing : cpuBudget.initial (.console none) = 0 := rfl
      refine ⟨affords, le_trans (add_le_add_right (atMost.trans_eq ?_) _) tokens⟩
      rw [nothing, add_zero]
  | @startsSleeper process sleepTime rest head =>
      have same : ({ world.pool with state := { world.memory with createdThreads := rest } } :
        KernelPool).Affords cpuBudget := books.affords
      obtain ⟨affords, atMost⟩ := same.spawn (programs (.sleeper process sleepTime)).1
        (programs (.sleeper process sleepTime)).2
      have nothing : cpuBudget.initial (.sleeper process sleepTime) = 0 := rfl
      refine ⟨affords, le_trans (add_le_add_right (atMost.trans_eq ?_) _) tokens⟩
      rw [nothing, add_zero]
      rfl
  | @executes request cpuRegister programCounter header process rest head =>
      refine ⟨books.affords, ?_⟩
      simp only [cpuTokens, World.memory, head, List.length_cons, List.length_append,
        List.length_nil] at tokens ⊢
      push_cast at tokens ⊢
      change _ + _ + _ + world.pool.total (Thread.inHand cpuBudget) ≤ (1 : Int)
      omega
  | readsInterrupt => exact ⟨books.affords, tokens⟩

/-! ### What the books say -/

/-- A thread that handles a message still has the turn that the message has ended. -/
theorem one_le_inHand {thread : Thread Role Operation Memory} (handles : HandlesTurn thread) :
    1 ≤ thread.inHand cpuBudget := by
  obtain ⟨⟨message, role⟩, working, open_turn⟩ := handles
  have gains : 0 ≤ (thread.performed.map (cpuBudget.gain thread.role)).sum := by
    apply List.sum_nonneg
    intro tokens member
    obtain ⟨op, performed, rfl⟩ := List.mem_map.mp member
    have keeps := open_turn op performed
    cases op with
    | wait semaphore =>
        simp only [cpuBudget]
        split <;> decide
    | post semaphore | init semaphore value =>
        have other : semaphore ≠ .cpuAvailable := by simpa [Operation.endsTurn] using keeps
        simp [cpuBudget, other]
    | sendToCpu header process => cases keeps
    | _ => exact le_refl 0
  have one : cpuBudget.initial thread.role = 1 := by rw [role]; rfl
  rw [Thread.inHand, if_neg working, one]
  omega

/-- Whatever the CPU holds is counted. -/
theorem CpuBooks.holds (books : world.CpuBooks) (holds : world.CpuHolds) :
    world.memory.sem .cpuAvailable = 0 := by
  have tokens := books.tokens
  have nonneg := books.affords.total_nonneg
  rw [cpuTokens] at tokens
  rcases holds with sent | messages | ⟨thread, member, handles⟩
  · have := List.length_pos_of_ne_nil sent
    omega
  · have := List.length_pos_of_ne_nil messages
    omega
  · have one := one_le_inHand handles
    have atMost := Pool.le_total (fun other inside => (books.affords other inside).nonneg) member
    omega

theorem CpuBooks.exclusive (books : world.CpuBooks) : world.CpuExclusive := by
  have tokens := books.tokens
  have nonneg := books.affords.total_nonneg
  rw [cpuTokens] at tokens
  exact ⟨by omega, books.holds⟩

/-- Who sends `EXECUTE_PROCESS` has the token in hand, so nobody else has it. -/
theorem CpuBooks.sendsToFreeCpu (books : world.CpuBooks) (event : WorldEvent) :
    world.SendsToFreeCpu event := by
  cases event with
  | advance index =>
      intro process sends holds
      obtain ⟨thread, at_index, nextOp⟩ := Option.bind_eq_some_iff.mp sends
      have member := List.mem_of_getElem? at_index
      have paid := (books.affords thread member).pays nextOp
      have atMost := Pool.le_total (fun other inside => (books.affords other inside).nonneg) member
      have tokens := books.tokens
      rw [cpuTokens] at tokens
      by_cases planner : thread.role = .shortTermPlanner
      · have costs : cpuBudget.gain thread.role (.sendToCpu .executeProcess process) = -1 := by
          rw [planner]
          rfl
        rcases holds with sent | messages | ⟨other, inside, handles⟩
        · have := List.length_pos_of_ne_nil sent
          omega
        · have := List.length_pos_of_ne_nil messages
          omega
        · have one := one_le_inHand handles
          have different : thread ≠ other := by
            rintro rfl
            obtain ⟨message, role⟩ := handles.1
            rw [planner] at role
            cases role
          have both := books.affords.add_le_total member inside different
          omega
      · have costs : cpuBudget.gain thread.role (.sendToCpu .executeProcess process) = -2 := by
          simp [cpuBudget, planner]
        omega
  | _ => trivial

end World

/-- CPU exclusivity: in every run in which a console gives the CPU back only when nobody has its token,
    `sem_cpu_available` never exceeds 1 and is 0 while the CPU holds a process, and `EXECUTE_PROCESS` is
    only sent to a CPU that holds none, whatever the threads are interleaved with and whatever the sleep
    threads find as their arguments. -/
theorem run_cpu_exclusive (config : KernelConfig) (events : List FramedWorldEvent)
    (spares : Meets (FramedWorld.step config) (FramedWorld.During World.SparesCpu)
      (FramedWorld.init config) events) :
    Throughout (FramedWorld.step config) (fun framed => framed.world.CpuExclusive)
        (FramedWorld.init config) events ∧
      Meets (FramedWorld.step config) (FramedWorld.During World.SendsToFreeCpu)
        (FramedWorld.init config) events := by
  have books : Throughout (FramedWorld.step config) (fun framed => framed.world.CpuBooks)
      (FramedWorld.init config) events := by
    refine throughout_of_guarded_run ?_ (World.CpuBooks.init config) spares
    intro framed event next holds guarded stepped
    exact FramedWorld.invariant_step World.CpuBooks.step (fun _ => trivial)
      (fun created books => ⟨books.affords, books.tokens⟩) holds guarded stepped
  refine ⟨books.imp fun _ => World.CpuBooks.exclusive, books.meets fun framed event books => ?_⟩
  cases event with
  | world inner => exact books.sendsToFreeCpu inner
  | _ => trivial

/-- The console finishes a process that is ready, while the CPU has another one. -/
theorem run_cpu_exclusive_witness :
    (∃ final, run (FramedWorld.step fifoConfig) (FramedWorld.init fifoConfig)
        (FramedWorld.steps finishBeforePlanner) = some final) ∧
      Throughout (FramedWorld.step fifoConfig) (fun framed => framed.world.CpuExclusive)
        (FramedWorld.init fifoConfig) (FramedWorld.steps finishBeforePlanner) ∧
      Meets (FramedWorld.step fifoConfig) (FramedWorld.During World.SendsToFreeCpu)
        (FramedWorld.init fifoConfig) (FramedWorld.steps finishBeforePlanner) :=
  ⟨Option.isSome_iff_exists.mp (by decide +kernel),
    run_cpu_exclusive fifoConfig (FramedWorld.steps finishBeforePlanner) (by decide +kernel)⟩

/-- The console finishes the process that the CPU has, and the planner goes on with the next one up to its
    `send_pcb`. -/
def finishExecuting : List WorldEvent :=
  admitTwo ++ List.replicate 16 (.advance 1) ++ [.command 3 (.finishProcess 0)] ++
    List.replicate 32 (.advance 3) ++ [.iterate 1] ++ List.replicate 12 (.advance 1)

/-- Process 1 is sent to the CPU, which still holds process 0. -/
theorem run_sends_to_busy_cpu :
    ∃ framed, run (FramedWorld.step fifoConfig) (FramedWorld.init fifoConfig)
        (FramedWorld.steps finishExecuting) = some framed ∧
      framed.world.pool.nextOp 1 = some (.sendToCpu .executeProcess 1) ∧ framed.world.CpuHolds ∧
      ¬ framed.world.SendsToFreeCpu (.advance 1) := by
  have reaches : (run (FramedWorld.step fifoConfig) (FramedWorld.init fifoConfig)
      (FramedWorld.steps finishExecuting)).map (fun framed => (framed.world.pool.nextOp 1,
        framed.world.memory.cpuDispatchConnection.map (·.2.pid))) =
      some (some (.sendToCpu .executeProcess 1), [0]) := by
    decide +kernel
  obtain ⟨framed, reaches, facts⟩ := Option.map_eq_some_iff.mp reaches
  obtain ⟨sends, sent⟩ := Prod.mk.inj facts
  have holds : framed.world.CpuHolds := .inl fun empty => by simp [empty] at sent
  exact ⟨framed, reaches, sends, holds, fun free => free 1 sends holds⟩

end OsSimulator
