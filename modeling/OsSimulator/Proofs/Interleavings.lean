/-
Module: OsSimulator.Proofs.Interleavings
Purpose: What one step of the world does to the pool of threads, and the two kinds of invariants that
  follow for every interleaving: threads keep to a discipline, and a value of the memory is in balance
  with what the threads have done.
Main exports: Role.code, PoolStep, World.poolStep, WorldStep, World.step_cases, PoolStep.follows,
  PoolStep.balance, Operation.takes, Operation.sem_perform
-/
import OsSimulator.Concurrent.World
import OsSimulator.Lib.Transition

namespace OsSimulator

open Threads Transition

namespace Role

/-- The program of a role. -/
def code (config : KernelConfig) : Role → Code Unit
  | .longTermPlanner => Code.longTermPlanner
  | .shortTermPlanner => Code.shortTermPlanner config
  | .dispatchHandler none | .console none => pure ()
  | .dispatchHandler (some message) => Code.handleDispatchConnection message
  | .console (some command) => Code.handlerConnection command
  | .sleeper process _ => Code.threadSleepProcess process

/-- The role of the same thread when it is waiting for something to do. -/
def waiting : Role → Role
  | .dispatchHandler _ => .dispatchHandler none
  | .console _ => .console none
  | role => role

end Role

/-- The four things that an iteration of the short-term planner can be. -/
theorem Code.shortTermPlanner_cases (config : KernelConfig) :
    shortTermPlanner config = planingWithFifo ∨ shortTermPlanner config = planningWithRoundRobin ∨
      shortTermPlanner config = planningWithPriorities ∨ shortTermPlanner config = pure () := by
  unfold shortTermPlanner
  split
  · exact .inl rfl
  · split
    · exact .inr (.inl rfl)
    · split
      · exact .inr (.inr (.inl rfl))
      · exact .inr (.inr (.inr rfl))

/-- The step makes a thread start its program in this role. -/
def WorldEvent.Starts : WorldEvent → Role → Prop
  | .iterate _, .longTermPlanner | .iterate _, .shortTermPlanner => True
  | .connect, .console none => True
  | .command _ request, .console (some other) => other = request
  | .receive _, .dispatchHandler (some _) => True
  | .startSleeper, .sleeper _ _ => True
  | _, _ => False

namespace Memory

/-- The two differ at most in the connections to the CPU and in the threads that were created. -/
def SameKernel (before after : Memory) : Prop :=
  after = { before with
    cpuDispatchConnection := after.cpuDispatchConnection
    interruptHeaders := after.interruptHeaders
    createdThreads := after.createdThreads }

theorem SameKernel.queue {before after : Memory} (same : before.SameKernel after) (id : QueueId) :
    after.queue id = before.queue id := by
  rw [same]
  cases id <;> rfl

theorem SameKernel.sem {before after : Memory} (same : before.SameKernel after) :
    after.sem = before.sem := by
  rw [same]

end Memory

/-- The pool of the kernel's threads. -/
abbrev KernelPool := Pool Role Operation Memory

/-- What a step does to the pool: a thread performs an operation, an idle thread starts again in a
    role of its kind, a thread is created, or only the connections to the CPU change. -/
inductive PoolStep (config : KernelConfig) (pool : KernelPool) : WorldEvent → KernelPool → Prop
  | advance {index : Nat} {next : KernelPool}
      (advanced : pool.advance (Operation.perform config) index = some next) :
      PoolStep config pool (.advance index) next
  | restart {event : WorldEvent} {index : Nat} {thread : Thread Role Operation Memory} {role : Role}
      (starts : event.Starts role) (at_index : pool.threads[index]? = some thread)
      (idle : thread.Idle) (same : thread.role.waiting = role.waiting) :
      PoolStep config pool event
        { pool with threads := pool.threads.set index (.start role (role.code config)) }
  | spawn {event : WorldEvent} {role : Role} {state : Memory} (starts : event.Starts role)
      (new : role = .console none ∨ ∃ process sleepTime, role = .sleeper process sleepTime)
      (same : pool.state.SameKernel state) :
      PoolStep config pool event (Pool.spawn role (role.code config) { pool with state := state })
  | environment {event : WorldEvent} {state : Memory} (same : pool.state.SameKernel state) :
      PoolStep config pool event { pool with state := state }

/-- A restart is a step of the pool. -/
theorem PoolStep.of_restart {config : KernelConfig} {pool next : KernelPool} {event : WorldEvent}
    {index : Nat} {old role : Role} (starts : event.Starts role)
    (at_role : pool.threads[index]?.map Thread.role = some old) (same : old.waiting = role.waiting)
    (restarted : pool.restart index role (role.code config) = some next) :
    PoolStep config pool event next := by
  obtain ⟨thread, at_index, idle, rfl⟩ := Pool.restart_cases restarted
  rw [at_index] at at_role
  obtain rfl := Option.some.inj at_role
  exact .restart starts at_index idle same

/-- The inversion lemma of the world's steps. -/
theorem World.poolStep {config : KernelConfig} {world next : World} {event : WorldEvent}
    (stepped : world.step config event = some next) : PoolStep config world.pool event next.pool := by
  cases event with
  | advance index =>
      obtain ⟨pool, advanced, rfl⟩ := Option.map_eq_some_iff.mp stepped
      exact .advance advanced
  | iterate index =>
      simp only [step, iterate] at stepped
      split at stepped
      · rename_i at_role
        obtain ⟨pool, restarted, rfl⟩ := Option.map_eq_some_iff.mp stepped
        refine .of_restart ?_ at_role rfl restarted
        trivial
      · rename_i at_role
        obtain ⟨pool, restarted, rfl⟩ := Option.map_eq_some_iff.mp stepped
        refine .of_restart ?_ at_role rfl restarted
        trivial
      · cases stepped
  | connect =>
      obtain rfl := Option.some.inj stepped
      have same : world.memory.SameKernel world.memory := rfl
      refine .spawn ?_ (.inl rfl) same
      trivial
  | command index request =>
      simp only [step, command] at stepped
      split at stepped
      · rename_i at_role
        obtain ⟨pool, restarted, rfl⟩ := Option.map_eq_some_iff.mp stepped
        refine .of_restart ?_ at_role ?_ restarted
        · rfl
        · rfl
      · cases stepped
  | receive index =>
      simp only [step, receive] at stepped
      split at stepped
      · rename_i at_role messages
        obtain ⟨pool, restarted, rfl⟩ := Option.map_eq_some_iff.mp stepped
        refine .of_restart ?_ at_role ?_ restarted
        · trivial
        · rfl
      · cases stepped
  | startSleeper =>
      simp only [step, startSleeper] at stepped
      split at stepped
      · cases stepped
      · obtain rfl := Option.some.inj stepped
        refine .spawn ?_ (.inr ⟨_, _, rfl⟩) rfl
        trivial
  | cpuExecute request cpuRegister programCounter =>
      simp only [step, cpuExecute] at stepped
      split at stepped
      · cases stepped
      · split at stepped
        · cases stepped
        · obtain rfl := Option.some.inj stepped
          exact .environment rfl
  | cpuReadInterrupt =>
      obtain ⟨_, result⟩ := Option.ite_none_right_eq_some.mp stepped
      obtain rfl := Option.some.inj result
      exact .environment rfl

/-- What a step does to the world, the connections included. -/
inductive WorldStep (config : KernelConfig) (world : World) : WorldEvent → World → Prop
  | advances {index : Nat} {pool : KernelPool}
      (advanced : world.pool.advance (Operation.perform config) index = some pool) :
      WorldStep config world (.advance index) { world with pool := pool }
  | iterates {index : Nat} {thread : Thread Role Operation Memory} {role : Role}
      (at_index : world.pool.threads[index]? = some thread) (idle : thread.Idle)
      (same : thread.role = role) (planner : role = .longTermPlanner ∨ role = .shortTermPlanner) :
      WorldStep config world (.iterate index)
        { world with
          pool := { world.pool with
            threads := world.pool.threads.set index (.start role (role.code config)) } }
  | commands {index : Nat} {thread : Thread Role Operation Memory} {request : Command}
      {old : Option Command} (at_index : world.pool.threads[index]? = some thread)
      (idle : thread.Idle) (console : thread.role = .console old) :
      WorldStep config world (.command index request)
        { world with
          pool := { world.pool with
            threads := world.pool.threads.set index
              (.start (.console (some request)) (Role.code config (.console (some request)))) } }
  | receives {index : Nat} {thread : Thread Role Operation Memory} {message : Message}
      {rest : List Message} {old : Option Message}
      (at_index : world.pool.threads[index]? = some thread) (idle : thread.Idle)
      (handler : thread.role = .dispatchHandler old) (head : world.cpuMessages = message :: rest) :
      WorldStep config world (.receive index)
        { world with
          pool := { world.pool with
            threads := world.pool.threads.set index
              (.start (.dispatchHandler (some message))
                (Role.code config (.dispatchHandler (some message)))) }
          cpuMessages := rest }
  | connects :
      WorldStep config world .connect
        { world with
          pool := world.pool.spawn (.console none) (Role.code config (.console none)) }
  | startsSleeper {process : PcbPointer} {sleepTime : Int32} {rest : List (PcbPointer × Int32)}
      (head : world.memory.createdThreads = (process, sleepTime) :: rest) :
      WorldStep config world .startSleeper
        { world with
          pool := Pool.spawn (.sleeper process sleepTime)
            (Role.code config (.sleeper process sleepTime))
            { world.pool with state := { world.memory with createdThreads := rest } } }
  | executes {request : CpuRequest} {cpuRegister : List (BitVec 64)} {programCounter : Int32}
      {header : OperationCode} {process : Pcb} {rest : List (OperationCode × Pcb)}
      (head : world.memory.cpuDispatchConnection = (header, process) :: rest) :
      WorldStep config world (.cpuExecute request cpuRegister programCounter)
        { pool := { world.pool with state := { world.memory with cpuDispatchConnection := rest } }
          cpuMessages := world.cpuMessages ++
            [⟨request, { process with cpuRegister := cpuRegister, programCounter := programCounter }⟩]
          hasInterrupt := false }
  | readsInterrupt :
      WorldStep config world .cpuReadInterrupt
        { world with
          pool := { world.pool with
            state := { world.memory with interruptHeaders := world.memory.interruptHeaders - 1 } }
          hasInterrupt := true }

/-- A restart gives the program to an idle thread of the role. -/
theorem World.restart_cases {world next : World} {index : Nat} {old role : Role} {code : Code Unit}
    (at_role : world.roleAt index = some old)
    (restarted : world.onPool (Pool.restart index role code) = some next) :
    ∃ thread, world.pool.threads[index]? = some thread ∧ thread.Idle ∧ thread.role = old ∧
      next = { world with
        pool := { world.pool with threads := world.pool.threads.set index (.start role code) } } := by
  obtain ⟨pool, moved, rfl⟩ := Option.map_eq_some_iff.mp restarted
  obtain ⟨thread, at_index, idle, rfl⟩ := Pool.restart_cases moved
  rw [World.roleAt, at_index] at at_role
  exact ⟨thread, at_index, idle, Option.some.inj at_role, rfl⟩

/-- The inversion lemma of the world's steps, with what they do to the connections. -/
theorem World.step_cases {config : KernelConfig} {world next : World} {event : WorldEvent}
    (stepped : world.step config event = some next) : WorldStep config world event next := by
  cases event with
  | advance index =>
      obtain ⟨pool, advanced, rfl⟩ := Option.map_eq_some_iff.mp stepped
      exact .advances advanced
  | iterate index =>
      simp only [step, iterate] at stepped
      split at stepped
      · rename_i at_role
        obtain ⟨thread, at_index, idle, same, rfl⟩ := restart_cases at_role stepped
        exact .iterates at_index idle same (.inl rfl)
      · rename_i at_role
        obtain ⟨thread, at_index, idle, same, rfl⟩ := restart_cases at_role stepped
        exact .iterates at_index idle same (.inr rfl)
      · cases stepped
  | connect =>
      obtain rfl := Option.some.inj stepped
      exact .connects
  | command index request =>
      simp only [step, command] at stepped
      split at stepped
      · rename_i at_role
        obtain ⟨thread, at_index, idle, console, rfl⟩ := restart_cases at_role stepped
        exact .commands at_index idle console
      · cases stepped
  | receive index =>
      simp only [step, receive] at stepped
      split at stepped
      · rename_i old message rest at_role head
        have same : World.roleAt { world with cpuMessages := rest } index =
            some (.dispatchHandler old) := at_role
        obtain ⟨thread, at_index, idle, handler, rfl⟩ := restart_cases same stepped
        exact .receives at_index idle handler head
      · cases stepped
  | startSleeper =>
      simp only [step, startSleeper] at stepped
      split at stepped
      · cases stepped
      · rename_i head
        obtain rfl := Option.some.inj stepped
        exact .startsSleeper head
  | cpuExecute request cpuRegister programCounter =>
      simp only [step, cpuExecute] at stepped
      split at stepped
      · cases stepped
      · rename_i head
        split at stepped
        · cases stepped
        · obtain rfl := Option.some.inj stepped
          exact .executes head
  | cpuReadInterrupt =>
      obtain ⟨_, result⟩ := Option.ite_none_right_eq_some.mp stepped
      obtain rfl := Option.some.inj result
      exact .readsInterrupt

namespace PoolStep

variable {config : KernelConfig} {pool next : KernelPool} {event : WorldEvent}

/-- If every program keeps to a discipline, whatever it is interleaved with, all threads do. -/
theorem follows {discipline : Discipline Role Operation Memory}
    (programs : ∀ role, discipline.during role [] ∧ (role.code config).Keeps discipline role
      (fun trace _ => discipline.ending role trace) [])
    (guarded : ∀ index thread op, event = .advance index → pool.threads[index]? = some thread →
      thread.nextOp = some op →
      discipline.guard pool.state (thread.performed.filter discipline.relevant) op)
    (follows : pool.Follows discipline) (step : PoolStep config pool event next) :
    next.Follows discipline := by
  cases step with
  | advance advanced => exact follows.advance (fun thread op => guarded _ thread op rfl) advanced
  | @restart _ _ _ role _ _ _ _ => exact follows.set (.start (programs role).1 (programs role).2) _
  | @spawn _ role state _ _ _ =>
      have sameThreads : ({ pool with state := state } : KernelPool).Follows discipline := follows
      exact sameThreads.spawn (programs role).1 (programs role).2
  | environment _ => exact follows

/-- A value of the memory stays in balance with what the threads have done. -/
theorem balance {weight : Operation → Int} {value : Memory → Int}
    (elsewhere : ∀ before after : Memory, before.SameKernel after → value after = value before)
    (balanced : ∀ thread ∈ pool.threads, thread.Idle → thread.balance weight = 0)
    (changes : ∀ index thread op after, event = .advance index →
      pool.threads[index]? = some thread → thread.nextOp = some op →
      op.perform config pool.state = some after → value after + weight op = value pool.state)
    (step : PoolStep config pool event next) :
    value next.state + next.total (·.balance weight) =
      value pool.state + pool.total (·.balance weight) := by
  cases step with
  | advance advanced =>
      exact Pool.balance_advance (fun thread op after => changes _ thread op after rfl) advanced
  | restart _ at_index idle _ =>
      have zero := balanced _ (List.mem_of_getElem? at_index) idle
      rw [Pool.balance_restart _ _ at_index zero]
  | spawn _ _ same =>
      rw [Pool.balance_spawn]
      exact congrArg (· + _) (elsewhere _ _ same)
  | environment same => exact congrArg (· + _) (elsewhere _ _ same)

/-- A thread is of the kind that the thread at its place was, or it is new: a console that has just
    connected or a sleeper. -/
theorem waiting_cases (step : PoolStep config pool event next) {index : Nat}
    {thread : Thread Role Operation Memory} (at_index : next.threads[index]? = some thread) :
    (∃ before, pool.threads[index]? = some before ∧ before.role.waiting = thread.role.waiting) ∨
      index = pool.threads.length ∧ event.Starts thread.role ∧
        (thread.role = .console none ∨
          ∃ process sleepTime, thread.role = .sleeper process sleepTime) := by
  cases step with
  | advance advanced =>
      obtain ⟨old, op, rest, after, at_old, _, _, rfl⟩ := Pool.advance_cases advanced
      exact .inl (Pool.getElem?_of_set (fun thread => thread.role.waiting) at_old (by rfl) at_index)
  | restart _ at_old _ same =>
      exact .inl
        (Pool.getElem?_of_set (fun thread => thread.role.waiting) at_old same.symm at_index)
  | spawn starts new _ =>
      rcases Pool.getElem?_of_spawn at_index with before | ⟨last, rfl⟩
      · exact .inl ⟨thread, before, rfl⟩
      · exact .inr ⟨last, starts, new⟩
  | environment _ => exact .inl ⟨thread, at_index, rfl⟩

/-- There are always as many planners as there were. -/
theorem countP_role {role : Role} (planner : role = .longTermPlanner ∨ role = .shortTermPlanner)
    (step : PoolStep config pool event next) :
    (next.threads.countP fun thread => thread.role = role) =
      pool.threads.countP fun thread => thread.role = role := by
  have waiting_eq : ∀ other : Role, other.waiting = role ↔ other = role := by
    intro other
    rcases planner with rfl | rfl <;> cases other <;> simp [Role.waiting]
  cases step with
  | advance advanced =>
      obtain ⟨thread, op, rest, after, at_index, _, _, rfl⟩ := Pool.advance_cases advanced
      exact Pool.countP_set at_index Iff.rfl
  | @restart _ _ thread _ _ at_index _ same =>
      apply Pool.countP_set at_index
      rw [← waiting_eq thread.role, same, waiting_eq]
      exact Iff.rfl
  | @spawn _ spawned _ _ new _ =>
      have other : role ≠ spawned := by
        rcases planner with rfl | rfl <;> rcases new with rfl | ⟨_, _, rfl⟩ <;> simp
      rw [Pool.spawn, List.countP_append]
      simp [Thread.start, other.symm]
  | environment _ => rfl

end PoolStep

/-! ### Semaphores -/

namespace Operation

/-- How many tokens of the semaphore the operation takes. -/
def takes (semaphore : Semaphore) : Operation → Int
  | .wait other => if other = semaphore then 1 else 0
  | .post other => if other = semaphore then -1 else 0
  | _ => 0

theorem takes_nonneg {op : Operation} {semaphore : Semaphore} (notPost : op ≠ .post semaphore) :
    0 ≤ op.takes semaphore := by
  cases op with
  | wait other =>
      simp only [takes]
      split <;> simp
  | post other =>
      have other_ne : other ≠ semaphore := by
        rintro rfl
        exact notPost rfl
      simp [takes, other_ne]
  | _ => exact le_refl 0

theorem takes_nonpos {op : Operation} {semaphore : Semaphore} (notWait : op ≠ .wait semaphore) :
    op.takes semaphore ≤ 0 := by
  cases op with
  | wait other =>
      have other_ne : other ≠ semaphore := by
        rintro rfl
        exact notWait rfl
      simp [takes, other_ne]
  | post other =>
      simp only [takes]
      split <;> simp
  | _ => exact le_refl 0

/-- The tokens that an operation takes are the ones that the semaphore loses. -/
theorem sem_perform {config : KernelConfig} {op : Operation} {memory after : Memory}
    (semaphore : Semaphore) (notInit : ∀ value, op ≠ .init semaphore value)
    (performed : op.perform config memory = some after) :
    (after.sem semaphore : Int) + op.takes semaphore = memory.sem semaphore := by
  cases op with
  | wait other =>
      obtain ⟨positive, result⟩ := Option.ite_none_right_eq_some.mp performed
      obtain rfl := Option.some.inj result
      by_cases same : other = semaphore
      · subst same
        simp only [Memory.setSem_sem, takes, if_true]
        omega
      · simp [Memory.setSem_sem, takes, same, Ne.symm same]
  | post other =>
      obtain rfl := Option.some.inj performed
      by_cases same : other = semaphore
      · subst same
        simp [Memory.setSem_sem, takes]
      · simp [Memory.setSem_sem, takes, same, Ne.symm same]
  | init other value =>
      obtain rfl := Option.some.inj performed
      have other_ne : semaphore ≠ other := by
        rintro rfl
        exact notInit value rfl
      simp [Memory.setSem_sem, takes, other_ne]
  | modifyInstance resource value =>
      simp only [perform] at performed
      split at performed <;> obtain rfl := Option.some.inj performed <;> exact add_zero _
  | nullPointer => cases performed
  | push id process | pop id | remove id process | sort =>
      obtain rfl := Option.some.inj performed
      simp [takes]
  | read | readState process | allocate pcb | nextId | find id pid | setState process state
  | advanceCounter process | addResource process resource | removeResource process resource
  | sendToCpu header process | sendInterrupt | sendToMemory chunk | createThread process sleepTime =>
      obtain rfl := Option.some.inj performed
      exact add_zero _

/-- Only `sem_wait` takes a token away. -/
theorem sem_le_perform {config : KernelConfig} {op : Operation} {memory after : Memory}
    {semaphore : Semaphore} (notInit : ∀ value, op ≠ .init semaphore value)
    (notWait : op ≠ .wait semaphore) (performed : op.perform config memory = some after) :
    memory.sem semaphore ≤ after.sem semaphore := by
  have lost := sem_perform semaphore notInit performed
  have nonpos := takes_nonpos notWait
  omega

end Operation

end OsSimulator
