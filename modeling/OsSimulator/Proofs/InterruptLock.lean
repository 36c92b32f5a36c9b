/-
Module: OsSimulator.Proofs.InterruptLock
Purpose: Who has the token of `mutex_interrupt`.  Every path of a turn gives back the token it takes,
  except the one for an instruction that ended the execution while the flag was set: it takes the token
  again before `continue`, and `execute_process` returns with it.
Main exports: Handler.InOrder, handlerStep_inOrder, Cpu.LockFree, Cpu.EndsUninterrupted,
  interrupt_lock_released
-/
import OsSimulator.Cpu.Threads
import OsSimulator.Lib.Transition

namespace OsSimulator

open Transition

/-- The thread is on none of the three statements of the branch that rejects an interrupt. -/
def Position.rejects : Position → Bool
  | .rejecting | .clearing | .retaking => true
  | _ => false

/-- The thread has the tokens of the section it is in, and is not in the branch that rejects. -/
structure Handler.InOrder (handler : Handler) : Prop where
  tokens : handler.tokens = handler.position.inside
  accepts : handler.position.rejects = false

/-- The thread does not look at a flag that is set after an instruction that ended the execution. -/
def Handler.EndsUninterrupted (globals : Globals) (handler : Handler) : HandlerEvent → Prop
  | .receive _ _ => True
  | .proceed _ =>
      match handler.position with
      | .testing _ true => globals.hasInterrupt = false
      | _ => True

instance (globals : Globals) :
    ∀ handler event, Decidable (Handler.EndsUninterrupted globals handler event)
  | _, .receive _ _ => isTrue trivial
  | ⟨.testing _ true, _⟩, .proceed _ => inferInstanceAs (Decidable (globals.hasInterrupt = false))
  | ⟨.testing _ false, _⟩, .proceed _ | ⟨.listening, _⟩, .proceed _
  | ⟨.interrupting, _⟩, .proceed _ | ⟨.raising, _⟩, .proceed _ | ⟨.raised, _⟩, .proceed _
  | ⟨.executing _, _⟩, .proceed _ | ⟨.locking _ _, _⟩, .proceed _ | ⟨.preempting _, _⟩, .proceed _
  | ⟨.rejecting, _⟩, .proceed _ | ⟨.clearing, _⟩, .proceed _ | ⟨.retaking, _⟩, .proceed _
  | ⟨.unlocking _ _, _⟩, .proceed _ | ⟨.stopped, _⟩, .proceed _ => isTrue trivial

section Steps

variable {machine : Machine} {globals after : Globals} {handler next : Handler}
  {event : HandlerEvent}

theorem handleKernelConnection_cases {header : OperationCode} {pcb : Option Pcb}
    {position : Position} (handled : Globals.handleKernelConnection header pcb = some position) :
    position = .stopped ∨ position = .interrupting ∨ ∃ process, position = .executing process := by
  cases header with
  | executeProcess | waitResponse | signalResponse =>
      obtain ⟨process, _, rfl⟩ := Option.map_eq_some_iff.mp handled
      exact .inr (.inr ⟨process, rfl⟩)
  | interrupt | interruptQuantum =>
      cases handled
      exact .inr (.inl rfl)
  | _ =>
      cases handled
      exact .inl rfl

theorem semWait_effect {position : Position}
    (waited : globals.semWait handler position = some (after, next)) :
    next = { position := position, tokens := handler.tokens + 1 } ∧
      after.mutexInterrupt + 1 = globals.mutexInterrupt ∧
      after.hasInterrupt = globals.hasInterrupt := by
  rw [Globals.semWait] at waited
  split at waited
  · cases waited
    refine ⟨rfl, ?_, rfl⟩
    dsimp only
    omega
  · cases waited

/-- An instruction leaves the lock and the flag alone. -/
theorem executeInstruction_effect {stale : List UInt8} {process : Pcb}
    (executed : globals.executeInstruction machine stale handler process = some (after, next)) :
    after.mutexInterrupt = globals.mutexInterrupt ∧ after.hasInterrupt = globals.hasInterrupt ∧
      ∃ process endOfExecution,
        next = { handler with position := .locking process endOfExecution } := by
  simp only [Globals.executeInstruction, Option.bind_eq_bind, Option.bind_eq_some_iff,
    Option.pure_def, Option.some.injEq, Prod.mk.injEq] at executed
  obtain ⟨instruction, _, result, _, rfl, rfl⟩ := executed
  exact ⟨rfl, rfl, _, _, rfl⟩

/-- A step in order keeps the token of the lock where the threads are. -/
theorem handlerStep_inOrder (inOrder : handler.InOrder)
    (uninterrupted : handler.EndsUninterrupted globals event)
    (stepped : globals.handlerStep machine handler event = some (after, next)) :
    next.InOrder ∧
      after.mutexInterrupt + next.position.inside =
        globals.mutexInterrupt + handler.position.inside := by
  obtain ⟨position, tokens⟩ := handler
  obtain ⟨held, accepts⟩ := inOrder
  dsimp only at held accepts
  cases event with
  | receive header pcb =>
      rw [Globals.handlerStep] at stepped
      split at stepped
      · next listening =>
          obtain ⟨position, handled, same⟩ := Option.map_eq_some_iff.mp stepped
          cases same
          dsimp only at listening
          subst listening
          rcases handleKernelConnection_cases handled with rfl | rfl | ⟨process, rfl⟩ <;>
            exact ⟨⟨held, rfl⟩, rfl⟩
      · cases stepped
  | proceed stale =>
      rw [Globals.handlerStep, Globals.proceed] at stepped
      cases position with
      | listening | stopped => cases stepped
      | rejecting | clearing | retaking => cases accepts
      | interrupting | locking process endOfExecution =>
          obtain ⟨rfl, taken, _⟩ := semWait_effect stepped
          exact ⟨⟨by dsimp only; rw [held]; rfl, rfl⟩, by dsimp only [Position.inside]; omega⟩
      | raising =>
          cases stepped
          exact ⟨⟨held, rfl⟩, rfl⟩
      | raised =>
          cases stepped
          exact ⟨⟨by dsimp only; rw [held]; rfl, rfl⟩, rfl⟩
      | executing process =>
          obtain ⟨lock, _, process, endOfExecution, rfl⟩ := executeInstruction_effect stepped
          exact ⟨⟨held, rfl⟩, by dsimp only; rw [lock]; rfl⟩
      | testing process endOfExecution =>
          cases endOfExecution with
          | false =>
              cases flag : globals.hasInterrupt <;> simp only [flag] at stepped <;> cases stepped
              · exact ⟨⟨held, rfl⟩, rfl⟩
              · exact ⟨⟨held, rfl⟩, rfl⟩
          | true =>
              have flag : globals.hasInterrupt = false := uninterrupted
              simp only [flag] at stepped
              cases stepped
              exact ⟨⟨held, rfl⟩, rfl⟩
      | preempting process =>
          cases stepped
          exact ⟨⟨held, rfl⟩, rfl⟩
      | unlocking process endOfExecution =>
          cases stepped
          cases endOfExecution with
          | false => exact ⟨⟨by dsimp only; rw [held]; rfl, rfl⟩, rfl⟩
          | true => exact ⟨⟨by dsimp only; rw [held]; rfl, rfl⟩, rfl⟩

/-- The steps of one thread while the other rests. -/
def handlerRun (machine : Machine) (state : Globals × Handler) (event : HandlerEvent) :
    Option (Globals × Handler) :=
  state.1.handlerStep machine state.2 event

/-- A thread that is in a section comes to its end by itself. -/
theorem handlerRun_releases (machine : Machine) (globals : Globals)
    (inside : handler.position.inside = 1) :
    ∃ events after next, run (handlerRun machine) (globals, handler) events = some (after, next) ∧
      0 < after.mutexInterrupt := by
  obtain ⟨position, tokens⟩ := handler
  cases position with
  | raising => exact ⟨[.proceed [], .proceed []], _, _, rfl, Nat.succ_pos _⟩
  | raised | rejecting | unlocking => exact ⟨[.proceed []], _, _, rfl, Nat.succ_pos _⟩
  | preempting => exact ⟨[.proceed [], .proceed []], _, _, rfl, Nat.succ_pos _⟩
  | testing process endOfExecution =>
      obtain ⟨mutex, hasInterrupt, sent⟩ := globals
      cases hasInterrupt with
      | false => exact ⟨[.proceed [], .proceed []], _, _, rfl, Nat.succ_pos _⟩
      | true =>
          cases endOfExecution with
          | false => exact ⟨[.proceed [], .proceed [], .proceed []], _, _, rfl, Nat.succ_pos _⟩
          | true => exact ⟨[.proceed [], .proceed []], _, _, rfl, Nat.succ_pos _⟩
  | _ => cases inside

/-- A thread that finds the flag set after an instruction that ended the execution returns to
    `receive_header` with the token. -/
theorem handlerRun_keeps_token (machine : Machine) {process : Pcb}
    (position : handler.position = .testing process true) (flag : globals.hasInterrupt = true) :
    ∃ events after next, run (handlerRun machine) (globals, handler) events = some (after, next) ∧
      next.position = .listening ∧ next.tokens = handler.tokens - 1 + 1 := by
  obtain ⟨_, tokens⟩ := handler
  obtain ⟨mutex, _, sent⟩ := globals
  dsimp only at position flag
  subst position flag
  exact ⟨[.proceed [], .proceed [], .proceed [], .proceed []], _, _, rfl, rfl, rfl⟩

end Steps

/-! ### Both threads -/

namespace Cpu

/-- The token of the lock is in the semaphore or with the one thread in a section, and a thread that has
    returned from `execute_process`, or from an `INTERRUPT` case, has none. -/
structure LockReleased (cpu : Cpu) : Prop where
  conserved : cpu.globals.mutexInterrupt + cpu.dispatchThread.position.inside +
    cpu.interruptThread.position.inside = 1
  returned : ∀ handler ∈ [cpu.dispatchThread, cpu.interruptThread],
    handler.position = .listening → handler.tokens = 0

/-- No interrupt is pending where the flag is looked at after an instruction that ended the
    execution. -/
def EndsUninterrupted (cpu : Cpu) : CpuEvent → Prop
  | .dispatch event => cpu.dispatchThread.EndsUninterrupted cpu.globals event
  | .interrupt event => cpu.interruptThread.EndsUninterrupted cpu.globals event

/-- Both threads are in order, and there is one token. -/
structure InOrder (cpu : Cpu) : Prop where
  dispatch : cpu.dispatchThread.InOrder
  interrupt : cpu.interruptThread.InOrder
  conserved : cpu.globals.mutexInterrupt + cpu.dispatchThread.position.inside +
    cpu.interruptThread.position.inside = 1

instance (cpu : Cpu) : ∀ event, Decidable (cpu.EndsUninterrupted event)
  | .dispatch event =>
      inferInstanceAs (Decidable (cpu.dispatchThread.EndsUninterrupted cpu.globals event))
  | .interrupt event =>
      inferInstanceAs (Decidable (cpu.interruptThread.EndsUninterrupted cpu.globals event))

variable {machine : Machine} {cpu next : Cpu} {event : CpuEvent}

/-- The CPU with another state of its dispatch thread. -/
def withDispatch (cpu : Cpu) (state : Globals × Handler) : Cpu :=
  { cpu with globals := state.1, dispatchThread := state.2 }

/-- The CPU with another state of its interrupt thread. -/
def withInterrupt (cpu : Cpu) (state : Globals × Handler) : Cpu :=
  { cpu with globals := state.1, interruptThread := state.2 }

theorem step_dispatch {event : HandlerEvent} (stepped : cpu.step machine (.dispatch event) = some next) :
    ∃ after handler, cpu.globals.handlerStep machine cpu.dispatchThread event =
      some (after, handler) ∧ next = cpu.withDispatch (after, handler) := by
  obtain ⟨⟨after, handler⟩, taken, rfl⟩ := Option.map_eq_some_iff.mp stepped
  exact ⟨after, handler, taken, rfl⟩

theorem step_interrupt {event : HandlerEvent}
    (stepped : cpu.step machine (.interrupt event) = some next) :
    ∃ after handler, cpu.globals.handlerStep machine cpu.interruptThread event =
      some (after, handler) ∧ next = cpu.withInterrupt (after, handler) := by
  obtain ⟨⟨after, handler⟩, taken, rfl⟩ := Option.map_eq_some_iff.mp stepped
  exact ⟨after, handler, taken, rfl⟩

theorem InOrder.init : Cpu.init.InOrder := ⟨⟨rfl, rfl⟩, ⟨rfl, rfl⟩, rfl⟩

theorem InOrder.step (inOrder : cpu.InOrder) (uninterrupted : cpu.EndsUninterrupted event)
    (stepped : cpu.step machine event = some next) : next.InOrder := by
  have conserved := inOrder.conserved
  cases event with
  | dispatch event =>
      obtain ⟨after, handler, taken, rfl⟩ := step_dispatch stepped
      obtain ⟨stillInOrder, same⟩ := handlerStep_inOrder inOrder.dispatch uninterrupted taken
      exact ⟨stillInOrder, inOrder.interrupt, by dsimp only [withDispatch]; omega⟩
  | interrupt event =>
      obtain ⟨after, handler, taken, rfl⟩ := step_interrupt stepped
      obtain ⟨stillInOrder, same⟩ := handlerStep_inOrder inOrder.interrupt uninterrupted taken
      exact ⟨inOrder.dispatch, stillInOrder, by dsimp only [withInterrupt]; omega⟩

theorem InOrder.lockReleased (inOrder : cpu.InOrder) : cpu.LockReleased := by
  refine ⟨inOrder.conserved, ?_⟩
  intro handler member listening
  have tokens : handler.tokens = handler.position.inside := by
    rcases List.mem_pair.mp member with rfl | rfl
    · exact inOrder.dispatch.tokens
    · exact inOrder.interrupt.tokens
  rw [tokens, listening]
  rfl

/-- The steps of the dispatch thread are steps of the CPU. -/
theorem run_dispatch {events : List HandlerEvent} {after : Globals × Handler}
    (taken : run (handlerRun machine) (cpu.globals, cpu.dispatchThread) events = some after) :
    run (Cpu.step machine) cpu (events.map .dispatch) = some (cpu.withDispatch after) :=
  run_embed cpu.withDispatch CpuEvent.dispatch
    (fun stepped => Option.map_eq_some_iff.mpr ⟨_, stepped, rfl⟩) taken

/-- The steps of the interrupt thread are steps of the CPU. -/
theorem run_interrupt {events : List HandlerEvent} {after : Globals × Handler}
    (taken : run (handlerRun machine) (cpu.globals, cpu.interruptThread) events = some after) :
    run (Cpu.step machine) cpu (events.map .interrupt) = some (cpu.withInterrupt after) :=
  run_embed cpu.withInterrupt CpuEvent.interrupt
    (fun stepped => Option.map_eq_some_iff.mpr ⟨_, stepped, rfl⟩) taken

/-- Whoever waits for the lock can get it. -/
theorem InOrder.lock_available (inOrder : cpu.InOrder) (machine : Machine) :
    ∃ further after, run (Cpu.step machine) cpu further = some after ∧
      0 < after.globals.mutexInterrupt := by
  have conserved := inOrder.conserved
  by_cases free : 0 < cpu.globals.mutexInterrupt
  · exact ⟨[], cpu, rfl, free⟩
  · by_cases dispatchInside : cpu.dispatchThread.position.inside = 1
    · obtain ⟨events, after, handler, taken, released⟩ :=
        handlerRun_releases machine cpu.globals dispatchInside
      exact ⟨_, _, run_dispatch taken, released⟩
    · have interruptInside : cpu.interruptThread.position.inside = 1 := by omega
      obtain ⟨events, after, handler, taken, released⟩ :=
        handlerRun_releases machine cpu.globals interruptInside
      exact ⟨_, _, run_interrupt taken, released⟩

/-- Where a step finds an interrupt pending, a thread comes to return with the token. -/
theorem lost_of_interrupted (machine : Machine) (interrupted : ¬ cpu.EndsUninterrupted event) :
    ∃ further after, run (Cpu.step machine) cpu further = some after ∧ ¬ after.LockReleased := by
  have pending {handler : Handler} {event : HandlerEvent}
      (interrupted : ¬ handler.EndsUninterrupted cpu.globals event) :
      ∃ events after next, run (handlerRun machine) (cpu.globals, handler) events =
          some (after, next) ∧ next.position = .listening ∧ next.tokens ≠ 0 := by
    cases event with
    | receive => exact absurd trivial interrupted
    | proceed stale =>
        rw [Handler.EndsUninterrupted] at interrupted
        split at interrupted
        · next process position =>
            obtain ⟨events, after, next, taken, listening, tokens⟩ :=
              handlerRun_keeps_token machine position (by simpa using interrupted)
            exact ⟨events, after, next, taken, listening, by omega⟩
        · exact absurd trivial interrupted
  cases event with
  | dispatch event =>
      obtain ⟨events, after, next, taken, listening, tokens⟩ := pending interrupted
      exact ⟨_, _, run_dispatch taken, fun released =>
        tokens (released.returned next List.mem_cons_self listening)⟩
  | interrupt event =>
      obtain ⟨events, after, next, taken, listening, tokens⟩ := pending interrupted
      exact ⟨_, _, run_interrupt taken, fun released =>
        tokens (released.returned next (List.mem_pair.mpr (.inr rfl)) listening)⟩

end Cpu

/-- As long as no interrupt is pending where the flag is looked at after an instruction that ended the
    execution, the token of `mutex_interrupt` is in the semaphore or with the one thread in a section,
    a thread that has returned from `execute_process` has none, and whoever waits for it can get it.
    Where an interrupt is pending there, a thread comes to return with the token. -/
theorem interrupt_lock_released (machine : Machine) (events : List CpuEvent) (cpu : Cpu)
    (meets : Meets (Cpu.step machine) Cpu.EndsUninterrupted Cpu.init events)
    (reaches : run (Cpu.step machine) Cpu.init events = some cpu) :
    cpu.LockReleased ∧
      (∃ further after, run (Cpu.step machine) cpu further = some after ∧
        0 < after.globals.mutexInterrupt) ∧
      ∀ event, ¬ cpu.EndsUninterrupted event →
        ∃ further after, run (Cpu.step machine) cpu further = some after ∧
          ¬ after.LockReleased := by
  have inOrder : cpu.InOrder := by
    apply invariant_of_guarded_run Cpu.InOrder ?_ Cpu.InOrder.init meets reaches
    intro state event next inOrder uninterrupted stepped
    exact inOrder.step uninterrupted stepped
  exact ⟨inOrder.lockReleased, inOrder.lock_available machine,
    fun _ interrupted => Cpu.lost_of_interrupted machine interrupted⟩

/-! ### One program of two instructions -/

/-- A machine whose only program sets a register and exits. -/
def exitingMachine : Machine where
  memory :=
    { fopen := fun path => if path = "test/EXITS" then some (cBytes "SET AX 1\nEXIT") else none
      instructionPath := "test"
      stringNew := 24
      small := FileSystem.small_24 }
  stringSplit := fun text => (text.toList.splitOn ' ').map String.ofList

/-- The process of that program, before its first instruction. -/
def exitingPcb : Pcb where
  pid := 0
  programCounter := 0
  size := 0
  quantum := 0
  cpuRegister := [0, 0, 0, 0]
  resources := []
  tablePages := 0
  path := "EXITS"
  state := .execution
  clientSocket := 4

/-- A turn of `execute_process` that finds the flag cleared. -/
def turnSteps : List CpuEvent := List.replicate 4 (.dispatch (.proceed []))

/-- An interrupt that is received and raised. -/
def interruptSteps : List CpuEvent :=
  [.interrupt (.receive .interruptQuantum none), .interrupt (.proceed []),
    .interrupt (.proceed []), .interrupt (.proceed [])]

/-- The interrupt comes after the process has exited. -/
theorem interrupt_lock_released_exits :
    ∃ cpu, run (Cpu.step exitingMachine) Cpu.init
        (.dispatch (.receive .executeProcess (some exitingPcb)) :: turnSteps ++ turnSteps ++
          interruptSteps) = some cpu ∧ cpu.LockReleased := by
  have reaches : (run (Cpu.step exitingMachine) Cpu.init
      (.dispatch (.receive .executeProcess (some exitingPcb)) :: turnSteps ++ turnSteps ++
        interruptSteps)).isSome := by decide +kernel
  obtain ⟨cpu, reaches⟩ := Option.isSome_iff_exists.mp reaches
  exact ⟨cpu, reaches,
    (interrupt_lock_released exitingMachine _ cpu (by decide +kernel) reaches).1⟩

/-- The interrupt comes while the process exits: `execute_process` returns with the token. -/
theorem interrupt_lock_lost :
    ∃ cpu, run (Cpu.step exitingMachine) Cpu.init
        (.dispatch (.receive .executeProcess (some exitingPcb)) :: turnSteps ++
          .dispatch (.proceed []) :: interruptSteps ++
          List.replicate 5 (.dispatch (.proceed []))) = some cpu ∧ ¬ cpu.LockReleased := by
  have reaches : (run (Cpu.step exitingMachine) Cpu.init
      (.dispatch (.receive .executeProcess (some exitingPcb)) :: turnSteps ++
        .dispatch (.proceed []) :: interruptSteps ++
        List.replicate 5 (.dispatch (.proceed [])))).map Cpu.dispatchThread =
      some { position := .listening, tokens := 1 } := by decide +kernel
  obtain ⟨cpu, reaches, thread⟩ := Option.map_eq_some_iff.mp reaches
  refine ⟨cpu, reaches, fun released => ?_⟩
  have returned := released.returned cpu.dispatchThread List.mem_cons_self (by rw [thread])
  rw [thread] at returned
  cases returned

end OsSimulator
