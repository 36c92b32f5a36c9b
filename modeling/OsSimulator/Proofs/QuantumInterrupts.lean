/-
Module: OsSimulator.Proofs.QuantumInterrupts
Purpose: Which process an interrupt hits.  The planner sends an interrupt after every quantum, the CPU
  keeps one flag for all processes, and only the end of an execution that finds it set discards it; so
  an interrupt that is still pending when the next process is dispatched hits that one.
Main exports: Preemption.Justified, CpuSystem.NonePending, CpuSystem.DispatchesUnpending,
  run_preempts_justified, run_preempts_next_process
-/
import OsSimulator.Cpu.System
import OsSimulator.Proofs.InterruptLock
import OsSimulator.Proofs.CpuExclusivity

namespace OsSimulator

open Transition

/-! ### What a statement does to the flag -/

/-- The thread is going to clear the flag, if it finds it set, before it receives again. -/
def Position.discards : Position → Bool
  | .locking _ true | .testing _ true | .rejecting | .clearing => true
  | _ => false

/-- The thread has received an interrupt that it has not raised. -/
def Position.holdsInterrupt : Position → Bool
  | .interrupting | .raising => true
  | _ => false

/-- The thread is in an `INTERRUPT` case. -/
def Position.inInterruptCase : Position → Bool
  | .interrupting | .raising | .raised => true
  | _ => false

/-- What one statement does to the flag, and where it leads. -/
inductive FlagEffect (before after : Bool) : Position → Position → Prop where
  | preempts (process : Pcb) (cleared : after = false) :
      FlagEffect before after (.preempting process) (.unlocking process true)
  | discards (cleared : after = false) : FlagEffect before after .clearing .retaking
  | raises (set : after = true) : FlagEffect before after .raising .raised
  | keeps {position next : Position} (same : after = before)
      (other : (∀ process, position ≠ .preempting process) ∧ position ≠ .clearing ∧
        position ≠ .raising)
      (discarded : position.discards = true → next.discards = false → before = false)
      (preempts : ∀ process, next = .preempting process → before = true)
      (holds : next.holdsInterrupt = position.holdsInterrupt)
      (stays : position.inInterruptCase = true → next = .listening ∨ next.inInterruptCase = true)
      (enters : next.inInterruptCase = true → position.inInterruptCase = true) :
      FlagEffect before after position next

theorem proceed_flagEffect {machine : Machine} {stale : List UInt8} {globals after : Globals}
    {handler next : Handler}
    (proceeded : globals.proceed machine stale handler = some (after, next)) :
    FlagEffect globals.hasInterrupt after.hasInterrupt handler.position next.position := by
  obtain ⟨position, tokens⟩ := handler
  rw [Globals.proceed] at proceeded
  cases position with
  | listening | stopped => cases proceeded
  | raising =>
      cases proceeded
      exact .raises rfl
  | preempting process =>
      cases proceeded
      exact .preempts process rfl
  | clearing =>
      cases proceeded
      exact .discards rfl
  | interrupting | retaking =>
      obtain ⟨rfl, _, flag⟩ := semWait_effect proceeded
      apply FlagEffect.keeps flag <;>
        simp [Position.discards, Position.holdsInterrupt, Position.inInterruptCase]
  | locking process endOfExecution =>
      obtain ⟨rfl, _, flag⟩ := semWait_effect proceeded
      apply FlagEffect.keeps flag <;> cases endOfExecution <;>
        simp [Position.discards, Position.holdsInterrupt, Position.inInterruptCase]
  | raised | rejecting =>
      cases proceeded
      apply FlagEffect.keeps rfl <;>
        simp [Position.discards, Position.holdsInterrupt, Position.inInterruptCase]
  | unlocking process endOfExecution =>
      cases proceeded
      apply FlagEffect.keeps rfl <;> cases endOfExecution <;>
        simp [Position.discards, Position.holdsInterrupt, Position.inInterruptCase]
  | executing process =>
      obtain ⟨_, flag, process, endOfExecution, rfl⟩ := executeInstruction_effect proceeded
      apply FlagEffect.keeps flag <;>
        simp [Position.discards, Position.holdsInterrupt, Position.inInterruptCase]
  | testing process endOfExecution =>
      cases proceeded
      apply FlagEffect.keeps rfl <;> cases endOfExecution <;>
        cases globals.hasInterrupt <;>
        simp [Position.discards, Position.holdsInterrupt, Position.inInterruptCase]

/-! ### What the kernel sends -/

/-- The header is one that `execute_process` is called for. -/
def OperationCode.executes : OperationCode → Bool
  | .executeProcess | .waitResponse | .signalResponse => true
  | _ => false

namespace System

variable {config : KernelConfig} {system next : System} {event : Event}

/-- A message that is handled adds at most one message, with such a header. -/
theorem DispatchEffect.sends {message : Message} {kernel after : Kernel}
    (effect : Kernel.DispatchEffect message kernel after) :
    ∃ sent, after.cpuDispatchConnection = kernel.cpuDispatchConnection ++ sent ∧
      ∀ message ∈ sent, message.1.executes = true := by
  cases effect with
  | finishes _ finished =>
      have connection := (semCpu_finishProcess_le finished).2
      exact ⟨[], by simpa using connection, by simp⟩
  | interrupts _ result =>
      subst result
      exact ⟨[], by simp [Kernel.handleInterrupt, Kernel.queuePush], by simp⟩
  | grants _ _ _ _ result =>
      subst result
      exact ⟨[_], by simp [Kernel.removeResourceInstance]; rfl, by simp [OperationCode.executes]⟩
  | blocks _ _ _ _ _ _ _ _ _ result =>
      subst result
      exact ⟨[], by simp, by simp⟩
  | releases _ _ _ _ result =>
      subst result
      exact ⟨[_], by simp [Kernel.addResourceInstance]; rfl, by simp [OperationCode.executes]⟩
  | sleeps _ _ result =>
      subst result
      exact ⟨[], by simp [Kernel.handleSleepInterruption], by simp⟩

/-- A step of the kernel adds messages to the dispatch connection, with such headers. -/
theorem StepEffect.sends (effect : StepEffect config system next event)
    (ofKernel : event.isOfKernel = true) :
    ∃ sent, next.kernel.cpuDispatchConnection = system.kernel.cpuDispatchConnection ++ sent ∧
      ∀ message ∈ sent, message.1.executes = true := by
  cases effect with
  | creates _ _ _ result =>
      subst result
      exact ⟨[], by simp [Kernel.receivePcbAndCreate, Kernel.moveProcessToNew, Kernel.queuePush,
        Kernel.sendToMemory], by simp⟩
  | finishes _ _ finished result =>
      subst result
      exact ⟨[], by simpa using (semCpu_finishProcess_le finished).2, by simp⟩
  | modifies _ result =>
      subst result
      exact ⟨[], by simp [Kernel.modifyMultiprogrammingDegree_fields], by simp⟩
  | plans _ quiet => exact ⟨[], by simp [quiet.cpuDispatchConnection], by simp⟩
  | admits _ _ admits => exact ⟨[], by simp [admits.cpuDispatchConnection], by simp⟩
  | dispatches _ _ dispatches =>
      exact ⟨_, dispatches.cpuDispatchConnection, by simp [OperationCode.executes]⟩
  | executes => cases ofKernel
  | handles _ _ _ _ effect result =>
      subst result
      exact DispatchEffect.sends effect
  | sleepStarts _ _ _ _ result =>
      subst result
      exact ⟨[], by simp, by simp⟩
  | sleepEnds _ thread _ sleeping result =>
      subst result
      exact ⟨[], by simp [Kernel.sleepThreadStep, sleeping, Kernel.queuePush], by simp⟩

/-- A step of the kernel takes no interrupt from the connection. -/
theorem interruptHeaders_le (taken : system.step config event = some next)
    (ofKernel : event.isOfKernel = true) : system.interruptHeaders ≤ next.interruptHeaders := by
  cases event with
  | createProcess | modifyMultiprogrammingDegree =>
      obtain rfl := Option.some.inj taken
      exact Nat.le_refl _
  | startPlanning | stopPlanning | finishProcess =>
      obtain ⟨kernel, _, rfl⟩ := Option.map_eq_some_iff.mp taken
      exact Nat.le_refl _
  | longTermPlanner =>
      change system.longTermPlanner = some next at taken
      rw [longTermPlanner] at taken
      split at taken
      all_goals
        obtain ⟨kernel, _, rfl⟩ := Option.map_eq_some_iff.mp taken
        exact Nat.le_refl _
  | shortTermPlanner =>
      change system.shortTermPlanner config = some next at taken
      obtain ⟨_, taken⟩ := Option.ite_none_right_eq_some.mp taken
      split at taken
      · obtain ⟨kernel, _, rfl⟩ := Option.map_eq_some_iff.mp taken
        exact Nat.le_refl _
      · obtain ⟨kernel, _, rfl⟩ := Option.map_eq_some_iff.mp taken
        exact Nat.le_refl _
      · obtain ⟨kernel, _, result⟩ := Option.map_eq_some_iff.mp taken
        split at result
        all_goals
          subst result
          exact Nat.le_refl _
      · obtain rfl := Option.some.inj taken
        exact Nat.le_succ _
  | cpuExecute | cpuReadInterrupt => cases ofKernel
  | handleDispatch =>
      simp only [step] at taken
      split at taken
      · cases taken
      · obtain ⟨kernel, _, rfl⟩ := Option.map_eq_some_iff.mp taken
        exact Nat.le_refl _
  | sleepThread index =>
      simp only [step] at taken
      split at taken
      · cases taken
      · cases taken
        exact Nat.le_refl _

end System

/-! ### Which process an interrupt hits -/

/-- Every interrupt that had set the flag, and there was one, was sent after the process's last
    `EXECUTE_PROCESS`. -/
def Preemption.Justified (preemption : Preemption) : Prop :=
  preemption.interrupts ≠ [] ∧ ∀ sent ∈ preemption.interrupts, preemption.executeProcess ≤ sent

instance (preemption : Preemption) : Decidable preemption.Justified :=
  inferInstanceAs (Decidable (_ ≠ [] ∧ ∀ sent ∈ preemption.interrupts, _ ≤ sent))

namespace CpuSystem

/-- The CPU has returned processes with `INTERRUPT` for interrupts of their own quanta only. -/
def PreemptsJustified (state : CpuSystem) : Prop :=
  ∀ preemption ∈ state.preemptions, preemption.Justified

/-- No interrupt is on the connection, or received and not raised, and the flag is cleared or going to
    be discarded by the execution that has just ended. -/
def NonePending (state : CpuSystem) : Prop :=
  state.system.interruptHeaders = 0 ∧
    state.cpu.interruptThread.position.holdsInterrupt = false ∧
    (state.cpu.globals.hasInterrupt = true → state.cpu.dispatchThread.position.discards = true)

instance (state : CpuSystem) : Decidable state.NonePending :=
  inferInstanceAs (Decidable (_ = 0 ∧ _ = false ∧ (_ = true → _ = true)))

/-- What a step of the kernel sends on the dispatch connection. -/
def sentBy (config : KernelConfig) (state : CpuSystem) (event : Event) :
    List (OperationCode × Pcb) :=
  match state.system.step config event with
  | none => []
  | some next =>
      next.kernel.cpuDispatchConnection.drop state.system.kernel.cpuDispatchConnection.length

/-- If the step sends an `EXECUTE_PROCESS`, no interrupt is pending. -/
def DispatchesUnpending (config : KernelConfig) (state : CpuSystem) : CpuSystemEvent → Prop
  | .kernel event =>
      (∃ message ∈ state.sentBy config event, message.1 = .executeProcess) → state.NonePending
  | .dispatchThread _ | .interruptThread _ => True

instance (config : KernelConfig) (state : CpuSystem) :
    ∀ event, Decidable (state.DispatchesUnpending config event)
  | .kernel event =>
      inferInstanceAs (Decidable ((∃ message ∈ state.sentBy config event, _ = _) → _))
  | .dispatchThread _ | .interruptThread _ => isTrue trivial

/-- The bookkeeping fits the state: an interrupt that is on its way, or has set a flag that will not be
    discarded, was sent after the last `EXECUTE_PROCESS`. -/
structure Current (state : CpuSystem) : Prop where
  connection : ∀ message ∈ state.system.kernel.cpuDispatchConnection, message.1.executes = true
  dispatchThread : state.cpu.dispatchThread.position.inInterruptCase = false
  interruptThread : state.cpu.interruptThread.position = .listening ∨
    state.cpu.interruptThread.position.inInterruptCase = true
  sentLength : state.sentInterrupts.length = state.system.interruptHeaders
  sent : ∀ number ∈ state.sentInterrupts, state.executeProcesses ≤ number
  received : ∀ number ∈ state.receivedInterrupts, state.executeProcesses ≤ number
  receivedHeld : state.receivedInterrupts ≠ [] ↔
    state.cpu.interruptThread.position.holdsInterrupt = true
  raised : state.cpu.dispatchThread.position.discards = false →
    ∀ number ∈ state.raisedInterrupts, state.executeProcesses ≤ number
  raisedFlag : state.raisedInterrupts ≠ [] ↔ state.cpu.globals.hasInterrupt = true
  preempting : ∀ process, state.cpu.dispatchThread.position = .preempting process →
    state.cpu.globals.hasInterrupt = true
  last : ∀ pid, state.lastExecuteProcess pid ≤ state.executeProcesses
  justified : state.PreemptsJustified

variable {config : KernelConfig} {machine : Machine} {state next : CpuSystem}
  {event : CpuSystemEvent}

theorem Current.init (config : KernelConfig) : (CpuSystem.init config).Current where
  connection := by simp [CpuSystem.init, System.init, Kernel.init]
  dispatchThread := rfl
  interruptThread := .inl rfl
  sentLength := rfl
  sent := by simp [CpuSystem.init]
  received := by simp [CpuSystem.init]
  receivedHeld := by simp [CpuSystem.init, Cpu.init, Position.holdsInterrupt]
  raised := by simp [CpuSystem.init]
  raisedFlag := by simp [CpuSystem.init, Cpu.init]
  preempting := by simp [CpuSystem.init, Cpu.init]
  last := fun _ => Nat.le_refl _
  justified := by simp [PreemptsJustified, CpuSystem.init]

/-- A message that is no `EXECUTE_PROCESS` counts nothing. -/
theorem foldl_countExecuteProcess_of_none (state : CpuSystem) {sent : List (OperationCode × Pcb)}
    (none_ : ∀ message ∈ sent, message.1 ≠ .executeProcess) :
    sent.foldl countExecuteProcess state = state := by
  induction sent with
  | nil => rfl
  | cons message sent ih =>
      rw [List.foldl_cons, countExecuteProcess, if_neg (none_ message List.mem_cons_self)]
      exact ih fun other member => none_ other (List.mem_cons_of_mem _ member)

/-- Counting changes the two counters only. -/
theorem foldl_countExecuteProcess_fields (state : CpuSystem) (sent : List (OperationCode × Pcb)) :
    (sent.foldl countExecuteProcess state).cpu = state.cpu ∧
      (sent.foldl countExecuteProcess state).sentInterrupts = state.sentInterrupts ∧
      (sent.foldl countExecuteProcess state).receivedInterrupts = state.receivedInterrupts ∧
      (sent.foldl countExecuteProcess state).raisedInterrupts = state.raisedInterrupts ∧
      (sent.foldl countExecuteProcess state).preemptions = state.preemptions := by
  induction sent generalizing state with
  | nil => exact ⟨rfl, rfl, rfl, rfl, rfl⟩
  | cons message sent ih =>
      rw [List.foldl_cons]
      have first : (state.countExecuteProcess message).cpu = state.cpu ∧
          (state.countExecuteProcess message).sentInterrupts = state.sentInterrupts ∧
          (state.countExecuteProcess message).receivedInterrupts = state.receivedInterrupts ∧
          (state.countExecuteProcess message).raisedInterrupts = state.raisedInterrupts ∧
          (state.countExecuteProcess message).preemptions = state.preemptions := by
        rw [countExecuteProcess]
        split <;> exact ⟨rfl, rfl, rfl, rfl, rfl⟩
      obtain ⟨cpu, sentSame, received, raised, preemptions⟩ :=
        ih (state.countExecuteProcess message)
      exact ⟨cpu.trans first.1, sentSame.trans first.2.1, received.trans first.2.2.1,
        raised.trans first.2.2.2.1, preemptions.trans first.2.2.2.2⟩

theorem foldl_countExecuteProcess_last (sent : List (OperationCode × Pcb))
    (last : ∀ pid, state.lastExecuteProcess pid ≤ state.executeProcesses) (pid : UInt32) :
    (sent.foldl countExecuteProcess state).lastExecuteProcess pid ≤
      (sent.foldl countExecuteProcess state).executeProcesses := by
  induction sent generalizing state with
  | nil => exact last pid
  | cons message sent ih =>
      rw [List.foldl_cons]
      apply ih
      intro pid
      have bound := last pid
      rw [countExecuteProcess]
      split
      · dsimp only
        split
        · exact Nat.le_refl _
        · omega
      · exact bound

/-- What is sent while nothing is pending, or is no `EXECUTE_PROCESS`, makes no pending interrupt
    older than the last `EXECUTE_PROCESS`. -/
theorem Current.countsUnpending {sent : List (OperationCode × Pcb)} (current : state.Current)
    (unpending : (∃ message ∈ sent, message.1 = .executeProcess) → state.NonePending) :
    (∀ number ∈ state.sentInterrupts,
        (sent.foldl countExecuteProcess state).executeProcesses ≤ number) ∧
      (∀ number ∈ state.receivedInterrupts,
        (sent.foldl countExecuteProcess state).executeProcesses ≤ number) ∧
      (state.cpu.dispatchThread.position.discards = false → ∀ number ∈ state.raisedInterrupts,
        (sent.foldl countExecuteProcess state).executeProcesses ≤ number) := by
  by_cases dispatches : ∃ message ∈ sent, message.1 = .executeProcess
  · -- Nothing is pending, so the lists are empty, or discarded with the flag.
    obtain ⟨noHeader, notHeld, flag⟩ := unpending dispatches
    have noSent : state.sentInterrupts = [] :=
      List.length_eq_zero_iff.mp (current.sentLength.trans noHeader)
    have noReceived : state.receivedInterrupts = [] := by
      by_contra some_
      rw [current.receivedHeld.mp some_] at notHeld
      cases notHeld
    rw [noSent, noReceived]
    refine ⟨by simp, by simp, fun kept number member => ?_⟩
    have set := current.raisedFlag.mp (List.ne_nil_of_mem member)
    rw [flag set] at kept
    cases kept
  · have same := foldl_countExecuteProcess_of_none state
      fun message member header => dispatches ⟨message, member, header⟩
    rw [same]
    exact ⟨current.sent, current.received, current.raised⟩

theorem Current.kernelStep {event : Event} (current : state.Current)
    (unpending : state.DispatchesUnpending config (.kernel event))
    (stepped : state.kernelStep config event = some next) : next.Current := by
  obtain ⟨ofKernel, stepped⟩ := Option.ite_none_right_eq_some.mp stepped
  obtain ⟨after, taken, rfl⟩ := Option.map_eq_some_iff.mp stepped
  obtain ⟨sent, connection, headers⟩ := (System.step_cases taken).sends ofKernel
  have more := System.interruptHeaders_le taken ofKernel
  have sentBy : state.sentBy config event = sent := by
    rw [CpuSystem.sentBy, taken]
    dsimp only
    rw [connection, List.drop_left]
  rw [DispatchesUnpending, sentBy] at unpending
  dsimp only
  rw [connection, List.drop_left]
  obtain ⟨cpu, sentSame, received, raised, preemptions⟩ :=
    foldl_countExecuteProcess_fields state sent
  have last := foldl_countExecuteProcess_last sent current.last
  obtain ⟨sentAfter, receivedAfter, raisedAfter⟩ := current.countsUnpending unpending
  exact
    { connection := by
        rw [connection]
        intro message member
        rcases List.mem_append.mp member with old | new
        · exact current.connection message old
        · exact headers message new
      dispatchThread := by rw [cpu]; exact current.dispatchThread
      interruptThread := by rw [cpu]; exact current.interruptThread
      sentLength := by
        rw [sentSame, List.length_append, List.length_replicate, current.sentLength]
        exact Nat.add_sub_of_le more
      sent := by
        rw [sentSame]
        intro number member
        rcases List.mem_append.mp member with old | new
        · exact sentAfter number old
        · exact Nat.le_of_eq (List.eq_of_mem_replicate new).symm
      received := by rw [received]; exact receivedAfter
      receivedHeld := by rw [received, cpu]; exact current.receivedHeld
      raised := by rw [raised, cpu]; exact raisedAfter
      raisedFlag := by rw [raised, cpu]; exact current.raisedFlag
      preempting := by rw [cpu]; exact current.preempting
      last := last
      justified := by
        rw [PreemptsJustified, preemptions]
        exact current.justified }

/-- What a thread receives changes nothing but where it is. -/
theorem receive_effect {globals after : Globals} {handler next : Handler} {header : OperationCode}
    {pcb : Option Pcb}
    (received : globals.handlerStep machine handler (.receive header pcb) = some (after, next)) :
    after = globals ∧ handler.position = .listening ∧
      Globals.handleKernelConnection header pcb = some next.position := by
  obtain ⟨listening, received⟩ := Option.ite_none_right_eq_some.mp received
  obtain ⟨position, handled, same⟩ := Option.map_eq_some_iff.mp received
  cases same
  exact ⟨rfl, listening, handled⟩

theorem executing_of_executes {header : OperationCode} {pcb : Pcb} {position : Position}
    (executes : header.executes = true)
    (handled : Globals.handleKernelConnection header (some pcb) = some position) :
    position = .executing pcb := by
  cases header with
  | executeProcess | waitResponse | signalResponse => exact (Option.some.inj handled).symm
  | _ => cases executes

theorem Current.receiveDispatch (current : state.Current)
    (stepped : state.receiveDispatch machine = some next) : next.Current := by
  rw [CpuSystem.receiveDispatch] at stepped
  split at stepped
  · cases stepped
  · next header pcb rest head =>
      obtain ⟨cpu, cpuStepped, rfl⟩ := Option.map_eq_some_iff.mp stepped
      obtain ⟨after, handler, taken, rfl⟩ := Cpu.step_dispatch cpuStepped
      obtain ⟨rfl, listening, handled⟩ := receive_effect taken
      have executes := current.connection (header, pcb) (by rw [head]; exact List.mem_cons_self)
      have position := executing_of_executes executes handled
      exact
        { current with
          connection := fun message member => current.connection message
            (by rw [head]; exact List.mem_cons_of_mem _ member)
          dispatchThread := by dsimp only [Cpu.withDispatch]; rw [position]; rfl
          raised := fun _ => current.raised (by rw [listening]; rfl)
          preempting := by
            dsimp only [Cpu.withDispatch]
            rw [position]
            intro process impossible
            cases impossible }

theorem Current.proceedDispatch {stale : List UInt8} (current : state.Current)
    (stepped : state.proceedDispatch machine stale = some next) : next.Current := by
  obtain ⟨cpu, cpuStepped, rfl⟩ := Option.map_eq_some_iff.mp stepped
  obtain ⟨after, handler, taken, rfl⟩ := Cpu.step_dispatch cpuStepped
  have effect := proceed_flagEffect taken
  generalize position : state.cpu.dispatchThread.position = before at effect
  generalize leads : handler.position = reached at effect
  dsimp only
  cases effect with
  | preempts process cleared =>
      have raised := current.raised (by rw [position]; rfl)
      have some_ := current.raisedFlag.mpr (current.preempting process position)
      exact
        { current with
          dispatchThread := by dsimp only [Cpu.withDispatch]; rw [leads]; rfl
          raised := by simp [recordDispatch]
          raisedFlag := by simp [recordDispatch, Cpu.withDispatch, cleared]
          preempting := by simp [Cpu.withDispatch, leads]
          justified := by
            intro preemption member
            rcases List.mem_append.mp member with old | new
            · exact current.justified preemption old
            · obtain rfl := List.mem_singleton.mp new
              exact ⟨some_, fun number inRaised =>
                (current.last process.pid).trans (raised number inRaised)⟩ }
  | discards cleared =>
      exact
        { current with
          dispatchThread := by dsimp only [Cpu.withDispatch]; rw [leads]; rfl
          raised := by simp [recordDispatch]
          raisedFlag := by simp [recordDispatch, Cpu.withDispatch, cleared]
          preempting := by simp [Cpu.withDispatch, leads] }
  | raises =>
      have outside := current.dispatchThread
      rw [position] at outside
      cases outside
  | keeps same other discarded preempts holds stays enters =>
      have unrecorded : state.recordDispatch before = state := by
        cases before with
        | preempting process => exact absurd rfl (other.1 process)
        | clearing => exact absurd rfl other.2.1
        | _ => rfl
      rw [unrecorded]
      exact
        { current with
          dispatchThread := by
            dsimp only [Cpu.withDispatch]
            have outside := current.dispatchThread
            rw [position] at outside
            rw [leads]
            cases entered : reached.inInterruptCase with
            | false => rfl
            | true => rw [enters entered] at outside; cases outside
          raised := by
            dsimp only [Cpu.withDispatch]
            rw [leads]
            intro kept number member
            cases discarding : before.discards with
            | false => exact current.raised (by rw [position]; exact discarding) number member
            | true =>
                have set := current.raisedFlag.mp (List.ne_nil_of_mem member)
                rw [discarded discarding kept] at set
                cases set
          raisedFlag := by
            dsimp only [Cpu.withDispatch]
            rw [same]
            exact current.raisedFlag
          preempting := by
            dsimp only [Cpu.withDispatch]
            rw [leads, same]
            exact preempts }

theorem Current.receiveInterrupt (current : state.Current)
    (stepped : state.receiveInterrupt machine = some next) : next.Current := by
  obtain ⟨some_, stepped⟩ := Option.ite_none_right_eq_some.mp stepped
  obtain ⟨cpu, cpuStepped, rfl⟩ := Option.map_eq_some_iff.mp stepped
  obtain ⟨after, handler, taken, rfl⟩ := Cpu.step_interrupt cpuStepped
  obtain ⟨rfl, listening, handled⟩ := receive_effect taken
  have position : handler.position = .interrupting := (Option.some.inj handled).symm
  exact
    { current with
      interruptThread := .inr (by dsimp only [Cpu.withInterrupt]; rw [position]; rfl)
      sentLength := by
        dsimp only
        rw [List.length_tail, current.sentLength]
      sent := fun number member => current.sent number (List.mem_of_mem_tail member)
      received := fun number member => current.sent number (List.mem_of_mem_take member)
      receivedHeld := by
        have length := current.sentLength
        dsimp only [Cpu.withInterrupt]
        rw [position]
        refine ⟨fun _ => rfl, fun _ empty => ?_⟩
        have none_ := congrArg List.length empty
        rw [List.length_take, List.length_nil] at none_
        omega }

theorem Current.proceedInterrupt {stale : List UInt8} (current : state.Current)
    (notListening : state.cpu.interruptThread.position ≠ .listening)
    (stepped : state.proceedInterrupt machine stale = some next) : next.Current := by
  obtain ⟨cpu, cpuStepped, rfl⟩ := Option.map_eq_some_iff.mp stepped
  obtain ⟨after, handler, taken, rfl⟩ := Cpu.step_interrupt cpuStepped
  have effect := proceed_flagEffect taken
  have inCase := current.interruptThread.resolve_left notListening
  generalize position : state.cpu.interruptThread.position = before at effect inCase
  generalize leads : handler.position = reached at effect
  cases effect with
  | preempts | discards => cases inCase
  | raises set =>
      have some_ := current.receivedHeld.mpr (by rw [position]; rfl)
      rw [if_pos rfl]
      exact
        { current with
          interruptThread := .inr (by dsimp only [Cpu.withInterrupt]; rw [leads]; rfl)
          received := by simp
          receivedHeld := by simp [Cpu.withInterrupt, leads, Position.holdsInterrupt]
          raised := by
            intro kept number member
            rcases List.mem_append.mp member with old | new
            · exact current.raised kept number old
            · exact current.received number new
          raisedFlag := by simp [Cpu.withInterrupt, set, some_]
          preempting := fun _ _ => set }
  | keeps same other discarded preempts holds stays enters =>
      rw [if_neg other.2.2]
      exact
        { current with
          interruptThread := by
            dsimp only [Cpu.withInterrupt]
            rw [leads]
            exact stays inCase
          receivedHeld := by
            dsimp only [Cpu.withInterrupt]
            rw [leads, holds, ← position]
            exact current.receivedHeld
          raisedFlag := by
            dsimp only [Cpu.withInterrupt]
            rw [same]
            exact current.raisedFlag
          preempting := by
            dsimp only [Cpu.withInterrupt]
            rw [same]
            exact current.preempting }

theorem Current.step (current : state.Current) (unpending : state.DispatchesUnpending config event)
    (stepped : state.step config machine event = some next) : next.Current := by
  cases event with
  | kernel event => exact current.kernelStep unpending stepped
  | dispatchThread stale =>
      rw [CpuSystem.step] at stepped
      split at stepped
      · exact current.receiveDispatch stepped
      · exact current.proceedDispatch stepped
  | interruptThread stale =>
      rw [CpuSystem.step] at stepped
      split at stepped
      · exact current.receiveInterrupt stepped
      · next notListening => exact current.proceedInterrupt notListening stepped

end CpuSystem

/-- If no interrupt is pending whenever a process is dispatched, the CPU returns a process with
    `INTERRUPT` only for interrupts that the kernel sent after that process's last `EXECUTE_PROCESS`. -/
theorem run_preempts_justified (config : KernelConfig) (machine : Machine)
    (events : List CpuSystemEvent) (state : CpuSystem)
    (unpending : Meets (CpuSystem.step config machine) (CpuSystem.DispatchesUnpending config)
      (CpuSystem.init config) events)
    (reaches : run (CpuSystem.step config machine) (CpuSystem.init config) events = some state) :
    state.PreemptsJustified := by
  have current : state.Current := by
    apply invariant_of_guarded_run CpuSystem.Current ?_ (CpuSystem.Current.init config) unpending
      reaches
    intro state event next current unpending stepped
    exact current.step unpending stepped
  exact current.justified

/-! ### Two processes in turn -/

/-- Round robin without resources. -/
def roundRobinConfig : KernelConfig where
  planningAlgorithm := "ROUND_ROBIN"
  resources := []
  multiprogrammingDegree := 2
  priority := fun _ => 0

/-- Two processes are created and admitted, and the first one is dispatched and taken by the CPU. -/
def dispatchFirstOfTwo : List CpuSystemEvent :=
  [.kernel (.createProcess "EXITS" 0 4), .kernel (.createProcess "EXITS" 0 5),
    .kernel .startPlanning] ++
  List.replicate 6 (.kernel .longTermPlanner) ++ List.replicate 3 (.kernel .shortTermPlanner) ++
  [.dispatchThread []]

/-- The quantum expires, and the interrupt thread receives the interrupt and raises it. -/
def quantumExpires : List CpuSystemEvent :=
  .kernel .shortTermPlanner :: List.replicate 4 (.interruptThread [])

/-- The quantum expires during the first instruction, and the process is dispatched again after the
    other one. -/
theorem run_preempts_justified_ownQuantum :
    ∃ state, run (CpuSystem.step roundRobinConfig exitingMachine) (CpuSystem.init roundRobinConfig)
        (dispatchFirstOfTwo ++ .dispatchThread [] :: quantumExpires ++
          List.replicate 4 (.dispatchThread []) ++ .kernel .handleDispatch ::
          List.replicate 3 (.kernel .shortTermPlanner)) = some state ∧
      state.preemptions.length = 1 ∧ state.PreemptsJustified := by
  have reaches : (run (CpuSystem.step roundRobinConfig exitingMachine)
      (CpuSystem.init roundRobinConfig)
      (dispatchFirstOfTwo ++ .dispatchThread [] :: quantumExpires ++
        List.replicate 4 (.dispatchThread []) ++ .kernel .handleDispatch ::
        List.replicate 3 (.kernel .shortTermPlanner))).map (·.preemptions.length) = some 1 := by
    decide +kernel
  obtain ⟨state, reaches, one⟩ := Option.map_eq_some_iff.mp reaches
  exact ⟨state, reaches, one,
    run_preempts_justified roundRobinConfig exitingMachine _ state (by decide +kernel) reaches⟩

/-- The first process exits, the interrupt of its quantum is raised, and the second process is returned
    after its first instruction. -/
theorem run_preempts_next_process :
    ∃ state, run (CpuSystem.step roundRobinConfig exitingMachine) (CpuSystem.init roundRobinConfig)
        (dispatchFirstOfTwo ++ List.replicate 8 (.dispatchThread []) ++
          .kernel .handleDispatch :: quantumExpires ++
          List.replicate 3 (.kernel .shortTermPlanner) ++ List.replicate 5 (.dispatchThread [])) =
        some state ∧ ¬ state.PreemptsJustified := by
  have reaches : (run (CpuSystem.step roundRobinConfig exitingMachine)
      (CpuSystem.init roundRobinConfig)
      (dispatchFirstOfTwo ++ List.replicate 8 (.dispatchThread []) ++
        .kernel .handleDispatch :: quantumExpires ++
        List.replicate 3 (.kernel .shortTermPlanner) ++
        List.replicate 5 (.dispatchThread []))).map CpuSystem.preemptions =
      some [{ pid := 1, executeProcess := 2, interrupts := [1] }] := by
    decide +kernel
  obtain ⟨state, reaches, preemptions⟩ := Option.map_eq_some_iff.mp reaches
  refine ⟨state, reaches, fun justified => ?_⟩
  have second := justified { pid := 1, executeProcess := 2, interrupts := [1] }
    (by rw [preemptions]; exact List.mem_cons_self)
  revert second
  decide

end OsSimulator
