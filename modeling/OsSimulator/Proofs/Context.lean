/-
Module: OsSimulator.Proofs.Context
Purpose: When a process goes on where it stopped.  The copy that waits to be executed again is the one
  of the CPU's message after an INTERRUPT and a SLEEP, but the one of `queue_exec` after a WAIT that
  blocks; the context is kept exactly as long as the two agree there.
Main exports: Context, expectedContext, System.SendsContext, System.KeepsContext,
  run_sends_context, run_resumes_with_stale_context
-/
import OsSimulator.Kernel.ThreadArguments
import OsSimulator.Proofs.Tokens

namespace OsSimulator

open Transition

/-- What a process needs to go on: its registers, its resources and its program counter. -/
structure Context where
  cpuRegister : List (BitVec 64)
  resources : List String
  programCounter : Int32
deriving DecidableEq, Repr

/-- The context that a PCB carries. -/
def Pcb.context (pcb : Pcb) : Context where
  cpuRegister := pcb.cpuRegister
  resources := pcb.resources
  programCounter := pcb.programCounter

@[simp] theorem Pcb.context_setState (pcb : Pcb) (state : ProcessState) :
    (pcb.setState state).context = pcb.context := rfl

/-- Where a process goes on after a message that ends its turn without finishing it: at the same
    instruction, or at the next one after a SLEEP. -/
def CpuRequest.resumeAt (programCounter : Int32) : CpuRequest → Option Int32
  | .interrupt | .wait _ => some programCounter
  | .sleep _ => some (programCounter + 1)
  | .finish | .signal _ => none

/-- The context that the next `EXECUTE_PROCESS` of a process has to carry: that of the last PCB the
    CPU sent for it, changed by the grants and releases since.  The newest event is first. -/
def expectedContext (pid : UInt32) : List KernelEvent → Option Context
  | [] => none
  | .received message :: earlier =>
      if message.pcb.pid = pid then
        (message.request.resumeAt message.pcb.programCounter).map fun programCounter =>
          { message.pcb.context with programCounter := programCounter }
      else
        expectedContext pid earlier
  | .granted holder resource :: earlier =>
      if holder = pid then
        (expectedContext pid earlier).map fun context =>
          { context with resources := context.resources ++ [resource] }
      else
        expectedContext pid earlier
  | .released holder resource :: earlier =>
      if holder = pid then
        (expectedContext pid earlier).map fun context =>
          { context with resources := context.resources.erase resource }
      else
        expectedContext pid earlier
  | _ :: earlier => expectedContext pid earlier

namespace KernelEvent

/-- The pid of a line about an `EXECUTE_PROCESS`. -/
def executedPid? : KernelEvent → Option UInt32
  | .sentToCpu .executeProcess pcb => some pcb.pid
  | _ => none

/-- The line changes the context that is expected of the process. -/
def Concerns (pid : UInt32) : KernelEvent → Prop
  | .received message => message.pcb.pid = pid
  | .granted holder _ | .released holder _ => holder = pid
  | _ => False

end KernelEvent

/-- Lines about other processes do not change what is expected. -/
theorem expectedContext_append {pid : UInt32} {lines earlier : List KernelEvent}
    (others : ∀ line ∈ lines, ¬ line.Concerns pid) :
    expectedContext pid (lines ++ earlier) = expectedContext pid earlier := by
  induction lines with
  | nil => rfl
  | cons line lines ih =>
      have rest := ih fun other member => others other (List.mem_cons_of_mem _ member)
      have other := others line List.mem_cons_self
      cases line with
      | received message =>
          have different : message.pcb.pid ≠ pid := other
          simp [expectedContext, different, rest]
      | granted holder resource =>
          have different : holder ≠ pid := other
          simp [expectedContext, different, rest]
      | released holder resource =>
          have different : holder ≠ pid := other
          simp [expectedContext, different, rest]
      | _ => exact rest

namespace Kernel

/-- The processes that have been sent to the CPU with `EXECUTE_PROCESS`. -/
def executed (kernel : Kernel) : List UInt32 := kernel.trace.filterMap KernelEvent.executedPid?

/-- The processes that wait in `queue_ready` or in a blocked queue. -/
def waiting (kernel : Kernel) : List Pcb := kernel.queueReady ++ kernel.listOfQueueBlocked.flatten

/-- If a WAIT blocks, the head of `queue_exec` is the process that asked, with the context it has in
    the message. -/
def BlocksCurrent (kernel : Kernel) (message : Message) : Prop :=
  message.request.BlocksOnWait kernel →
    ∀ process ∈ kernel.queueExec.head?,
      process.pid = message.pcb.pid ∧ process.context = message.pcb.context

instance (kernel : Kernel) (message : Message) : Decidable (kernel.BlocksCurrent message) :=
  inferInstanceAs (Decidable (_ → ∀ process ∈ kernel.queueExec.head?, _))

end Kernel

namespace System

/-- The pid is fresh, and a WAIT that blocks finds its own process with its current context. -/
def KeepsContext (system : System) : Event → Prop
  | .createProcess .. => system.kernel.idToAssign ∉ system.kernel.created
  | .handleDispatch => ∀ message ∈ system.cpuMessages.head?, system.kernel.BlocksCurrent message
  | _ => True

instance (system : System) : ∀ event, Decidable (system.KeepsContext event)
  | .createProcess .. => inferInstanceAs (Decidable (_ ∉ _))
  | .handleDispatch =>
      inferInstanceAs (Decidable (∀ message ∈ system.cpuMessages.head?,
        system.kernel.BlocksCurrent message))
  | .finishProcess _ | .startPlanning | .stopPlanning | .modifyMultiprogrammingDegree _
  | .longTermPlanner | .shortTermPlanner | .cpuExecute .. | .cpuReadInterrupt
  | .sleepThread _ => isTrue trivial

theorem KeepsContext.createsFresh {system : System} {event : Event}
    (keeps : system.KeepsContext event) : system.CreatesFresh event := by
  cases event <;> first | exact keeps | trivial

/-- What holds along the runs that keep the context: there is one copy of each process to execute,
    and it has the context that is expected. -/
structure ContextKept (config : KernelConfig) (system : System) : Prop
    extends KnowsPids config system where
  once : ∀ pid, system.tokens pid ≤ 1
  notExecuted : ∀ process ∈ system.kernel.queueNew, process.pid ∉ system.kernel.executed
  executed : ∀ pid ∈ system.kernel.executed, pid ∈ system.kernel.created
  waiting : ∀ process ∈ system.kernel.waiting, process.pid ∈ system.kernel.executed →
    expectedContext process.pid system.kernel.trace = some process.context
  sleeping : ∀ thread ∈ system.kernel.sleepThreads,
    expectedContext thread.process.pid system.kernel.trace =
      some { thread.process.context with
        programCounter := thread.process.programCounter + 1 }

end System

/-! ### Where the waiting copies come from -/

namespace Kernel

variable {config : KernelConfig} {kernel next : Kernel}

/-- A finish leaves waiting what was waiting, with the same contexts. -/
theorem waiting_finishProcess {pid : UInt32} {process : Pcb}
    (finished : kernel.finishProcess pid = some next) (member : process ∈ next.waiting) :
    ∃ old ∈ kernel.waiting, old.pid = process.pid ∧ old.context = process.context := by
  rcases finishProcess_cases finished with ⟨_, rfl⟩ | ⟨id, found, woken, middle, finishes⟩
  · exact ⟨process, by simpa [waiting] using member, rfl, rfl⟩
  · obtain ⟨_, ready, _, blocked⟩ := finishes.mem process
    rcases List.mem_append.mp member with inReady | inBlocked
    · rcases ready inReady with old | fresh
      · exact ⟨process, List.mem_append_left _ old, rfl, rfl⟩
      · obtain ⟨old, wasBlocked, rfl⟩ := finishes.origin fresh
        exact ⟨old, List.mem_append_right _ wasBlocked, rfl, rfl⟩
    · exact ⟨process, List.mem_append_right _ (blocked inBlocked), rfl, rfl⟩

/-- The lines of a finish concern no context. -/
theorem lines_finishProcess {finishedPid : UInt32}
    (finished : kernel.finishProcess finishedPid = some next) :
    ∃ lines, next.trace = lines ++ kernel.trace ∧ ∀ pid, ∀ line ∈ lines, ¬ line.Concerns pid := by
  rcases finishProcess_cases finished with ⟨_, rfl⟩ | ⟨id, found, woken, middle, finishes⟩
  · refine ⟨[.notFound finishedPid], by simp, ?_⟩
    intro pid line member
    rw [List.mem_singleton.mp member]
    exact id
  · obtain ⟨lines, trace, kind⟩ := finishes.trace
    refine ⟨.sentToMemory .finishProcess (found.setState .exit) :: .finished finishedPid :: lines,
      trace, ?_⟩
    intro pid line member
    simp only [List.mem_cons] at member
    rcases member with rfl | rfl | woken
    · exact not_false
    · exact not_false
    · obtain ⟨_, _, rfl⟩ := kind line woken
      exact not_false

theorem executed_finishProcess {pid : UInt32} (finished : kernel.finishProcess pid = some next) :
    next.executed = kernel.executed :=
  filterMap_finishProcess ⟨fun _ _ => rfl, fun _ => rfl, fun _ => rfl, fun _ _ => rfl⟩ finished

/-- The handler answers a process, but executes none. -/
theorem executed_dispatchEffect {message : Message} (effect : DispatchEffect message kernel next) :
    next.executed = kernel.executed := by
  cases effect with
  | finishes _ finished =>
      rw [executed_finishProcess finished]
      simp [executed, KernelEvent.executedPid?, List.filterMap_cons]
  | interrupts _ result =>
      subst result
      simp [executed, handleInterrupt, queuePush, KernelEvent.executedPid?, List.filterMap_cons]
  | grants _ _ _ _ result =>
      subst result
      simp [executed, removeResourceInstance, KernelEvent.executedPid?, List.filterMap_cons]
  | blocks _ _ _ _ _ _ _ lines kind result =>
      subst result
      have silent : lines.filterMap KernelEvent.executedPid? = [] := by
        apply List.filterMap_eq_nil_iff.mpr
        intro line member
        obtain ⟨pid, retained, required, rfl⟩ := kind line member
        rfl
      simp [executed, silent, KernelEvent.executedPid?, List.filterMap_cons]
  | releases _ _ _ _ result =>
      subst result
      simp [executed, addResourceInstance, KernelEvent.executedPid?, List.filterMap_cons]
  | sleeps _ _ result =>
      subst result
      simp [executed, handleSleepInterruption, KernelEvent.executedPid?, List.filterMap_cons]

/-- A message about another process concerns nothing else. -/
theorem lines_dispatchEffect {message : Message} (effect : DispatchEffect message kernel next) :
    ∃ lines, next.trace = lines ++ kernel.trace ∧
      ∀ pid, message.pcb.pid ≠ pid → ∀ line ∈ lines, ¬ line.Concerns pid := by
  cases effect with
  | finishes _ finished =>
      obtain ⟨lines, grown, others⟩ := lines_finishProcess finished
      refine ⟨lines ++ [.received message], by simp [grown], ?_⟩
      intro pid different line member
      rcases List.mem_append.mp member with old | new
      · exact others pid line old
      · rw [List.mem_singleton.mp new]
        exact different
  | interrupts _ result =>
      subst result
      refine ⟨[.received message], by simp [handleInterrupt, queuePush], ?_⟩
      intro pid different line member
      rw [List.mem_singleton.mp member]
      exact different
  | grants resource _ _ _ result =>
      subst result
      refine ⟨[.sentToCpu .waitResponse _, .granted message.pcb.pid resource, .received message],
        by simp [removeResourceInstance]; rfl, ?_⟩
      intro pid different line member
      simp only [List.mem_cons, List.not_mem_nil, or_false] at member
      rcases member with rfl | rfl | rfl
      · exact not_false
      · exact different
      · exact different
  | blocks resource process rest _ _ _ _ lines kind result =>
      subst result
      refine ⟨lines ++ [.execToBlocked process.pid, .received message], by simp, ?_⟩
      intro pid different line member
      simp only [List.mem_append, List.mem_cons, List.not_mem_nil, or_false] at member
      rcases member with deadlock | rfl | rfl
      · obtain ⟨_, _, _, rfl⟩ := kind line deadlock
        exact not_false
      · exact not_false
      · exact different
  | releases resource _ _ _ result =>
      subst result
      refine ⟨[.sentToCpu .signalResponse _, .released message.pcb.pid resource,
        .received message], by simp [addResourceInstance]; rfl, ?_⟩
      intro pid different line member
      simp only [List.mem_cons, List.not_mem_nil, or_false] at member
      rcases member with rfl | rfl | rfl
      · exact not_false
      · exact different
      · exact different
  | sleeps _ _ result =>
      subst result
      refine ⟨[.received message], by simp [handleSleepInterruption], ?_⟩
      intro pid different line member
      rw [List.mem_singleton.mp member]
      exact different

/-- What waits after a message waited before, or the message ended the turn of its process: an
    INTERRUPT leaves the PCB of the message, a WAIT that blocks the one at the head of
    `queue_exec`.  Either way the context of the message is expected from then on. -/
theorem waiting_dispatchEffect {message : Message} (shape : kernel.Shape config)
    (effect : DispatchEffect message kernel next) {process : Pcb}
    (member : process ∈ next.waiting) (blocks : kernel.BlocksCurrent message) :
    (∃ old ∈ kernel.waiting, old.pid = process.pid ∧ old.context = process.context) ∨
      (process.pid = message.pcb.pid ∧
        expectedContext process.pid next.trace = some process.context) := by
  cases effect with
  | finishes _ finished =>
      obtain ⟨old, inLog, same⟩ := waiting_finishProcess finished member
      exact .inl ⟨old, by simpa [waiting] using inLog, same⟩
  | interrupts requested result =>
      subst result
      simp only [waiting, handleInterrupt, queuePush, semPost_fields, setQueue_ready,
        setQueue_exec, queue_ready, log_fields, List.mem_append, List.mem_singleton] at member
      rcases member with (old | rfl) | old
      · exact .inl ⟨process, List.mem_append_left _ old, rfl, rfl⟩
      · refine .inr ⟨rfl, ?_⟩
        simp [handleInterrupt, queuePush, expectedContext, requested, CpuRequest.resumeAt,
          Pcb.context]
      · exact .inl ⟨process, List.mem_append_right _ old, rfl, rfl⟩
  | grants _ _ _ _ result =>
      subst result
      exact .inl ⟨process, by simpa [waiting, removeResourceInstance] using member, rfl, rfl⟩
  | blocks resource taken rest requested valid unavailable head lines kind result =>
      subst result
      rcases List.mem_append.mp member with inReady | inBlocked
      · exact .inl ⟨process, List.mem_append_left _ (by simpa using inReady), rfl, rfl⟩
      · have at_index := getElem?_getQueueBlocked shape valid
        rcases mem_pushBlocked (by simpa using at_index) inBlocked with old | rfl
        · exact .inl ⟨process, List.mem_append_right _ (by simpa using old), rfl, rfl⟩
        · have blocksOnWait : message.request.BlocksOnWait kernel := by
            simp [requested, CpuRequest.BlocksOnWait, valid, unavailable]
          obtain ⟨samePid, sameContext⟩ := blocks blocksOnWait taken (by simp [head])
          refine .inr ⟨samePid, ?_⟩
          have silent : ∀ line ∈ lines ++ [.execToBlocked taken.pid],
              ¬ line.Concerns (taken.setState .blocked).pid := by
            intro line inLines
            rcases List.mem_append.mp inLines with deadlock | moved
            · obtain ⟨_, _, _, rfl⟩ := kind line deadlock
              exact not_false
            · rw [List.mem_singleton.mp moved]
              exact not_false
          have split : lines ++ .execToBlocked taken.pid :: .received message :: kernel.trace =
              (lines ++ [.execToBlocked taken.pid]) ++ (.received message :: kernel.trace) := by
            simp
          simp only [split]
          rw [expectedContext_append silent, Pcb.context_setState, sameContext]
          simp [expectedContext, samePid, requested, CpuRequest.resumeAt, Pcb.context]
  | releases _ _ _ _ result =>
      subst result
      exact .inl ⟨process, by simpa [waiting, addResourceInstance] using member, rfl, rfl⟩
  | sleeps _ _ result =>
      subst result
      exact .inl ⟨process, by simpa [waiting, handleSleepInterruption] using member, rfl, rfl⟩

/-- A sleep thread that is new holds the PCB of a SLEEP message. -/
theorem sleepThreads_dispatchEffect {message : Message}
    (effect : DispatchEffect message kernel next) {thread : SleepThread}
    (member : thread ∈ next.sleepThreads) :
    thread ∈ kernel.sleepThreads ∨
      ∃ time, message.request = .sleep time ∧ thread.process = message.pcb ∧
        expectedContext thread.process.pid next.trace =
          some { thread.process.context with
            programCounter := thread.process.programCounter + 1 } := by
  cases effect with
  | finishes _ finished =>
      rw [(threads_finishProcess finished).1] at member
      exact .inl (by simpa using member)
  | interrupts _ result => subst result; exact .inl (by simpa [handleInterrupt, queuePush] using member)
  | grants _ _ _ _ result => subst result; exact .inl (by simpa [removeResourceInstance] using member)
  | blocks _ _ _ _ _ _ _ _ _ result => subst result; exact .inl (by simpa using member)
  | releases _ _ _ _ result => subst result; exact .inl (by simpa [addResourceInstance] using member)
  | sleeps time requested result =>
      subst result
      simp only [handleSleepInterruption, semPost_fields, log_fields, List.mem_append,
        List.mem_singleton] at member
      rcases member with old | rfl
      · exact .inl old
      · refine .inr ⟨time, requested, rfl, ?_⟩
        simp [handleSleepInterruption, expectedContext, requested, CpuRequest.resumeAt,
          Pcb.context]

end Kernel

/-! ### The steps of the system -/

namespace System

variable {config : KernelConfig} {system next : System}

/-- Only a dispatch executes a process. -/
theorem StepEffect.executed {event : Event} (effect : StepEffect config system next event) :
    next.kernel.executed = system.kernel.executed ∨
      ∃ process rest, Dispatches system next process rest ∧
        next.kernel.executed = process.pid :: system.kernel.executed := by
  cases effect with
  | creates path quantum clientSocket result =>
      subst result
      refine .inl ?_
      simp [Kernel.executed, Kernel.receivePcbAndCreate, Kernel.moveProcessToNew,
        Kernel.queuePush, Kernel.sendToMemory, KernelEvent.executedPid?, List.filterMap_cons]
  | finishes _ _ finished result =>
      subst result
      exact .inl (Kernel.executed_finishProcess finished)
  | modifies newDegree result =>
      subst result
      obtain ⟨_, _, _, _, _, _, _, _, _, logged, _⟩ :=
        system.kernel.modifyMultiprogrammingDegree_fields newDegree
      refine .inl ?_
      simp [Kernel.executed, logged, KernelEvent.executedPid?, List.filterMap_cons]
  | plans _ quiet => exact .inl (by simp only [Kernel.executed, quiet.trace])
  | admits _ _ admits =>
      refine .inl ?_
      simp [Kernel.executed, admits.trace, KernelEvent.executedPid?, List.filterMap_cons]
  | dispatches process rest dispatches =>
      refine .inr ⟨process, rest, dispatches, ?_⟩
      simp [Kernel.executed, dispatches.trace, KernelEvent.executedPid?]
  | executes _ _ _ _ _ _ _ result => subst result; exact .inl rfl
  | handles _ _ _ _ effect result =>
      subst result
      exact .inl (Kernel.executed_dispatchEffect effect)
  | sleepStarts _ _ _ _ result => subst result; exact .inl rfl
  | sleepEnds _ thread _ sleeping result =>
      subst result
      exact .inl (by simp [Kernel.executed, Kernel.sleepThreadStep, sleeping, Kernel.queuePush])

/-- What has been executed, and is not what the step dispatches, was executed before. -/
theorem StepEffect.executed_before {event : Event} {pid : UInt32}
    (effect : StepEffect config system next event) (executed : pid ∈ next.kernel.executed)
    (other : ∀ {process rest}, Dispatches system next process rest → pid ≠ process.pid) :
    pid ∈ system.kernel.executed := by
  rcases effect.executed with same | ⟨process, rest, dispatches, grown⟩
  · rwa [same] at executed
  · rw [grown] at executed
    exact (List.mem_cons.mp executed).resolve_left (other dispatches)

/-- Only the handling of a message about a process changes what is expected of it. -/
theorem StepEffect.expectedContext {event : Event} (effect : StepEffect config system next event)
    {pid : UInt32}
    (others : event = .handleDispatch → ∀ message ∈ system.cpuMessages.head?,
      message.pcb.pid ≠ pid) :
    expectedContext pid next.kernel.trace = expectedContext pid system.kernel.trace := by
  cases effect with
  | creates path quantum clientSocket result =>
      subst result
      simp [Kernel.receivePcbAndCreate, Kernel.moveProcessToNew, Kernel.queuePush,
        Kernel.sendToMemory, OsSimulator.expectedContext]
  | finishes _ _ finished result =>
      subst result
      obtain ⟨lines, grown, silent⟩ := Kernel.lines_finishProcess finished
      simp only [grown]
      exact expectedContext_append (silent pid)
  | modifies newDegree result =>
      subst result
      obtain ⟨_, _, _, _, _, _, _, _, _, logged, _⟩ :=
        system.kernel.modifyMultiprogrammingDegree_fields newDegree
      simp [logged, OsSimulator.expectedContext]
  | plans _ quiet => rw [quiet.trace]
  | admits _ _ admits => simp [admits.trace, OsSimulator.expectedContext]
  | dispatches _ _ dispatches => simp [dispatches.trace, OsSimulator.expectedContext]
  | executes _ _ _ _ _ _ _ result => subst result; rfl
  | handles message _ _ head effect result =>
      subst result
      obtain ⟨lines, grown, silent⟩ := Kernel.lines_dispatchEffect effect
      simp only [grown]
      apply expectedContext_append
      apply silent
      exact others rfl message (by simp [head])
  | sleepStarts _ _ _ _ result => subst result; rfl
  | sleepEnds _ thread _ sleeping result =>
      subst result
      simp [Kernel.sleepThreadStep, sleeping, Kernel.queuePush]

/-- Where a waiting PCB comes from: it waited before, was admitted, ended its turn with the message
    that is handled, or slept. -/
theorem StepEffect.waiting {event : Event} (shape : system.kernel.Shape config)
    (effect : StepEffect config system next event)
    (blocks : event = .handleDispatch →
      ∀ message ∈ system.cpuMessages.head?, system.kernel.BlocksCurrent message)
    {process : Pcb} (member : process ∈ next.kernel.waiting) :
    (∃ old ∈ system.kernel.waiting, old.pid = process.pid ∧ old.context = process.context) ∨
      (∃ admitted rest, Admits system next admitted rest ∧ admitted.pid = process.pid) ∨
      (event = .handleDispatch ∧
        OsSimulator.expectedContext process.pid next.kernel.trace = some process.context) ∨
      ∃ thread ∈ system.kernel.sleepThreads, event ≠ .handleDispatch ∧
        thread.process.pid = process.pid ∧
        process.context = { thread.process.context with
          programCounter := thread.process.programCounter + 1 } := by
  cases effect with
  | creates _ _ _ result =>
      subst result
      exact .inl ⟨process, by simpa [Kernel.waiting, Kernel.receivePcbAndCreate,
        Kernel.moveProcessToNew, Kernel.queuePush, Kernel.sendToMemory] using member, rfl, rfl⟩
  | finishes _ _ finished result =>
      subst result
      exact .inl (Kernel.waiting_finishProcess finished member)
  | modifies newDegree result =>
      subst result
      obtain ⟨_, ready, _, blocked, _⟩ :=
        system.kernel.modifyMultiprogrammingDegree_fields newDegree
      refine .inl ⟨process, ?_, rfl, rfl⟩
      simpa only [Kernel.waiting, ready, blocked] using member
  | plans _ quiet =>
      refine .inl ⟨process, ?_, rfl, rfl⟩
      simpa only [Kernel.waiting, quiet.queueReady, quiet.listOfQueueBlocked] using member
  | admits admitted rest admits =>
      simp only [Kernel.waiting, admits.queueReady, admits.listOfQueueBlocked, List.mem_append,
        List.mem_singleton] at member
      rcases member with (old | rfl) | old
      · exact .inl ⟨process, List.mem_append_left _ old, rfl, rfl⟩
      · exact .inr (.inl ⟨admitted, rest, admits, rfl⟩)
      · exact .inl ⟨process, List.mem_append_right _ old, rfl, rfl⟩
  | dispatches _ _ dispatches =>
      simp only [Kernel.waiting, dispatches.queueReady, dispatches.listOfQueueBlocked,
        List.mem_append] at member
      rcases member with old | old
      · have inReady := dispatches.perm.subset (List.mem_cons_of_mem _ old)
        exact .inl ⟨process, List.mem_append_left _ inReady, rfl, rfl⟩
      · exact .inl ⟨process, List.mem_append_right _ old, rfl, rfl⟩
  | executes _ _ _ _ _ _ _ result => subst result; exact .inl ⟨process, member, rfl, rfl⟩
  | handles message _ _ head effect result =>
      subst result
      rcases Kernel.waiting_dispatchEffect shape effect member
        (blocks rfl message (by simp [head])) with old | ⟨_, expected⟩
      · exact .inl old
      · exact .inr (.inr (.inl ⟨rfl, expected⟩))
  | sleepStarts _ _ _ _ result => subst result; exact .inl ⟨process, member, rfl, rfl⟩
  | sleepEnds index thread at_index sleeping result =>
      subst result
      simp only [Kernel.waiting, Kernel.sleepThreadStep, sleeping, Kernel.queuePush,
        Kernel.semPost_fields, Kernel.setQueue_ready, Kernel.queue_ready, List.mem_append,
        List.mem_singleton] at member
      rcases member with (old | rfl) | old
      · exact .inl ⟨process, List.mem_append_left _ old, rfl, rfl⟩
      · exact .inr (.inr (.inr ⟨thread, List.mem_of_getElem? at_index, by simp, rfl, rfl⟩))
      · exact .inl ⟨process, List.mem_append_right _ old, rfl, rfl⟩

/-- A sleep thread holds the PCB it was started with, that of a SLEEP message. -/
theorem StepEffect.sleepThreads {event : Event} (effect : StepEffect config system next event)
    {thread : SleepThread} (member : thread ∈ next.kernel.sleepThreads) :
    (∃ old ∈ system.kernel.sleepThreads, old.process = thread.process) ∨
      ∃ message ∈ system.cpuMessages.head?, ∃ time, message.request = .sleep time ∧
        thread.process = message.pcb ∧
        OsSimulator.expectedContext thread.process.pid next.kernel.trace =
          some { thread.process.context with
            programCounter := thread.process.programCounter + 1 } := by
  cases effect with
  | creates _ _ _ result =>
      subst result
      exact .inl ⟨thread, by simpa [Kernel.receivePcbAndCreate, Kernel.moveProcessToNew,
        Kernel.queuePush, Kernel.sendToMemory] using member, rfl⟩
  | finishes _ _ finished result =>
      subst result
      rw [(Kernel.threads_finishProcess finished).1] at member
      exact .inl ⟨thread, member, rfl⟩
  | modifies newDegree result =>
      subst result
      obtain ⟨_, _, _, _, _, _, _, sleeping, _⟩ :=
        system.kernel.modifyMultiprogrammingDegree_fields newDegree
      exact .inl ⟨thread, sleeping ▸ member, rfl⟩
  | plans _ quiet => exact .inl ⟨thread, quiet.sleepThreads ▸ member, rfl⟩
  | admits _ _ admits => exact .inl ⟨thread, admits.sleepThreads ▸ member, rfl⟩
  | dispatches _ _ dispatches => exact .inl ⟨thread, dispatches.sleepThreads ▸ member, rfl⟩
  | executes _ _ _ _ _ _ _ result => subst result; exact .inl ⟨thread, member, rfl⟩
  | handles message _ _ head effect result =>
      subst result
      rcases Kernel.sleepThreads_dispatchEffect effect member with old | slept
      · exact .inl ⟨thread, old, rfl⟩
      · exact .inr ⟨message, by simp [head], slept⟩
  | sleepStarts index started at_index _ result =>
      subst result
      rcases List.mem_or_eq_of_mem_set member with old | rfl
      · exact .inl ⟨thread, old, rfl⟩
      · exact .inl ⟨started, List.mem_of_getElem? at_index, rfl⟩
  | sleepEnds _ ended _ sleeping result =>
      subst result
      simp only [Kernel.sleepThreadStep, sleeping, Kernel.queuePush, Kernel.semPost_fields,
        Kernel.setQueue_fields] at member
      exact .inl ⟨thread, List.mem_of_mem_eraseIdx member, rfl⟩

/-! ### One copy of each process -/

theorem one_le_weigh_waiting {pid : UInt32} {process : Pcb} {kernel : Kernel}
    (member : process ∈ kernel.waiting) (same : process.pid = pid) :
    1 ≤ weigh (pidWeight pid) kernel.queueReady +
      weighAll (pidWeight pid) kernel.listOfQueueBlocked := by
  rcases List.mem_append.mp member with inReady | inBlocked
  · exact Nat.le_add_right_of_le (one_le_weigh inReady same)
  · obtain ⟨queue, inList, inQueue⟩ := List.mem_flatten.mp inBlocked
    apply Nat.le_add_left_of_le
    exact Nat.le_trans (one_le_weigh inQueue same) (weigh_le_weighAll inList)

theorem one_le_weigh_messages {message : Message} (atHead : message ∈ system.cpuMessages.head?) :
    1 ≤ weigh (pidWeight message.pcb.pid) (system.cpuMessages.map Message.pcb) :=
  one_le_weigh (List.mem_map_of_mem (List.mem_of_mem_head? atHead)) rfl

/-- A process that waits has no message that is still to be handled. -/
theorem waiting_pid_ne {message : Message} {process : Pcb}
    (once : ∀ pid, system.tokens pid ≤ 1) (member : process ∈ system.kernel.waiting)
    (atHead : message ∈ system.cpuMessages.head?) : message.pcb.pid ≠ process.pid := by
  intro same
  have inWaiting := one_le_weigh_waiting member same.symm
  have inMessages := one_le_weigh_messages atHead
  have atMost := once message.pcb.pid
  simp only [System.tokens, Kernel.tokens] at atMost
  omega

/-- A process that sleeps has no message that is still to be handled. -/
theorem sleeping_pid_ne {message : Message} {thread : SleepThread}
    (once : ∀ pid, system.tokens pid ≤ 1) (member : thread ∈ system.kernel.sleepThreads)
    (atHead : message ∈ system.cpuMessages.head?) : message.pcb.pid ≠ thread.process.pid := by
  intro same
  have inThreads := one_le_weigh
    (List.mem_map_of_mem (f := SleepThread.process) member) same.symm
  have inMessages := one_le_weigh_messages atHead
  have atMost := once message.pcb.pid
  simp only [System.tokens, Kernel.tokens] at atMost
  omega

theorem Dispatches.one_le_weigh_connection {dispatched : Pcb} {rest : List Pcb}
    (dispatches : Dispatches system next dispatched rest) :
    1 ≤ weigh (pidWeight dispatched.pid) (next.kernel.cpuDispatchConnection.map Prod.snd) := by
  have member : dispatched.setState .execution ∈
      next.kernel.cpuDispatchConnection.map Prod.snd := by
    simp [dispatches.cpuDispatchConnection]
  exact one_le_weigh member (Pcb.setState_pid ..)

/-- A process that is dispatched is no longer waiting. -/
theorem Dispatches.waiting_pid_ne {dispatched process : Pcb} {rest : List Pcb}
    (dispatches : Dispatches system next dispatched rest)
    (once : ∀ pid, next.tokens pid ≤ 1) (member : process ∈ next.kernel.waiting) :
    process.pid ≠ dispatched.pid := by
  intro same
  have inWaiting := one_le_weigh_waiting member same
  have inConnection := dispatches.one_le_weigh_connection
  have atMost := once dispatched.pid
  simp only [System.tokens, Kernel.tokens] at atMost
  omega

/-- A process that is dispatched is not a new one. -/
theorem Dispatches.new_pid_ne {dispatched process : Pcb} {rest : List Pcb}
    (dispatches : Dispatches system next dispatched rest)
    (once : ∀ pid, next.tokens pid ≤ 1) (member : process ∈ next.kernel.queueNew) :
    process.pid ≠ dispatched.pid := by
  intro same
  have inNew := one_le_weigh member same
  have inConnection := dispatches.one_le_weigh_connection
  have atMost := once dispatched.pid
  simp only [System.tokens, Kernel.tokens] at atMost
  omega

/-! ### Keeping the context -/

theorem KeepsContext.blocksCurrent {event : Event} (keeps : system.KeepsContext event) :
    event = .handleDispatch →
      ∀ message ∈ system.cpuMessages.head?, system.kernel.BlocksCurrent message := by
  intro handled
  subst handled
  exact keeps

theorem ContextKept.init (config : KernelConfig) : ContextKept config (System.init config) where
  toKnowsPids := .init config
  once := by
    intro pid
    rw [(KnowsPids.init config).tokens_eq_zero (by simp [System.init, Kernel.init, Kernel.created])]
    exact Nat.zero_le 1
  notExecuted := by simp [System.init, Kernel.init]
  executed := by simp [System.init, Kernel.init, Kernel.executed]
  waiting := by simp [System.init, Kernel.init, Kernel.waiting]
  sleeping := by simp [System.init, Kernel.init]

/-- A process that is executed for the first time is known and no longer new. -/
private theorem ContextKept.executed_step {event : Event} (kept : ContextKept config system)
    (effect : StepEffect config system next event) :
    ∀ pid ∈ next.kernel.executed, pid ∈ next.kernel.created := by
  intro pid member
  rcases effect.executed with same | ⟨process, rest, dispatches, grown⟩
  · rw [same] at member
    exact effect.created_mono (kept.executed pid member)
  · rw [grown] at member
    rcases List.mem_cons.mp member with rfl | old
    · apply effect.created_mono
      apply kept.carried
      have inReady := dispatches.perm.subset (List.mem_cons_self (a := process))
      simp [System.carried, Kernel.carried, inReady]
    · exact effect.created_mono (kept.executed pid old)

private theorem ContextKept.notExecuted_step {event : Event} (kept : ContextKept config system)
    (fresh : system.CreatesFresh event) (once : ∀ pid, next.tokens pid ≤ 1)
    (effect : StepEffect config system next event) :
    ∀ process ∈ next.kernel.queueNew, process.pid ∉ next.kernel.executed := by
  intro process member wasExecuted
  have before : process.pid ∈ system.kernel.executed :=
    effect.executed_before wasExecuted fun dispatches => dispatches.new_pid_ne once member
  rcases effect.queueNew member with old | ⟨path, quantum, clientSocket, rfl, rfl⟩
  · exact kept.notExecuted process old before
  · exact fresh (kept.executed _ before)

private theorem ContextKept.waiting_step {event : Event} (kept : ContextKept config system)
    (keeps : system.KeepsContext event) (once : ∀ pid, next.tokens pid ≤ 1)
    (effect : StepEffect config system next event) :
    ∀ process ∈ next.kernel.waiting, process.pid ∈ next.kernel.executed →
      OsSimulator.expectedContext process.pid next.kernel.trace = some process.context := by
  intro process member wasExecuted
  -- it was executed before this step: what this step dispatches does not wait afterwards
  have before : process.pid ∈ system.kernel.executed :=
    effect.executed_before wasExecuted fun dispatches => dispatches.waiting_pid_ne once member
  rcases effect.waiting kept.shape keeps.blocksCurrent member with
    ⟨old, wasWaiting, samePid, sameContext⟩ | ⟨admitted, rest, admits, samePid⟩ |
      ⟨_, expected⟩ | ⟨thread, inThreads, notMessage, samePid, resumed⟩
  · rw [effect.expectedContext fun _ message atHead =>
      samePid ▸ waiting_pid_ne kept.once wasWaiting atHead]
    rw [← samePid, ← sameContext]
    exact kept.waiting old wasWaiting (samePid ▸ before)
  · have wasNew : admitted ∈ system.kernel.queueNew := by simp [admits.head]
    exact absurd (samePid ▸ before) (kept.notExecuted admitted wasNew)
  · exact expected
  · rw [effect.expectedContext fun handled => absurd handled notMessage]
    rw [← samePid, resumed]
    exact kept.sleeping thread inThreads

private theorem ContextKept.sleeping_step {event : Event} (kept : ContextKept config system)
    (effect : StepEffect config system next event) :
    ∀ thread ∈ next.kernel.sleepThreads,
      OsSimulator.expectedContext thread.process.pid next.kernel.trace =
        some { thread.process.context with
          programCounter := thread.process.programCounter + 1 } := by
  intro thread member
  rcases effect.sleepThreads member with ⟨old, wasThere, same⟩ | ⟨_, _, _, _, _, expected⟩
  · rw [← same]
    rw [effect.expectedContext fun _ message atHead =>
      sleeping_pid_ne kept.once wasThere atHead]
    exact kept.sleeping old wasThere
  · exact expected

/-- The context is kept over a step that keeps it. -/
theorem ContextKept.step {event : Event} (kept : ContextKept config system)
    (keeps : system.KeepsContext event) (taken : system.step config event = some next) :
    ContextKept config next := by
  have effect := step_cases taken
  have once : ∀ pid, next.tokens pid ≤ 1 := by
    apply tokens_step kept.toKnowsPids kept.once keeps.createsFresh ?_ taken
    intro handled message atHead blocks process head
    exact (keeps.blocksCurrent handled message atHead blocks process head).1
  exact {
    toKnowsPids := kept.toKnowsPids.step taken
    once := once
    notExecuted := kept.notExecuted_step keeps.createsFresh once effect
    executed := kept.executed_step effect
    waiting := kept.waiting_step keeps once effect
    sleeping := kept.sleeping_step effect }

end System

end OsSimulator
