/-
Module: OsSimulator.Proofs.Finality
Purpose: When a console `FINISH_PROCESS` is final, in runs of whole handlers and planner segments.
  `finish_process` takes one PCB out of one queue; the process stays away for ever if that was the only
  copy that could bring it back.
Main exports: System.OnlyQueued, System.DoesNotReuse, System.Gone, finish_is_final
-/
import OsSimulator.Proofs.Steps

namespace OsSimulator

open Transition

namespace System

/-- The process is in at most one place in the queues, no sleep thread and no connection holds a
    copy, and what the CPU has said about it will only make the kernel look for it in vain. -/
structure OnlyQueued (system : System) (pid : UInt32) : Prop where
  once : system.kernel.weighQueues (pidWeight pid) ≤ 1
  sleepThreads : ∀ thread ∈ system.kernel.sleepThreads, thread.process.pid ≠ pid
  connection : ∀ sent ∈ system.kernel.cpuDispatchConnection, sent.2.pid ≠ pid
  messages : ∀ message ∈ system.cpuMessages, message.pcb.pid = pid →
    message.request.CallsFinish message.pcb system.kernel

/-- The pid counter does not come round to the pid again. -/
def DoesNotReuse (pid : UInt32) (system : System) : Event → Prop
  | .createProcess .. => system.kernel.idToAssign ≠ pid
  | _ => True

/-- Nothing is left of the process but messages that call `finish_process`. -/
structure Gone (pid : UInt32) (system : System) : Prop where
  queueNew : ∀ process ∈ system.kernel.queueNew, process.pid ≠ pid
  carried : ∀ pcb ∈ system.kernel.carried, pcb.pid ≠ pid
  messages : ∀ message ∈ system.cpuMessages, message.pcb.pid = pid →
    message.request.CallsFinish message.pcb system.kernel

end System

/-- A request calls `finish_process` or not whatever else the kernel does: only the configured
    names matter. -/
theorem CpuRequest.callsFinish_congr {kernel next : Kernel} {pcb : Pcb} {request : CpuRequest}
    (names : next.allResources = kernel.allResources) :
    request.CallsFinish pcb next ↔ request.CallsFinish pcb kernel := by
  cases request <;> simp [CallsFinish, names]

namespace Kernel

/-- A finish sends nothing to the CPU. -/
theorem silent_finishProcess {pid : UInt32} {kernel next : Kernel}
    (finished : kernel.finishProcess pid = some next) :
    ∃ lines, next.trace = lines ++ kernel.trace ∧
      ∀ header pcb, .sentToCpu header pcb ∉ lines := by
  rcases finishProcess_cases finished with ⟨_, rfl⟩ | ⟨id, process, woken, middle, finishes⟩
  · exact ⟨[.notFound pid], by simp, by simp⟩
  · obtain ⟨lines, trace, kind⟩ := finishes.trace
    refine ⟨.sentToMemory .finishProcess (process.setState .exit) :: .finished pid :: lines,
      trace, ?_⟩
    intro header pcb member
    simp only [List.mem_cons, reduceCtorEq, false_or] at member
    obtain ⟨_, _, impossible⟩ := kind _ member
    cases impossible

/-- What is sent to the CPU while a message is handled is an answer to that message. -/
theorem sent_dispatchEffect {message : Message} {kernel next : Kernel}
    (effect : DispatchEffect message kernel next) :
    ∃ lines, next.trace = lines ++ kernel.trace ∧
      ∀ header pcb, .sentToCpu header pcb ∈ lines →
        pcb.pid = message.pcb.pid ∧ ¬ message.request.CallsFinish message.pcb kernel := by
  cases effect with
  | finishes _ finished =>
      obtain ⟨lines, grown, silent⟩ := silent_finishProcess finished
      refine ⟨lines ++ [.received message], by simp [grown], ?_⟩
      intro header pcb member
      simp only [List.mem_append, List.mem_singleton, reduceCtorEq, or_false] at member
      exact absurd member (silent header pcb)
  | interrupts _ result =>
      subst result
      exact ⟨[.received message], by simp [handleInterrupt, queuePush], by simp⟩
  | grants resource requested valid _ result =>
      subst result
      refine ⟨[.sentToCpu .waitResponse _, .granted message.pcb.pid resource,
        .received message], by simp [removeResourceInstance]; rfl, ?_⟩
      intro header pcb member
      obtain ⟨rfl, rfl⟩ : header = .waitResponse ∧ pcb = _ := by simpa using member
      exact ⟨rfl, by simpa [CpuRequest.CallsFinish, requested] using valid⟩
  | blocks resource process rest _ _ _ _ lines kind result =>
      subst result
      refine ⟨lines ++ [.execToBlocked process.pid, .received message], by simp, ?_⟩
      intro header pcb member
      simp only [List.mem_append, List.mem_cons, reduceCtorEq, List.not_mem_nil, or_false] at member
      obtain ⟨_, _, _, impossible⟩ := kind _ member
      cases impossible
  | releases resource requested valid held result =>
      subst result
      refine ⟨[.sentToCpu .signalResponse _, .released message.pcb.pid resource,
        .received message], by simp [addResourceInstance]; rfl, ?_⟩
      intro header pcb member
      obtain ⟨rfl, rfl⟩ : header = .signalResponse ∧ pcb = _ := by simpa using member
      exact ⟨rfl, by simp [CpuRequest.CallsFinish, requested, valid, held]⟩
  | sleeps _ _ result =>
      subst result
      exact ⟨[.received message], by simp [handleSleepInterruption], by simp⟩

end Kernel

namespace System

variable {config : KernelConfig} {system next : System} {pid : UInt32}

/-- What a step sends to the CPU is a process of `queue_ready` or the answer to a message. -/
theorem StepEffect.sent {event : Event} (effect : StepEffect config system next event) :
    ∃ lines, next.kernel.trace = lines ++ system.kernel.trace ∧
      ∀ header pcb, .sentToCpu header pcb ∈ lines →
        (∃ old ∈ system.kernel.queueReady, old.pid = pcb.pid) ∨
          ∃ message ∈ system.cpuMessages.head?, message.pcb.pid = pcb.pid ∧
            ¬ message.request.CallsFinish message.pcb system.kernel := by
  cases effect with
  | creates path quantum clientSocket result =>
      subst result
      exact ⟨[.created system.kernel.idToAssign, .sentToMemory .createProcess
          (createPcb system.kernel.idToAssign path quantum clientSocket)],
        by simp [Kernel.receivePcbAndCreate, Kernel.moveProcessToNew, Kernel.queuePush,
          Kernel.sendToMemory, createPcb], by simp⟩
  | finishes pid kernel finished result =>
      subst result
      obtain ⟨lines, grown, silent⟩ := Kernel.silent_finishProcess finished
      exact ⟨lines, grown, fun header pcb member => absurd member (silent header pcb)⟩
  | modifies newDegree result =>
      subst result
      obtain ⟨_, _, _, _, _, _, _, _, _, logged, _⟩ :=
        system.kernel.modifyMultiprogrammingDegree_fields newDegree
      exact ⟨[.newDegree newDegree.toInt], logged, by simp⟩
  | plans _ quiet => exact ⟨[], quiet.trace, by simp⟩
  | admits process _ admits => exact ⟨[.newToReady process.pid], admits.trace, by simp⟩
  | dispatches process rest dispatches =>
      refine ⟨[_], dispatches.trace, ?_⟩
      intro header pcb member
      obtain ⟨rfl, rfl⟩ : header = .executeProcess ∧ pcb = process.setState .execution := by
        simpa using member
      exact .inl ⟨process, dispatches.perm.subset List.mem_cons_self, rfl⟩
  | executes _ _ _ _ _ _ _ result => subst result; exact ⟨[], rfl, by simp⟩
  | handles message rest kernel head effect result =>
      subst result
      obtain ⟨lines, grown, sent⟩ := Kernel.sent_dispatchEffect effect
      refine ⟨lines, grown, ?_⟩
      intro header pcb member
      obtain ⟨same, answers⟩ := sent header pcb member
      exact .inr ⟨message, by simp [head], same.symm, answers⟩
  | sleepStarts _ _ _ _ result => subst result; exact ⟨[], rfl, by simp⟩
  | sleepEnds _ thread _ sleeping result =>
      subst result
      exact ⟨[], by simp [Kernel.sleepThreadStep, sleeping, Kernel.queuePush], by simp⟩

/-- A message that calls `finish_process` brings no pid from the CPU into the kernel. -/
theorem carried_of_callsFinish {message : Message} {pcb : Pcb}
    (atHead : message ∈ system.cpuMessages.head?)
    (calls : message.request.CallsFinish message.pcb system.kernel)
    (effect : StepEffect config system next .handleDispatch) (member : pcb ∈ next.kernel.carried) :
    ∃ old ∈ system.kernel.carried, old.pid = pcb.pid := by
  cases effect with
  | plans _ _ planning => exact planning.elim
  | handles other rest kernel head effect result =>
      subst result
      obtain rfl : other = message := by simpa [head] using atHead
      have finished := effect.finishProcess_of_callsFinish calls
      obtain ⟨old, inLog, same⟩ := Kernel.carried_finishProcess finished member
      exact ⟨old, by simpa [Kernel.carried] using inLog, same⟩

/-- Once gone, a process stays gone. -/
theorem Gone.step {event : Event} (gone : system.Gone pid) (shape : system.kernel.Shape config)
    (fresh : system.DoesNotReuse pid event) (taken : system.step config event = some next) :
    next.Gone pid := by
  have effect := step_cases taken
  have names : next.kernel.allResources = system.kernel.allResources :=
    (effect.shape shape).allResources.trans shape.allResources.symm
  refine ⟨?_, ?_, ?_⟩
  · intro process member
    rcases effect.queueNew member with old | ⟨path, quantum, clientSocket, rfl, rfl⟩
    · exact gone.queueNew process old
    · exact fresh
  · intro pcb member
    rcases effect.carriedKernel shape member with
      ⟨old, inOld, same⟩ | ⟨message, atHead, rfl, same⟩ | ⟨process, rest, admits, same⟩
    · rw [← same]
      exact gone.carried old inOld
    · -- a message about the process only makes the kernel look for it
      intro isGone
      have inMessages := List.mem_of_mem_head? atHead
      have calls := gone.messages message inMessages (same.trans isGone)
      obtain ⟨old, inOld, sameOld⟩ := carried_of_callsFinish atHead calls effect member
      exact gone.carried old inOld (sameOld.trans isGone)
    · rw [← same]
      exact gone.queueNew process (by simp [admits.head])
  · intro message member isGone
    rw [CpuRequest.callsFinish_congr names]
    rcases effect.cpuMessages member with old | ⟨sent, inConnection, same⟩
    · exact gone.messages message old isGone
    · refine absurd (same.trans isGone) (gone.carried sent.2 ?_)
      simp only [Kernel.carried, List.mem_append]
      exact .inr (.inr (.inr (.inr (List.mem_map_of_mem inConnection))))

/-- Nothing about a process that is gone is sent to the CPU. -/
theorem Gone.sent {event : Event} (gone : system.Gone pid)
    (effect : StepEffect config system next event) :
    ∃ lines, next.kernel.trace = lines ++ system.kernel.trace ∧
      ∀ header pcb, .sentToCpu header pcb ∈ lines → pcb.pid ≠ pid := by
  obtain ⟨lines, grown, sent⟩ := effect.sent
  refine ⟨lines, grown, ?_⟩
  intro header pcb member
  rcases sent header pcb member with ⟨old, inReady, same⟩ | ⟨message, atHead, same, answers⟩
  · rw [← same]
    exact gone.carried old (by simp [Kernel.carried, inReady])
  · intro isGone
    exact answers (gone.messages message (List.mem_of_mem_head? atHead) (same.trans isGone))

/-- Handling the console command leaves nothing of a process that is only queued. -/
theorem OnlyQueued.gone (only : system.OnlyQueued pid)
    (taken : system.step config (.finishProcess pid) = some next) : next.Gone pid := by
  obtain ⟨kernel, finished, rfl⟩ := Option.map_eq_some_iff.mp taken
  have noneQueued : kernel.weighQueues (pidWeight pid) = 0 := by
    rcases Kernel.finishProcess_cases finished with
      ⟨missing, rfl⟩ | ⟨id, process, woken, middle, finishes⟩
    · exact Kernel.findInAllQueues_eq_none missing
    · have total := finishes.weighQueues (pidWeight_stateBlind pid)
      have one : pidWeight pid process = 1 := by simp [pidWeight, finishes.pid_eq]
      have once := only.once
      omega
  obtain ⟨new, ready, exec, blocked⟩ := Kernel.pid_ne_of_weighQueues noneQueued
  have names : kernel.allResources = system.kernel.allResources :=
    Kernel.allResources_finishProcess finished
  obtain ⟨sleeping, connection⟩ := Kernel.threads_finishProcess finished
  refine ⟨new, ?_, ?_⟩
  · intro pcb member
    simp only [Kernel.carried, sleeping, connection, List.mem_append] at member
    rcases member with inReady | inExec | inBlocked | inThreads | inConnection
    · exact ready pcb inReady
    · exact exec pcb inExec
    · exact blocked pcb inBlocked
    · obtain ⟨thread, inList, rfl⟩ := List.mem_map.mp inThreads
      exact only.sleepThreads thread inList
    · obtain ⟨sent, inList, rfl⟩ := List.mem_map.mp inConnection
      exact only.connection sent inList
  · intro message member same
    rw [CpuRequest.callsFinish_congr names]
    exact only.messages message member same

/-- A process that is gone is in no queue. -/
theorem Gone.weighQueues (gone : system.Gone pid) :
    system.kernel.weighQueues (pidWeight pid) = 0 := by
  have carried := gone.carried
  simp only [Kernel.carried, List.mem_append] at carried
  apply Kernel.weighQueues_of_pid_ne gone.queueNew
  · exact fun process member => carried process (.inl member)
  · exact fun process member => carried process (.inr (.inl member))
  · exact fun process member => carried process (.inr (.inr (.inl member)))

end System

/-- A process that is only queued is finished for good by the console: in every later run of whole
    handlers and planner segments in which the counter does not come round to its pid, it is in no queue and nothing about it is sent
    to the CPU. -/
theorem finish_is_final (config : KernelConfig) (events : List Event)
    (system next : System) (pid : UInt32) (later : List Event) (final : System)
    (reaches : run (System.step config) (System.init config) events = some system)
    (only : system.OnlyQueued pid)
    (taken : system.step config (.finishProcess pid) = some next)
    (fresh : Meets (System.step config) (System.DoesNotReuse pid) next later)
    (goesOn : run (System.step config) next later = some final) :
    final.kernel.weighQueues (pidWeight pid) = 0 ∧
      ∃ lines, final.kernel.trace = lines ++ next.kernel.trace ∧
        ∀ header pcb, .sentToCpu header pcb ∈ lines → pcb.pid ≠ pid := by
  have shape : next.kernel.Shape config :=
    (System.step_cases taken).shape (System.shape_of_run reaches)
  -- carried along the later run: the process is gone and nothing about it has been sent since
  have invariant : final.Gone pid ∧ final.kernel.Shape config ∧
      ∃ lines, final.kernel.trace = lines ++ next.kernel.trace ∧
        ∀ header pcb, .sentToCpu header pcb ∈ lines → pcb.pid ≠ pid := by
    refine invariant_of_guarded_run (fun state => state.Gone pid ∧ state.kernel.Shape config ∧
      ∃ lines, state.kernel.trace = lines ++ next.kernel.trace ∧
        ∀ header pcb, .sentToCpu header pcb ∈ lines → pcb.pid ≠ pid) ?_
      ⟨only.gone taken, shape, [], rfl, by simp⟩ fresh goesOn
    intro state event after ⟨gone, shaped, earlier, before, silent⟩ reuses stepped
    obtain ⟨lines, grown, sent⟩ := gone.sent (System.step_cases stepped)
    refine ⟨gone.step shaped reuses stepped, (System.step_cases stepped).shape shaped,
      lines ++ earlier, by rw [grown, before, List.append_assoc], ?_⟩
    intro header pcb member
    rcases List.mem_append.mp member with new | old
    · exact sent header pcb new
    · exact silent header pcb old
  exact ⟨invariant.1.weighQueues, invariant.2.2⟩

end OsSimulator
