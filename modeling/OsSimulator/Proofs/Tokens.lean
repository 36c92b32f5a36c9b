/-
Module: OsSimulator.Proofs.Tokens
Purpose: Counting the copies of a PCB that will be executed again.  The copy in `queue_exec` is left
  out: it only mirrors the one that the CPU or a sleep thread has.  Creations add one such copy,
  finishes take one away, and every other step moves one.
Main exports: Kernel.tokens, System.tokens, System.BlocksItself, Kernel.tokens_finishes,
  Kernel.tokens_dispatchEffect, System.tokens_step
-/
import OsSimulator.Proofs.Steps

namespace OsSimulator

theorem one_le_weigh {pid : UInt32} {process : Pcb} {list : List Pcb} (member : process ∈ list)
    (same : process.pid = pid) : 1 ≤ weigh (pidWeight pid) list := by
  have bound : pidWeight pid process ≤ weigh (pidWeight pid) list := weight_le_weigh member
  simpa [pidWeight, same] using bound

/-- The copies of one process in the kernel, outside `queue_exec`. -/
def Kernel.tokens (kernel : Kernel) (pid : UInt32) : Nat :=
  weigh (pidWeight pid) kernel.queueNew + weigh (pidWeight pid) kernel.queueReady +
    weighAll (pidWeight pid) kernel.listOfQueueBlocked +
    weigh (pidWeight pid) (kernel.sleepThreads.map SleepThread.process) +
    weigh (pidWeight pid) (kernel.cpuDispatchConnection.map Prod.snd)

/-- The copies of one process in the whole system, outside `queue_exec`. -/
def System.tokens (system : System) (pid : UInt32) : Nat :=
  system.kernel.tokens pid + weigh (pidWeight pid) (system.cpuMessages.map Message.pcb)

/-- The event neither creates nor finishes a process and handles no message. -/
def Event.OnlyMoves : Event → Prop
  | .createProcess .. | .finishProcess _ | .handleDispatch => False
  | _ => True

theorem Event.IsPlanning.onlyMoves {event : Event} (planning : event.IsPlanning) :
    event.OnlyMoves := by
  cases event <;> trivial

/-- If a WAIT blocks, the process that `queue_pop` gives is the one that asked. -/
def Kernel.BlocksItself (kernel : Kernel) (message : Message) : Prop :=
  message.request.BlocksOnWait kernel →
    ∀ process ∈ kernel.queueExec.head?, process.pid = message.pcb.pid

namespace Kernel

variable {config : KernelConfig} {kernel next : Kernel}

/-- A finish takes away the copy it finds, unless it finds the one in `queue_exec`. -/
theorem Finishes.tokens {pid : UInt32} {middle : Kernel} {id : QueueId} {process : Pcb}
    {woken : List Pcb} (finishes : Finishes pid kernel next id process woken middle)
    (other : UInt32) :
    next.tokens other + (if id = .exec then 0 else pidWeight other process) =
      kernel.tokens other := by
  obtain ⟨new, ready, _, blocked⟩ := finishes.weigh (pidWeight_stateBlind other)
  obtain ⟨_, _, _, _, _, _, _, sleeping, connection⟩ := finishes.fields
  simp only [Kernel.tokens, sleeping, connection]
  cases id <;> simp only [QueueId.isBlocked, reduceCtorEq, if_true, if_false, Bool.false_eq_true]
    at * <;> omega

/-- Without a finish, the copy in the message goes to another place in the kernel. -/
theorem tokens_dispatchEffect {message : Message} (shape : kernel.Shape config)
    (effect : DispatchEffect message kernel next)
    (notFinish : ¬ message.request.CallsFinish message.pcb kernel)
    (blocks : kernel.BlocksItself message) (pid : UInt32) :
    next.tokens pid = kernel.tokens pid + pidWeight pid message.pcb := by
  cases effect with
  | finishes calls _ => exact absurd calls notFinish
  | interrupts _ result =>
      subst result
      simp [Kernel.tokens, handleInterrupt, queuePush, pidWeight_stateBlind pid message.pcb]
      omega
  | grants resource _ _ _ result =>
      subst result
      have same : pidWeight pid { message.pcb with
          programCounter := message.pcb.programCounter + 1
          resources := message.pcb.resources ++ [resource] } = pidWeight pid message.pcb := rfl
      simp [Kernel.tokens, removeResourceInstance, same]
      omega
  | blocks resource process rest requested valid unavailable head lines kind result =>
      subst result
      have same : pidWeight pid process = pidWeight pid message.pcb := by
        apply pidWeight_congr
        apply blocks
        · simp [requested, CpuRequest.BlocksOnWait, valid, unavailable]
        · simp [head]
      have at_index : (kernel.log (.received message)).listOfQueueBlocked[
          kernel.getQueueBlocked resource]? =
          some ((kernel.log (.received message)).queue
            (.blocked (kernel.getQueueBlocked resource))) := by
        simpa using getElem?_getQueueBlocked shape valid
      have blocked := weighAll_pushBlocked process rest at_index (pidWeight_stateBlind pid)
      simp only [Kernel.tokens, pushBlocked_fields, log_fields] at blocked ⊢
      omega
  | releases resource _ _ _ result =>
      subst result
      have same : pidWeight pid { message.pcb with
          programCounter := message.pcb.programCounter + 1
          resources := message.pcb.resources.erase resource } = pidWeight pid message.pcb := rfl
      simp [Kernel.tokens, addResourceInstance, same]
      omega
  | sleeps _ _ result =>
      subst result
      simp [Kernel.tokens, handleSleepInterruption]
      omega

end Kernel

namespace System

variable {config : KernelConfig} {system next : System}

/-- What a step does to the copies of a process when it handles no message, ends nothing and creates
    nothing: it moves them. -/
theorem StepEffect.tokens {event : Event} (effect : StepEffect config system next event)
    (onlyMoves : event.OnlyMoves) (pid : UInt32) : next.tokens pid = system.tokens pid := by
  cases effect with
  | creates _ _ _ _ => exact onlyMoves.elim
  | finishes _ _ _ _ => exact onlyMoves.elim
  | handles _ _ _ _ _ _ => exact onlyMoves.elim
  | modifies newDegree result =>
      subst result
      obtain ⟨new, ready, _, blocked, _, _, _, sleeping, connection, _⟩ :=
        system.kernel.modifyMultiprogrammingDegree_fields newDegree
      simp only [System.tokens, Kernel.tokens, new, ready, blocked, sleeping, connection]
  | plans _ quiet =>
      simp only [System.tokens, Kernel.tokens, quiet.queueNew, quiet.queueReady,
        quiet.listOfQueueBlocked, quiet.sleepThreads, quiet.cpuDispatchConnection,
        quiet.cpuMessages]
  | admits process rest admits =>
      simp only [System.tokens, Kernel.tokens, admits.queueNew, admits.queueReady,
        admits.listOfQueueBlocked, admits.sleepThreads, admits.cpuDispatchConnection,
        admits.cpuMessages, admits.head, weigh_append, weigh_cons, weigh_nil,
        pidWeight_stateBlind pid process]
      omega
  | dispatches process rest dispatches =>
      have ready := weigh_perm (pidWeight pid) dispatches.perm
      simp only [System.tokens, Kernel.tokens, dispatches.queueNew, dispatches.queueReady,
        dispatches.listOfQueueBlocked, dispatches.sleepThreads, dispatches.cpuDispatchConnection,
        dispatches.cpuMessages, List.map_append, List.map_cons, List.map_nil, weigh_append,
        weigh_cons, weigh_nil, pidWeight_stateBlind pid process] at ready ⊢
      omega
  | executes request cpuRegister programCounter header process rest head result =>
      subst result
      have same : pidWeight pid { process with
          cpuRegister := cpuRegister, programCounter := programCounter } =
            pidWeight pid process := rfl
      simp only [System.tokens, Kernel.tokens, head, List.map_append, List.map_cons, List.map_nil,
        weigh_append, weigh_cons, weigh_nil, same]
      omega
  | sleepStarts index thread at_index starting result =>
      subst result
      simp only [System.tokens, Kernel.tokens, map_process_set at_index]
  | sleepEnds index thread at_index sleeping result =>
      subst result
      have same : pidWeight pid { thread.process with
          state := .ready, programCounter := thread.process.programCounter + 1 } =
            pidWeight pid thread.process := rfl
      have mapped : (system.kernel.sleepThreads.map SleepThread.process)[index]? =
          some thread.process := by
        simp [at_index]
      have erased := weigh_eraseIdx (pidWeight pid) mapped
      simp [System.tokens, Kernel.tokens, Kernel.sleepThreadStep, sleeping, Kernel.queuePush,
        same, List.eraseIdx_map] at erased ⊢
      omega

/-- A creation adds the one copy of the new process. -/
theorem tokens_receivePcbAndCreate (path : String) (quantum clientSocket : Int32)
    (pid : UInt32) :
    ({ system with
        kernel := system.kernel.receivePcbAndCreate path quantum clientSocket } : System).tokens
          pid =
      system.tokens pid + if system.kernel.idToAssign = pid then 1 else 0 := by
  simp [System.tokens, Kernel.tokens, Kernel.receivePcbAndCreate, Kernel.moveProcessToNew,
    Kernel.queuePush, Kernel.sendToMemory, pidWeight, createPcb]
  omega

/-- A finish never adds a copy. -/
theorem tokens_finishProcess_le {kernel after : Kernel} {finishedPid : UInt32}
    (finished : kernel.finishProcess finishedPid = some after) (pid : UInt32) :
    after.tokens pid ≤ kernel.tokens pid := by
  rcases Kernel.finishProcess_cases finished with
    ⟨_, rfl⟩ | ⟨id, process, woken, middle, finishes⟩
  · simp [Kernel.tokens]
  · have moved := finishes.tokens pid
    omega

/-- The handler moves the copy in the message, or drops it with the process. -/
theorem tokens_handles_le {message : Message} {rest : List Message} {kernel : Kernel}
    (shape : system.kernel.Shape config) (head : system.cpuMessages = message :: rest)
    (effect : Kernel.DispatchEffect message system.kernel kernel)
    (blocks : system.kernel.BlocksItself message) (pid : UInt32) :
    ({ system with cpuMessages := rest, kernel := kernel } : System).tokens pid ≤
      system.tokens pid := by
  simp only [System.tokens, head, List.map_cons, weigh_cons]
  by_cases calls : message.request.CallsFinish message.pcb system.kernel
  · have less := tokens_finishProcess_le (effect.finishProcess_of_callsFinish calls) pid
    have logged : (system.kernel.log (.received message)).tokens pid =
        system.kernel.tokens pid := by
      simp [Kernel.tokens]
    omega
  · have moved := Kernel.tokens_dispatchEffect shape effect calls blocks pid
    omega

/-- A process without a copy anywhere counts zero. -/
theorem KnowsPids.tokens_eq_zero {pid : UInt32} (knows : KnowsPids config system)
    (notCreated : pid ∉ system.kernel.created) : system.tokens pid = 0 := by
  have absent : ∀ pcb ∈ system.carried, pcb.pid ≠ pid :=
    fun pcb member same => notCreated (same ▸ knows.carried pcb member)
  simp only [System.carried, Kernel.carried, List.mem_append] at absent
  simp only [System.tokens, Kernel.tokens, Nat.add_eq_zero_iff, weigh_eq_zero, weighAll_eq_zero,
    Kernel.pidWeight_eq_zero]
  refine ⟨⟨⟨⟨⟨?_, ?_⟩, ?_⟩, ?_⟩, ?_⟩, ?_⟩
  · exact fun process member same => notCreated (same ▸ knows.queueNew process member)
  · exact fun process member => absent process (.inl (.inl member))
  · exact fun queue inList process member =>
      absent process (.inl (.inr (.inr (.inl (List.mem_flatten.mpr ⟨queue, inList, member⟩)))))
  · exact fun process member => absent process (.inl (.inr (.inr (.inr (.inl member)))))
  · exact fun process member => absent process (.inl (.inr (.inr (.inr (.inr member)))))
  · exact fun process member => absent process (.inr member)

/-- As long as pids are fresh and a blocking WAIT blocks the process that asked, no process has two
    copies that will be executed. -/
theorem tokens_step {event : Event} (knows : KnowsPids config system)
    (once : ∀ pid, system.tokens pid ≤ 1) (fresh : system.CreatesFresh event)
    (blocks : event = .handleDispatch →
      ∀ message ∈ system.cpuMessages.head?, system.kernel.BlocksItself message)
    (taken : system.step config event = some next) (pid : UInt32) : next.tokens pid ≤ 1 := by
  by_cases onlyMoves : event.OnlyMoves
  · exact ((step_cases taken).tokens onlyMoves pid).trans_le (once pid)
  cases step_cases taken with
  | creates path quantum clientSocket result =>
      subst result
      rw [tokens_receivePcbAndCreate]
      split
      · rename_i same
        subst same
        rw [knows.tokens_eq_zero fresh]
      · exact once pid
  | finishes finishedPid kernel finished result =>
      subst result
      have less := tokens_finishProcess_le finished pid
      have before := once pid
      simp only [System.tokens] at before ⊢
      omega
  | handles message rest kernel head effect result =>
      subst result
      exact Nat.le_trans (tokens_handles_le knows.shape head effect
        (blocks rfl message (by simp [head])) pid) (once pid)
  | plans event _ planning => exact absurd planning.onlyMoves onlyMoves
  | _ => exact absurd trivial onlyMoves

end System

end OsSimulator
