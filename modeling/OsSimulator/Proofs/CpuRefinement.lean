/-
Module: OsSimulator.Proofs.CpuRefinement
Purpose: The CPU of `Cpu.System`, two threads that take turns statement by statement, does what the
  atomic CPU of `Kernel.System` may do: the process that is being executed counts as not yet taken from
  the connection, and an interrupt as read when it is raised.
Main exports: System.withCpu, System.step_withCpu, CpuSystem.Refines, cpu_run_refines_system
-/
import OsSimulator.Proofs.Preemption
import OsSimulator.Proofs.QuantumInterrupts

namespace OsSimulator

open Transition

/-! ### What the kernel does not look at -/

/-- The kernel, had the CPU not taken these messages from the connection. -/
def Kernel.withUnanswered (unanswered : List (OperationCode × Pcb)) (kernel : Kernel) : Kernel :=
  { kernel with cpuDispatchConnection := unanswered ++ kernel.cpuDispatchConnection }

namespace Kernel

variable {kernel next : Kernel} (unanswered : List (OperationCode × Pcb))

theorem withUnanswered_setQueue (elements : List Pcb) (id : QueueId) :
    (kernel.withUnanswered unanswered).setQueue elements id =
      (kernel.setQueue elements id).withUnanswered unanswered := by
  cases id <;> rfl

theorem withUnanswered_queue (id : QueueId) :
    (kernel.withUnanswered unanswered).queue id = kernel.queue id := by
  cases id <;> rfl

theorem withUnanswered_queueNew :
    (kernel.withUnanswered unanswered).queueNew = kernel.queueNew := rfl

theorem withUnanswered_queueReady :
    (kernel.withUnanswered unanswered).queueReady = kernel.queueReady := rfl

theorem withUnanswered_queueExec :
    (kernel.withUnanswered unanswered).queueExec = kernel.queueExec := rfl

theorem withUnanswered_resourceIndex (resource : String) :
    (kernel.withUnanswered unanswered).resourceIndex resource = kernel.resourceIndex resource := rfl

theorem withUnanswered_log (event : KernelEvent) :
    (kernel.withUnanswered unanswered).log event =
      (kernel.log event).withUnanswered unanswered := rfl

theorem withUnanswered_semPost (semaphore : Semaphore) :
    (kernel.withUnanswered unanswered).semPost semaphore =
      (kernel.semPost semaphore).withUnanswered unanswered := rfl

theorem withUnanswered_queuePush (id : QueueId) (pcb : Pcb) :
    (kernel.withUnanswered unanswered).queuePush id pcb =
      (kernel.queuePush id pcb).withUnanswered unanswered := by
  cases id <;> rfl

theorem withUnanswered_sendToCpu (header : OperationCode) (pcb : Pcb) :
    (kernel.withUnanswered unanswered).sendToCpu header pcb =
      (kernel.sendToCpu header pcb).withUnanswered unanswered := by
  simp [withUnanswered, sendToCpu]

theorem withUnanswered_semWait (semaphore : Semaphore) :
    (kernel.withUnanswered unanswered).semWait semaphore =
      (kernel.semWait semaphore).map (withUnanswered unanswered) := by
  unfold semWait
  change (if 0 < kernel.sem semaphore then _ else _) = _
  split <;> rfl

theorem withUnanswered_modifyResourceInstance (resource : String) (value : Int) :
    (kernel.withUnanswered unanswered).modifyResourceInstance resource value =
      (kernel.modifyResourceInstance resource value).withUnanswered unanswered := by
  rw [modifyResourceInstance, modifyResourceInstance, withUnanswered_resourceIndex]
  cases kernel.resourceIndex resource <;> rfl

theorem withUnanswered_freeResourcesRetained (process : Pcb) :
    (kernel.withUnanswered unanswered).freeResourcesRetained process =
      (kernel.freeResourcesRetained process).withUnanswered unanswered := by
  unfold freeResourcesRetained addResourceInstances
  induction process.resources generalizing kernel with
  | nil => rfl
  | cons resource resources ih =>
      rw [List.foldl_cons, List.foldl_cons, ← ih, addResourceInstance,
        withUnanswered_modifyResourceInstance]
      rfl

theorem withUnanswered_moveProcessFromBlockToReady (position index : Nat) :
    (kernel.withUnanswered unanswered).moveProcessFromBlockToReady position index =
      (kernel.moveProcessFromBlockToReady position index).map (withUnanswered unanswered) := by
  unfold moveProcessFromBlockToReady
  rw [withUnanswered_queue]
  cases (kernel.queue (.blocked index))[position]? with
  | none => rfl
  | some process =>
      simp only [withUnanswered_log, withUnanswered_queuePush, withUnanswered_queue,
        withUnanswered_setQueue, withUnanswered_semWait, Option.map_map]
      rfl

theorem withUnanswered_wakeLoop {index fuel position : Nat} {available : Int} :
    (kernel.withUnanswered unanswered).wakeLoop index available fuel position =
      (kernel.wakeLoop index available fuel position).map (withUnanswered unanswered) := by
  induction fuel generalizing kernel position with
  | zero => rfl
  | succ fuel ih =>
      rw [wakeLoop, wakeLoop, withUnanswered_queue]
      split
      · rw [withUnanswered_moveProcessFromBlockToReady]
        cases kernel.moveProcessFromBlockToReady position index with
        | none => rfl
        | some moved => exact ih
      · rfl

theorem withUnanswered_wakeQueue (index : Nat) :
    (kernel.withUnanswered unanswered).wakeQueue index =
      (kernel.wakeQueue index).map (withUnanswered unanswered) := by
  unfold wakeQueue
  rw [withUnanswered_queue]
  change (if 0 < (kernel.queue (.blocked index)).length ∧
    0 < kernel.allResourcesInstances.getD index 0 then _ else _) = _
  simp only
  split
  · exact withUnanswered_wakeLoop unanswered
  · rfl

theorem withUnanswered_checkProcessInBlockedAndSendToReady :
    (kernel.withUnanswered unanswered).checkProcessInBlockedAndSendToReady =
      kernel.checkProcessInBlockedAndSendToReady.map (withUnanswered unanswered) := by
  unfold checkProcessInBlockedAndSendToReady
  change (List.range kernel.listOfQueueBlocked.length).foldlM wakeQueue _ = _
  induction List.range kernel.listOfQueueBlocked.length generalizing kernel with
  | nil => rfl
  | cons index indices ih =>
      rw [List.foldlM_cons, List.foldlM_cons, withUnanswered_wakeQueue]
      cases kernel.wakeQueue index with
      | none => rfl
      | some woken => exact ih

theorem withUnanswered_updateQueueSemaphores (state : ProcessState) :
    (kernel.withUnanswered unanswered).updateQueueSemaphores state =
      (kernel.updateQueueSemaphores state).map (withUnanswered unanswered) := by
  cases state with
  | execution => rfl
  | ready | blocked =>
      simp only [updateQueueSemaphores, withUnanswered_semWait, Option.map_map]
      rfl
  | new | exit => exact withUnanswered_semWait unanswered _

theorem withUnanswered_finishProcess (pid : UInt32) :
    (kernel.withUnanswered unanswered).finishProcess pid =
      (kernel.finishProcess pid).map (withUnanswered unanswered) := by
  have same : (kernel.withUnanswered unanswered).findInAllQueues pid =
      kernel.findInAllQueues pid := by
    unfold findInAllQueues
    congr 1
  unfold finishProcess
  rw [same]
  cases kernel.findInAllQueues pid with
  | none => rfl
  | some found =>
      obtain ⟨id, process⟩ := found
      have removed : (kernel.withUnanswered unanswered).releaseAndRemove id process =
          (kernel.releaseAndRemove id process).withUnanswered unanswered := by
        simp only [releaseAndRemove, withUnanswered_freeResourcesRetained, withUnanswered_queue,
          withUnanswered_setQueue]
      simp only [removed, withUnanswered_checkProcessInBlockedAndSendToReady]
      cases (kernel.releaseAndRemove id process).checkProcessInBlockedAndSendToReady with
      | none => rfl
      | some woken =>
          simp only [Option.map_some, Option.bind_some, sendToMemory, withUnanswered_log]
          exact withUnanswered_updateQueueSemaphores unanswered process.state

theorem withUnanswered_checkDeadlocks (process : Pcb) :
    (kernel.withUnanswered unanswered).checkDeadlocks process =
      (kernel.checkDeadlocks process).withUnanswered unanswered := by
  have evaluates : ∀ (current : Kernel) (other : Pcb) (required : Option String),
      (current.withUnanswered unanswered).evaluateDeadlock process other required =
        (current.evaluateDeadlock process other required).withUnanswered unanswered := by
    intro current other required
    unfold evaluateDeadlock
    cases required with
    | none => rfl
    | some required =>
        simp only
        split <;> rfl
  have turns : ∀ (waiting : List Pcb) (current : Kernel),
      waiting.foldl (fun current other =>
          current.evaluateDeadlock process other (kernel.getRequiredResource process))
        (current.withUnanswered unanswered) =
      (waiting.foldl (fun current other =>
          current.evaluateDeadlock process other (kernel.getRequiredResource process))
        current).withUnanswered unanswered := by
    intro waiting
    induction waiting with
    | nil => exact fun _ => rfl
    | cons other waiting ih =>
        intro current
        rw [List.foldl_cons, List.foldl_cons, evaluates, ih]
  exact turns kernel.listOfQueueBlocked.flatten kernel

theorem withUnanswered_moveProcessFromExecToBlocked (index : Nat) :
    (kernel.withUnanswered unanswered).moveProcessFromExecToBlocked index =
      (kernel.moveProcessFromExecToBlocked index).map (withUnanswered unanswered) := by
  rw [moveProcessFromExecToBlocked, moveProcessFromExecToBlocked, withUnanswered_queueExec]
  cases kernel.queueExec with
  | nil => rfl
  | cons process rest =>
      simp only [withUnanswered_setQueue, withUnanswered_log, withUnanswered_semPost,
        withUnanswered_queuePush, withUnanswered_checkDeadlocks, Option.map_some]

theorem withUnanswered_handleWaitInterruption (process : Pcb) (resource : String) :
    (kernel.withUnanswered unanswered).handleWaitInterruption process resource =
      (kernel.handleWaitInterruption process resource).map (withUnanswered unanswered) := by
  unfold handleWaitInterruption
  change (if (findResource kernel.allResources resource).isNone then _
    else if 0 < kernel.quantityResourceInstanceAvailable resource then _ else _) = _
  split
  · exact withUnanswered_finishProcess unanswered process.pid
  · split
    · simp only [removeResourceInstance, withUnanswered_modifyResourceInstance,
        withUnanswered_log, withUnanswered_sendToCpu, Option.map_some]
    · exact withUnanswered_moveProcessFromExecToBlocked unanswered _

theorem withUnanswered_handleSignalInterruption (process : Pcb) (resource : String) :
    (kernel.withUnanswered unanswered).handleSignalInterruption process resource =
      (kernel.handleSignalInterruption process resource).map (withUnanswered unanswered) := by
  unfold handleSignalInterruption
  change (if (findResource kernel.allResources resource).isNone then _
    else if (findResource process.resources resource).isSome then _ else _) = _
  split
  · exact withUnanswered_finishProcess unanswered process.pid
  · split
    · simp only [addResourceInstance, withUnanswered_modifyResourceInstance,
        withUnanswered_log, withUnanswered_sendToCpu, Option.map_some]
    · exact withUnanswered_finishProcess unanswered process.pid

theorem withUnanswered_handleInterrupt (pcb : Pcb) :
    (kernel.withUnanswered unanswered).handleInterrupt pcb =
      (kernel.handleInterrupt pcb).withUnanswered unanswered := rfl

theorem withUnanswered_handleDispatchConnection (message : Message) :
    (kernel.withUnanswered unanswered).handleDispatchConnection message =
      (kernel.handleDispatchConnection message).map (withUnanswered unanswered) := by
  obtain ⟨request, pcb⟩ := message
  unfold handleDispatchConnection
  rw [withUnanswered_log]
  cases request with
  | finish => exact withUnanswered_finishProcess unanswered _
  | interrupt => exact congrArg some (withUnanswered_handleInterrupt unanswered pcb)
  | wait resource => exact withUnanswered_handleWaitInterruption unanswered pcb resource
  | signal resource => exact withUnanswered_handleSignalInterruption unanswered pcb resource
  | sleep time => rfl

theorem withUnanswered_moveProcessToReady :
    (kernel.withUnanswered unanswered).moveProcessToReady =
      kernel.moveProcessToReady.map (withUnanswered unanswered) := by
  rw [moveProcessToReady, moveProcessToReady, withUnanswered_queueNew]
  cases kernel.queueNew <;> rfl

theorem withUnanswered_longTermPlannerAdmit :
    (kernel.withUnanswered unanswered).longTermPlannerAdmit =
      kernel.longTermPlannerAdmit.map (withUnanswered unanswered) := by
  unfold longTermPlannerAdmit
  rw [withUnanswered_semWait]
  cases kernel.semWait .processNew with
  | none => rfl
  | some waited =>
      simp only [Option.map_some, Option.bind_eq_bind, Option.bind_some,
        withUnanswered_moveProcessToReady]
      cases waited.moveProcessToReady <;> rfl

theorem withUnanswered_moveProcessToExec :
    (kernel.withUnanswered unanswered).moveProcessToExec =
      kernel.moveProcessToExec.map (withUnanswered unanswered) := by
  rw [moveProcessToExec, moveProcessToExec, withUnanswered_queueReady]
  cases kernel.queueReady with
  | nil => rfl
  | cons process rest =>
      simp only [withUnanswered_setQueue, withUnanswered_queuePush, withUnanswered_sendToCpu,
        Option.map_some]

theorem withUnanswered_shortTermPlannerDispatch (config : KernelConfig) :
    (kernel.withUnanswered unanswered).shortTermPlannerDispatch config =
      (kernel.shortTermPlannerDispatch config).map (withUnanswered unanswered) := by
  unfold shortTermPlannerDispatch
  rw [withUnanswered_semWait]
  cases kernel.semWait .cpuAvailable with
  | none => rfl
  | some waited =>
      simp only [Option.map_some, Option.bind_eq_bind, Option.bind_some]
      split
      · have sorted : (waited.withUnanswered unanswered).sortQueue config =
            (waited.sortQueue config).withUnanswered unanswered := rfl
        rw [sorted]
        exact withUnanswered_moveProcessToExec unanswered
      · exact withUnanswered_moveProcessToExec unanswered

end Kernel

namespace System

variable {config : KernelConfig} {system next : System} {event : Event}
  (unanswered : List (OperationCode × Pcb)) (unraised : Nat) (hasInterrupt : Bool)

/-- The system as it looks when the CPU takes messages and interrupts late: these are not answered, so
    many interrupts are not raised, and the flag is another one. -/
def withCpu (system : System) : System :=
  { system with
    kernel := system.kernel.withUnanswered unanswered
    interruptHeaders := system.interruptHeaders + unraised
    hasInterrupt := hasInterrupt }

theorem onKernel_withCpu {operation : Kernel → Option Kernel}
    (same : operation (system.kernel.withUnanswered unanswered) =
      (operation system.kernel).map (Kernel.withUnanswered unanswered)) :
    (system.withCpu unanswered unraised hasInterrupt).onKernel operation =
      (system.onKernel operation).map (withCpu unanswered unraised hasInterrupt) := by
  change (operation (system.kernel.withUnanswered unanswered)).map _ = _
  rw [same, onKernel, Option.map_map, Option.map_map]
  rfl

theorem onKernel_some_withCpu {operation : Kernel → Kernel}
    (same : operation (system.kernel.withUnanswered unanswered) =
      (operation system.kernel).withUnanswered unanswered) :
    ((system.withCpu unanswered unraised hasInterrupt).onKernel fun kernel =>
        some (operation kernel)) =
      (system.onKernel fun kernel => some (operation kernel)).map
        (withCpu unanswered unraised hasInterrupt) :=
  onKernel_withCpu unanswered unraised hasInterrupt (congrArg some same)

theorem longTerm_withCpu :
    (system.withCpu unanswered unraised hasInterrupt).longTerm = system.longTerm := rfl

theorem shortTerm_withCpu :
    (system.withCpu unanswered unraised hasInterrupt).shortTerm = system.shortTerm := rfl

/-- The CPU's flag and the requests are left alone, except by the handler of the requests, and the
    interrupts, except by the short-term planner. -/
theorem step_leaves (ofKernel : event.isOfKernel = true) (notDispatch : event ≠ .handleDispatch)
    (taken : system.step config event = some next) :
    next.hasInterrupt = system.hasInterrupt ∧ next.cpuMessages = system.cpuMessages ∧
      (event ≠ .shortTermPlanner →
        next.shortTerm = system.shortTerm ∧ next.interruptHeaders = system.interruptHeaders) := by
  cases event with
  | cpuExecute _ _ _ | cpuReadInterrupt => cases ofKernel
  | handleDispatch => exact absurd rfl notDispatch
  | createProcess _ _ _ | modifyMultiprogrammingDegree _ =>
      obtain rfl := Option.some.inj taken
      exact ⟨rfl, rfl, fun _ => ⟨rfl, rfl⟩⟩
  | finishProcess _ | startPlanning | stopPlanning =>
      obtain ⟨kernel, _, rfl⟩ := Option.map_eq_some_iff.mp taken
      exact ⟨rfl, rfl, fun _ => ⟨rfl, rfl⟩⟩
  | longTermPlanner =>
      change system.longTermPlanner = some next at taken
      unfold longTermPlanner at taken
      split at taken
      all_goals
        obtain ⟨kernel, _, rfl⟩ := Option.map_eq_some_iff.mp taken
        exact ⟨rfl, rfl, fun _ => ⟨rfl, rfl⟩⟩
  | shortTermPlanner =>
      obtain ⟨_, taken⟩ := Option.ite_none_right_eq_some.mp taken
      split at taken
      · obtain ⟨kernel, _, rfl⟩ := Option.map_eq_some_iff.mp taken
        exact ⟨rfl, rfl, fun other => absurd rfl other⟩
      · obtain ⟨kernel, _, rfl⟩ := Option.map_eq_some_iff.mp taken
        exact ⟨rfl, rfl, fun other => absurd rfl other⟩
      · obtain ⟨kernel, _, rfl⟩ := Option.map_eq_some_iff.mp taken
        split <;> exact ⟨rfl, rfl, fun other => absurd rfl other⟩
      · obtain rfl := Option.some.inj taken
        exact ⟨rfl, rfl, fun other => absurd rfl other⟩
  | sleepThread index =>
      simp only [step] at taken
      split at taken
      · cases taken
      · obtain rfl := Option.some.inj taken
        exact ⟨rfl, rfl, fun _ => ⟨rfl, rfl⟩⟩

/-- The kernel does not notice. -/
theorem step_withCpu (ofKernel : event.isOfKernel = true) :
    (system.withCpu unanswered unraised hasInterrupt).step config event =
      (system.step config event).map (withCpu unanswered unraised hasInterrupt) := by
  cases event with
  | createProcess path quantum clientSocket =>
      exact onKernel_some_withCpu unanswered unraised hasInterrupt rfl
  | finishProcess pid =>
      exact onKernel_withCpu _ _ _ (Kernel.withUnanswered_finishProcess unanswered pid)
  | startPlanning =>
      refine onKernel_withCpu _ _ _ ?_
      unfold Kernel.startPlanning
      rw [Kernel.withUnanswered_semWait]
      cases system.kernel.semWait .mutexStoppingPlanner <;> rfl
  | stopPlanning =>
      refine onKernel_withCpu _ _ _ ?_
      simp only [Kernel.stopPlanning, Kernel.withUnanswered_semPost,
        Kernel.withUnanswered_semWait]
      cases (system.kernel.semPost .mutexStoppingPlanner).semWait .shortTermPlanner with
      | none => rfl
      | some waited => exact Kernel.withUnanswered_semWait unanswered _
  | modifyMultiprogrammingDegree newDegree =>
      refine onKernel_some_withCpu unanswered unraised hasInterrupt ?_
      unfold Kernel.modifyMultiprogrammingDegree
      split <;> rfl
  | longTermPlanner =>
      change longTermPlanner _ = system.longTermPlanner.map _
      rw [longTermPlanner, longTermPlanner, longTerm_withCpu]
      cases system.longTerm with
      | parked | hasPlanner =>
          simp only [withCpu, Kernel.withUnanswered_semWait, Option.map_map]
          rfl
      | hasDegree =>
          simp only [withCpu, Kernel.withUnanswered_longTermPlannerAdmit, Option.map_map]
          rfl
  | shortTermPlanner =>
      change shortTermPlanner config _ = (shortTermPlanner config system).map _
      unfold shortTermPlanner
      by_cases known : knownAlgorithm config = true
      · rw [if_pos known, if_pos known]
        rw [shortTerm_withCpu]
        cases system.shortTerm with
        | parked | hasPlanner =>
            simp only [withCpu, Kernel.withUnanswered_semWait, Option.map_map]
            rfl
        | hasReady =>
            simp only [withCpu, Kernel.withUnanswered_shortTermPlannerDispatch, Option.map_map]
            congr 1
            funext kernel
            simp only [Function.comp_apply]
            split <;> rfl
        | inQuantum =>
            refine congrArg some ?_
            simp only [withCpu, Kernel.withUnanswered_semPost]
            rw [Nat.add_right_comm]
      · rw [if_neg known, if_neg known]
        rfl
  | handleDispatch =>
      have same : (system.withCpu unanswered unraised hasInterrupt).cpuMessages =
          system.cpuMessages := rfl
      rw [step, step, same]
      cases system.cpuMessages with
      | nil => rfl
      | cons message rest =>
          exact @onKernel_withCpu { system with cpuMessages := rest } unanswered unraised
            hasInterrupt _ (Kernel.withUnanswered_handleDispatchConnection unanswered message)
  | sleepThread index =>
      have same : (system.withCpu unanswered unraised hasInterrupt).kernel.sleepThreads =
          system.kernel.sleepThreads := rfl
      rw [step, step, same]
      cases system.kernel.sleepThreads[index]? with
      | none => rfl
      | some thread =>
          refine congrArg some ?_
          have same : (system.kernel.withUnanswered unanswered).sleepThreadStep thread index =
              (system.kernel.sleepThreadStep thread index).withUnanswered unanswered := by
            unfold Kernel.sleepThreadStep
            cases thread.phase <;> rfl
          exact congrArg (fun kernel => { system with
            kernel := kernel
            interruptHeaders := system.interruptHeaders + unraised
            hasInterrupt := hasInterrupt }) same
  | cpuExecute request cpuRegister programCounter => cases ofKernel
  | cpuReadInterrupt => cases ofKernel

end System

/-! ### What a statement of the CPU sends -/

/-- The process that the thread is executing, and about which it has sent nothing yet. -/
def Position.process? : Position → Option Pcb
  | .executing process | .locking process false | .testing process false | .preempting process
  | .unlocking process false => some process
  | _ => none

theorem Position.process?_of_inInterruptCase {position : Position}
    (inCase : position.inInterruptCase = true) : position.process? = none := by
  cases position <;> first | rfl | cases inCase

/-- The two are the same process, possibly with other registers and another program counter. -/
def Pcb.ExecutedTo (received process : Pcb) : Prop :=
  { received with
    cpuRegister := process.cpuRegister
    programCounter := process.programCounter } = process

/-- The messages that the thread has received and not answered. -/
def Position.Owes (position : Position) (unanswered : List (OperationCode × Pcb)) : Prop :=
  match position.process? with
  | none => unanswered = []
  | some process => ∃ header received,
      unanswered = [(header, received)] ∧ received.ExecutedTo process

/-- A statement sends nothing, or one message about the process, which is the last about it.  It is an
    interrupt only where the flag was seen. -/
inductive SendEffect (globals after : Globals) : Position → Position → Prop where
  | silent {position next : Position} (same : after.sent = globals.sent)
      (kept : ∀ {unanswered}, position.Owes unanswered → next.Owes unanswered) :
      SendEffect globals after position next
  | sends {position next : Position} (process : Pcb) (request : CpuRequest)
      (about : position.process? = some process)
      (sent : after.sent = globals.sent ++ [{ request := request, pcb := process }])
      (through : next.process? = none)
      (preempts : request = .interrupt → position = .preempting process)
      (settled : next.discards = true ∨ after.hasInterrupt = false) :
      SendEffect globals after position next

theorem proceed_sendEffect {machine : Machine} {stale : List UInt8} {globals after : Globals}
    {handler next : Handler}
    (proceeded : globals.proceed machine stale handler = some (after, next)) :
    SendEffect globals after handler.position next.position := by
  obtain ⟨position, tokens⟩ := handler
  rw [Globals.proceed] at proceeded
  cases position with
  | listening | stopped => cases proceeded
  | preempting process =>
      cases proceeded
      exact .sends process .interrupt rfl rfl rfl (fun _ => rfl) (.inr rfl)
  | interrupting | retaking =>
      obtain ⟨_, result⟩ := Option.ite_none_right_eq_some.mp proceeded
      cases result
      exact .silent rfl id
  | locking process endOfExecution =>
      obtain ⟨_, result⟩ := Option.ite_none_right_eq_some.mp proceeded
      cases result
      cases endOfExecution <;> exact .silent rfl id
  | raising | raised | rejecting | clearing =>
      cases proceeded
      exact .silent rfl id
  | unlocking process endOfExecution =>
      cases proceeded
      cases endOfExecution <;> exact .silent rfl id
  | testing process endOfExecution =>
      cases proceeded
      cases endOfExecution <;> cases globals.hasInterrupt <;> exact .silent rfl id
  | executing process =>
      simp only [Globals.executeInstruction, Option.bind_eq_bind, Option.bind_eq_some_iff] at proceeded
      obtain ⟨instruction, _, ⟨cpuRegister, request⟩, executed, result⟩ := proceeded
      cases result
      cases request with
      | none =>
          refine .silent (List.append_nil _) ?_
          rintro unanswered ⟨header, received, rfl, same⟩
          refine ⟨header, received, rfl, ?_⟩
          rw [Pcb.ExecutedTo] at same ⊢
          rw [← same]
      | some request =>
          refine .sends process request rfl rfl rfl ?_ (.inl rfl)
          rintro rfl
          exact absurd rfl (executeInstructionCycle_cases executed).1

/-- A thread that is in no `INTERRUPT` case does not get into one by itself, and an abstract flag that
    is set when the thread's may be seen, stays so. -/
theorem FlagEffect.lags {before after hasInterrupt : Bool} {position next : Position}
    (effect : FlagEffect before after position next) (outside : position.inInterruptCase = false)
    (flag : position.discards = false → before = true → hasInterrupt = true) :
    next.inInterruptCase = false ∧
      (next.discards = false → after = true → hasInterrupt = true) ∧
      ∀ process, next = .preempting process → hasInterrupt = true := by
  cases effect with
  | preempts process cleared => exact ⟨rfl, fun _ set => absurd (cleared.symm.trans set) nofun, nofun⟩
  | discards cleared => exact ⟨rfl, fun _ set => absurd (cleared.symm.trans set) nofun, nofun⟩
  | raises set => cases outside
  | keeps same other discarded preempts holds stays enters =>
      have seen : next.discards = false → before = true → hasInterrupt = true := by
        intro kept set
        cases discarding : position.discards with
        | false => exact flag discarding set
        | true =>
            rw [discarded discarding kept] at set
            cases set
      refine ⟨?_, ?_, ?_⟩
      · cases entered : next.inInterruptCase with
        | false => rfl
        | true => rw [enters entered] at outside; cases outside
      · rw [same]
        exact seen
      · rintro process rfl
        exact seen rfl (preempts process rfl)

namespace CpuSystem

variable {config : KernelConfig} {machine : Machine} {state next : CpuSystem}
  {unanswered : List (OperationCode × Pcb)} {hasInterrupt : Bool}

/-- The interrupts that were received and not raised. -/
def unraised (state : CpuSystem) : Nat :=
  if state.cpu.interruptThread.position.holdsInterrupt then 1 else 0

/-- What the CPU has received is answered or owed, and where the flag may be seen the abstract flag is
    set when it is. -/
structure Lags (state : CpuSystem) (unanswered : List (OperationCode × Pcb))
    (hasInterrupt : Bool) : Prop where
  connection : ∀ message ∈ state.system.kernel.cpuDispatchConnection, message.1.executes = true
  dispatchThread : state.cpu.dispatchThread.position.inInterruptCase = false
  interruptThread : state.cpu.interruptThread.position = .listening ∨
    state.cpu.interruptThread.position.inInterruptCase = true
  sent : state.cpu.globals.sent = []
  owes : state.cpu.dispatchThread.position.Owes unanswered
  flag : state.cpu.dispatchThread.position.discards = false →
    state.cpu.globals.hasInterrupt = true → hasInterrupt = true
  preempting : ∀ process, state.cpu.dispatchThread.position = .preempting process →
    hasInterrupt = true

/-- The atomic system in the state that the CPU, which lags behind, is catching up with. -/
def Refines (state : CpuSystem) (abstract : System) : Prop :=
  ∃ unanswered hasInterrupt, state.Lags unanswered hasInterrupt ∧
    abstract = state.system.withCpu unanswered state.unraised hasInterrupt

theorem Refines.init (config : KernelConfig) :
    (CpuSystem.init config).Refines (System.init config) := by
  refine ⟨[], false, ?_, rfl⟩
  exact
    { connection := by simp [CpuSystem.init, System.init, Kernel.init]
      dispatchThread := rfl
      interruptThread := .inl rfl
      sent := rfl
      owes := rfl
      flag := by simp [CpuSystem.init, Cpu.init]
      preempting := by simp [CpuSystem.init, Cpu.init] }

/-- A step of the kernel is the same step. -/
theorem Lags.kernelStep {event : Event} (lags : state.Lags unanswered hasInterrupt)
    (stepped : state.kernelStep config event = some next) :
    (state.system.withCpu unanswered state.unraised hasInterrupt).step config event =
        some (next.system.withCpu unanswered next.unraised hasInterrupt) ∧
      next.Lags unanswered hasInterrupt := by
  obtain ⟨ofKernel, stepped⟩ := Option.ite_none_right_eq_some.mp stepped
  obtain ⟨after, taken, rfl⟩ := Option.map_eq_some_iff.mp stepped
  obtain ⟨sent, connection, headers⟩ := (System.step_cases taken).sends ofKernel
  obtain ⟨cpu, -⟩ := foldl_countExecuteProcess_fields state
    (after.kernel.cpuDispatchConnection.drop state.system.kernel.cpuDispatchConnection.length)
  constructor
  · rw [System.step_withCpu unanswered state.unraised hasInterrupt ofKernel, taken]
    dsimp only [unraised]
    rw [cpu]
    rfl
  · exact
      { connection := by
          dsimp only
          rw [connection]
          intro message member
          rcases List.mem_append.mp member with old | new
          · exact lags.connection message old
          · exact headers message new
        dispatchThread := by dsimp only; rw [cpu]; exact lags.dispatchThread
        interruptThread := by dsimp only; rw [cpu]; exact lags.interruptThread
        sent := by dsimp only; rw [cpu]; exact lags.sent
        owes := by dsimp only; rw [cpu]; exact lags.owes
        flag := by dsimp only; rw [cpu]; exact lags.flag
        preempting := by dsimp only; rw [cpu]; exact lags.preempting }

/-- What the dispatch thread receives is owed from now on. -/
theorem Lags.receiveDispatch (lags : state.Lags unanswered hasInterrupt)
    (stepped : state.receiveDispatch machine = some next) :
    next.Refines (state.system.withCpu unanswered state.unraised hasInterrupt) := by
  rw [CpuSystem.receiveDispatch] at stepped
  split at stepped
  · cases stepped
  · next header pcb rest head =>
      obtain ⟨cpu, cpuStepped, rfl⟩ := Option.map_eq_some_iff.mp stepped
      obtain ⟨after, handler, taken, rfl⟩ := Cpu.step_dispatch cpuStepped
      obtain ⟨rfl, listening, handled⟩ := receive_effect taken
      have executes := lags.connection (header, pcb) (by rw [head]; exact List.mem_cons_self)
      have position := executing_of_executes executes handled
      have owed := lags.owes
      rw [listening] at owed
      obtain rfl : unanswered = [] := owed
      refine ⟨[(header, pcb)], hasInterrupt, ?_, ?_⟩
      · exact
          { lags with
            connection := fun message member => lags.connection message
              (by rw [head]; exact List.mem_cons_of_mem _ member)
            dispatchThread := by dsimp only [Cpu.withDispatch]; rw [position]; rfl
            owes := by
              dsimp only [Cpu.withDispatch]
              rw [position]
              exact ⟨header, pcb, rfl, rfl⟩
            flag := fun _ => lags.flag (by rw [listening]; rfl)
            preempting := by
              dsimp only [Cpu.withDispatch]
              rw [position]
              intro process impossible
              cases impossible }
      · simp only [System.withCpu, Kernel.withUnanswered, head, List.nil_append, List.singleton_append]
        rfl

theorem recordDispatch_system (position : Position) :
    (state.recordDispatch position).system = state.system := by
  unfold recordDispatch
  split <;> rfl

/-- A statement of the dispatch thread sends nothing, or answers what it owes. -/
theorem Lags.proceedDispatch {stale : List UInt8} (lags : state.Lags unanswered hasInterrupt)
    (stepped : state.proceedDispatch machine stale = some next) :
    ∃ block after,
      run (System.step config) (state.system.withCpu unanswered state.unraised hasInterrupt) block =
        some after ∧ next.Refines after := by
  obtain ⟨cpu, cpuStepped, rfl⟩ := Option.map_eq_some_iff.mp stepped
  obtain ⟨after, handler, taken, rfl⟩ := Cpu.step_dispatch cpuStepped
  obtain ⟨outside, flag, preempting⟩ :=
    (proceed_flagEffect taken).lags lags.dispatchThread lags.flag
  cases proceed_sendEffect taken with
  | silent same kept =>
      rw [lags.sent] at same
      refine ⟨[], _, rfl, unanswered, hasInterrupt, ?_, ?_⟩
      · exact
          { connection := by dsimp only; rw [recordDispatch_system]; exact lags.connection
            dispatchThread := outside
            interruptThread := lags.interruptThread
            sent := rfl
            owes := kept lags.owes
            flag := flag
            preempting := preempting }
      · simp only [recordDispatch_system, Cpu.withDispatch, same, List.append_nil]
        rfl
  | sends process request about sent through preempts settled =>
      rw [lags.sent, List.nil_append] at sent
      have owed := lags.owes
      rw [Position.Owes, about] at owed
      obtain ⟨header, received, rfl, executed⟩ := owed
      have allowed : ¬ (request = .interrupt ∧ hasInterrupt = false) := by
        rintro ⟨rfl, clear⟩
        rw [lags.preempting process (preempts rfl)] at clear
        cases clear
      refine ⟨[.cpuExecute request process.cpuRegister process.programCounter], _, ?_, [], false,
        ?_, rfl⟩
      · rw [run_cons]
        change (if request = .interrupt ∧ hasInterrupt = false then none else _).bind _ = _
        rw [if_neg allowed, executed]
        simp only [Option.bind_some, run_nil, System.withCpu, Kernel.withUnanswered,
          recordDispatch_system, Cpu.withDispatch, sent]
        rfl
      · exact
          { connection := by dsimp only; rw [recordDispatch_system]; exact lags.connection
            dispatchThread := outside
            interruptThread := lags.interruptThread
            sent := rfl
            owes := by
              rw [Position.Owes]
              dsimp only [Cpu.withDispatch]
              rw [through]
            flag := fun shown set => by
              rcases settled with discarding | cleared
              · cases discarding.symm.trans shown
              · cases cleared.symm.trans set
            preempting := fun other there => by
              dsimp only [Cpu.withDispatch] at there
              rw [there] at through
              cases through }

/-- An interrupt that is received counts as on the connection. -/
theorem Lags.receiveInterrupt (lags : state.Lags unanswered hasInterrupt)
    (stepped : state.receiveInterrupt machine = some next) :
    next.Refines (state.system.withCpu unanswered state.unraised hasInterrupt) := by
  obtain ⟨some_, stepped⟩ := Option.ite_none_right_eq_some.mp stepped
  obtain ⟨cpu, cpuStepped, rfl⟩ := Option.map_eq_some_iff.mp stepped
  obtain ⟨after, handler, taken, rfl⟩ := Cpu.step_interrupt cpuStepped
  obtain ⟨rfl, listening, handled⟩ := receive_effect taken
  have position : handler.position = .interrupting := (Option.some.inj handled).symm
  refine ⟨unanswered, hasInterrupt, ?_, ?_⟩
  · exact
      { lags with
        interruptThread := .inr (by dsimp only [Cpu.withInterrupt]; rw [position]; rfl) }
  · have one : state.system.interruptHeaders + 0 = state.system.interruptHeaders - 1 + 1 := by omega
    simp only [System.withCpu, unraised, Cpu.withInterrupt, listening, position,
      Position.holdsInterrupt, if_true, Bool.false_eq_true, if_false, one]

/-- A statement of the interrupt thread is the read of an interrupt where it sets the flag. -/
theorem Lags.proceedInterrupt {stale : List UInt8} (lags : state.Lags unanswered hasInterrupt)
    (notListening : state.cpu.interruptThread.position ≠ .listening)
    (stepped : state.proceedInterrupt machine stale = some next) :
    ∃ block after,
      run (System.step config) (state.system.withCpu unanswered state.unraised hasInterrupt) block =
        some after ∧ next.Refines after := by
  obtain ⟨cpu, cpuStepped, rfl⟩ := Option.map_eq_some_iff.mp stepped
  obtain ⟨after, handler, taken, rfl⟩ := Cpu.step_interrupt cpuStepped
  have inCase := lags.interruptThread.resolve_left notListening
  have silent : after.sent = state.cpu.globals.sent := by
    cases proceed_sendEffect taken with
    | silent same kept => exact same
    | sends process request about =>
        rw [Position.process?_of_inInterruptCase inCase] at about
        cases about
  have effect := proceed_flagEffect taken
  generalize position : state.cpu.interruptThread.position = before at effect inCase
  generalize leads : handler.position = reached at effect
  cases effect with
  | preempts | discards => cases inCase
  | raises set =>
      rw [if_pos rfl]
      refine ⟨[.cpuReadInterrupt], _, ?_, unanswered, true, ?_, rfl⟩
      · rw [run_cons]
        change (if 0 < state.system.interruptHeaders + state.unraised then _ else none).bind _ = _
        have one : state.unraised = 1 := by rw [unraised, position]; rfl
        have none_ : Position.raised.holdsInterrupt = false := rfl
        rw [one, if_pos (Nat.succ_pos _)]
        simp only [Option.bind_some, run_nil, System.withCpu, unraised, Cpu.withInterrupt, leads,
          none_, Nat.add_sub_cancel, Bool.false_eq_true, if_false, Nat.add_zero]
      · exact
          { lags with
            interruptThread := .inr (by dsimp only [Cpu.withInterrupt]; rw [leads]; rfl)
            sent := silent.trans lags.sent
            flag := fun _ _ => rfl
            preempting := fun _ _ => rfl }
  | keeps same other discarded preempts holds stays enters =>
      rw [if_neg other.2.2]
      refine ⟨[], _, rfl, unanswered, hasInterrupt, ?_, ?_⟩
      · exact
          { lags with
            interruptThread := by
              dsimp only [Cpu.withInterrupt]
              rw [leads]
              exact stays inCase
            sent := silent.trans lags.sent
            flag := by
              dsimp only [Cpu.withInterrupt]
              rw [same]
              exact lags.flag }
      · simp only [unraised, Cpu.withInterrupt, leads, position, holds]

/-- Every step of the CPU or the kernel is at most one step of the atomic system. -/
theorem Refines.step {abstract : System} {event : CpuSystemEvent} (refines : state.Refines abstract)
    (stepped : state.step config machine event = some next) :
    ∃ block after, run (System.step config) abstract block = some after ∧ next.Refines after := by
  obtain ⟨unanswered, hasInterrupt, lags, rfl⟩ := refines
  cases event with
  | kernel event =>
      obtain ⟨same, after⟩ := lags.kernelStep stepped
      refine ⟨[event], _, ?_, unanswered, hasInterrupt, after, rfl⟩
      rw [run_cons, same]
      rfl
  | dispatchThread stale =>
      rw [CpuSystem.step] at stepped
      split at stepped
      · exact ⟨[], _, rfl, lags.receiveDispatch stepped⟩
      · exact lags.proceedDispatch stepped
  | interruptThread stale =>
      rw [CpuSystem.step] at stepped
      split at stepped
      · exact ⟨[], _, rfl, lags.receiveInterrupt stepped⟩
      · next notListening => exact lags.proceedInterrupt notListening stepped

end CpuSystem

/-- Every run of the kernel with the CPU statement by statement is a run of the atomic system: what the
    CPU sends, and when it may, is what the atomic CPU can send. -/
theorem cpu_run_refines_system (config : KernelConfig) (machine : Machine)
    (events : List CpuSystemEvent) (state : CpuSystem)
    (reaches : run (CpuSystem.step config machine) (CpuSystem.init config) events = some state) :
    ∃ atomic system, run (System.step config) (System.init config) atomic = some system ∧
      state.Refines system :=
  exists_run_of_simulation CpuSystem.Refines (fun refines stepped => refines.step stepped)
    (CpuSystem.Refines.init config) reaches

/-- The first quantum expires, and the interrupt hits the instruction that ends the process. -/
theorem cpu_run_refines_system_quantumExpires :
    ∃ state, run (CpuSystem.step roundRobinConfig exitingMachine) (CpuSystem.init roundRobinConfig)
        (dispatchFirstOfTwo ++ quantumExpires) = some state ∧
      ∃ atomic system,
        run (System.step roundRobinConfig) (System.init roundRobinConfig) atomic = some system ∧
          state.Refines system :=
  ⟨_, rfl, cpu_run_refines_system roundRobinConfig exitingMachine
    (dispatchFirstOfTwo ++ quantumExpires) _ rfl⟩

end OsSimulator
