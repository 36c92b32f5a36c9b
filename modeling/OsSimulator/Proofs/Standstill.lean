/-
Module: OsSimulator.Proofs.Standstill
Purpose: What the kernel comes to when it is left to itself, with handlers and planner segments that run
  whole.  With planning on and programs that exit when they get the CPU, it takes a bounded number of
  steps, and at the end every process has finished, is blocked, or waits in `queue_new` because blocked
  processes hold all the slots.
Main exports: System.Busy, System.OwnStep, System.work, System.Drained, run_drains
-/
import OsSimulator.Proofs.Counters
import OsSimulator.Proofs.Places
import OsSimulator.Proofs.WakeOrder

namespace OsSimulator

open Transition

/-! ### The slots of multiprogramming -/

namespace Kernel

variable {config : KernelConfig} {kernel next : Kernel} {message : Message} {pid : UInt32}

/-- The slots in use: those of the processes from READY on. -/
def slotsInUse (kernel : Kernel) : Nat :=
  kernel.queueReady.length + kernel.queueExec.length + kernel.blockedLength + kernel.asleep.length

/-- A finish frees the slot of a process that had one. -/
theorem slotsInUse_finishProcess (states : kernel.StatesMatch)
    (finished : kernel.finishProcess pid = some next) :
    next.sem .multiprogrammingDegree + next.slotsInUse =
      kernel.sem .multiprogrammingDegree + kernel.slotsInUse := by
  rcases finishProcess_cases finished with ⟨_, rfl⟩ | ⟨id, process, woken, middle, finishes⟩
  · simp [slotsInUse, blockedLength, asleep]
  · have sem := finishes.sem .multiprogrammingDegree
    obtain ⟨_, ready, exec, blocked⟩ := finishes.weigh one_stateBlind
    have sleeping : next.asleep = kernel.asleep := by
      rw [asleep, asleep, (threads_finishProcess finished).1]
    simp only [weigh_one, weighAll_blocked] at ready exec blocked
    simp only [states.state_of_mem finishes.mem_queue, reduceCtorEq, if_false] at sem
    simp only [slotsInUse, sleeping]
    cases id <;>
      simp only [QueueId.state, QueueId.isBlocked, finishPosts, finishWaits, reduceCtorEq, if_true,
        if_false] at * <;>
      omega

/-- A message takes and gives no slot but by a finish. -/
theorem slotsInUse_dispatchEffect (shape : kernel.Shape config) (states : kernel.StatesMatch)
    (executing : message.request.Pops kernel → kernel.queueExec ≠ [])
    (effect : DispatchEffect message kernel next) :
    next.sem .multiprogrammingDegree + next.slotsInUse =
      kernel.sem .multiprogrammingDegree + kernel.slotsInUse := by
  cases effect with
  | finishes _ finished =>
      have logged : (kernel.log (.received message)).StatesMatch :=
        states.congr (by simp) (by simp) (by simp) (by simp)
      have same := slotsInUse_finishProcess logged finished
      simpa [slotsInUse, blockedLength, asleep] using same
  | interrupts requested result =>
      subst result
      have notEmpty := executing (by simp [CpuRequest.Pops, requested])
      have shorter : kernel.queueExec.tail.length + 1 = kernel.queueExec.length := by
        rw [List.length_tail, Nat.sub_add_cancel (List.length_pos_iff.mpr notEmpty)]
      simp [slotsInUse, blockedLength, asleep, handleInterrupt, queuePush] at shorter ⊢
      omega
  | grants _ _ _ _ result =>
      subst result
      simp [slotsInUse, blockedLength, asleep, removeResourceInstance]
  | blocks resource process rest _ valid _ head lines _ result =>
      subst result
      have atLog : (kernel.log (.received message)).listOfQueueBlocked[kernel.getQueueBlocked resource]? =
          some ((kernel.log (.received message)).queue
            (.blocked (kernel.getQueueBlocked resource))) := by
        simpa using getElem?_getQueueBlocked shape valid
      have longer := weighAll_pushBlocked process rest atLog one_stateBlind
      simp only [weighAll_blocked] at longer
      change ((kernel.log (.received message)).pushBlocked process rest
          (kernel.getQueueBlocked resource)).sem .multiprogrammingDegree +
        ((kernel.log (.received message)).pushBlocked process rest
          (kernel.getQueueBlocked resource)).slotsInUse = _
      rw [slotsInUse, longer, pushBlocked_sem]
      simp [slotsInUse, blockedLength, asleep, head]
      omega
  | releases _ _ _ _ result =>
      subst result
      simp [slotsInUse, blockedLength, asleep, addResourceInstance]
  | sleeps _ _ result =>
      subst result
      simp [slotsInUse, blockedLength, asleep, handleSleepInterruption]

end Kernel

namespace System

/-- A thread that falls asleep is one more. -/
theorem length_asleep_set {threads : List SleepThread} {index : Nat} {thread : SleepThread}
    (at_index : threads[index]? = some thread) (starting : thread.phase = .starting) :
    ((threads.set index { thread with phase := .sleeping }).filter
        fun thread => thread.phase = .sleeping).length =
      (threads.filter fun thread => thread.phase = .sleeping).length + 1 := by
  induction threads generalizing index with
  | nil => simp at at_index
  | cons head tail ih =>
      cases index with
      | zero =>
          obtain rfl : head = thread := by simpa using at_index
          simp [starting]
      | succ index =>
          have rest := ih (by simpa using at_index)
          rw [List.set_cons_succ, List.filter_cons, List.filter_cons]
          split <;> simp [rest]

/-- A thread that ends its sleep is one less. -/
theorem length_asleep_eraseIdx {threads : List SleepThread} {index : Nat} {thread : SleepThread}
    (at_index : threads[index]? = some thread) (sleeping : thread.phase = .sleeping) :
    ((threads.eraseIdx index).filter fun thread => thread.phase = .sleeping).length + 1 =
      (threads.filter fun thread => thread.phase = .sleeping).length := by
  induction threads generalizing index with
  | nil => simp at at_index
  | cons head tail ih =>
      cases index with
      | zero =>
          obtain rfl : head = thread := by simpa using at_index
          simp [sleeping]
      | succ index =>
          have rest := ih (by simpa using at_index)
          rw [List.eraseIdx_cons_succ, List.filter_cons, List.filter_cons]
          split <;> simp [← rest]

/-- Free slots, the one that the long-term planner holds, and those in use. -/
def slotsInAll (system : System) : Nat :=
  system.kernel.sem .multiprogrammingDegree + system.degreeHeld + system.kernel.slotsInUse

/-- The places are kept, the console spares the processes that the CPU holds, and nobody changes the
    degree. -/
def SparesHeld (system : System) (event : Event) : Prop :=
  system.KeepsPlaces event ∧
    match event with
    | .finishProcess pid => pid ∉ system.cpuHolds.map Pcb.pid
    | .modifyMultiprogrammingDegree _ => False
    | _ => True

instance (system : System) : ∀ event, Decidable (system.SparesHeld event)
  | .finishProcess _ => inferInstanceAs (Decidable (_ ∧ _ ∉ _))
  | .modifyMultiprogrammingDegree _ => inferInstanceAs (Decidable (_ ∧ False))
  | .createProcess .. | .startPlanning | .stopPlanning | .longTermPlanner | .shortTermPlanner
  | .cpuExecute .. | .cpuReadInterrupt | .handleDispatch | .sleepThread _ =>
      inferInstanceAs (Decidable (_ ∧ True))

variable {config : KernelConfig} {system next : System}

/-- No step makes or loses a slot but a command. -/
theorem Placed.slotsInAll_step {event : Event} (placed : Placed config system)
    (spares : system.SparesHeld event) (taken : system.step config event = some next) :
    next.slotsInAll = system.slotsInAll := by
  have own := placed.popsOwn spares.1
  cases step_cases taken with
  | creates path quantum clientSocket result =>
      subst result
      simp [slotsInAll, degreeHeld, Kernel.slotsInUse, Kernel.blockedLength, Kernel.asleep,
        Kernel.receivePcbAndCreate, Kernel.moveProcessToNew, Kernel.queuePush, Kernel.sendToMemory]
  | finishes pid kernel finished result =>
      subst result
      have same := Kernel.slotsInUse_finishProcess placed.toStatesMatch finished
      simp only [slotsInAll, degreeHeld]
      omega
  | modifies _ _ => exact spares.2.elim
  | plans _ quiet _ =>
      have sem := quiet.semDegree
      simp only [slotsInAll, Kernel.slotsInUse, Kernel.blockedLength, Kernel.asleep, quiet.queueReady,
        quiet.queueExec, quiet.listOfQueueBlocked, quiet.sleepThreads]
      omega
  | admits process rest admits =>
      simp [slotsInAll, degreeHeld, Kernel.slotsInUse, Kernel.blockedLength, Kernel.asleep,
        admits.queueReady, admits.queueExec, admits.listOfQueueBlocked, admits.sleepThreads,
        admits.semDegree, admits.held, admits.longTerm]
      omega
  | dispatches process rest dispatches =>
      have length := dispatches.perm.length_eq
      simp [slotsInAll, degreeHeld, Kernel.slotsInUse, Kernel.blockedLength, Kernel.asleep,
        dispatches.queueReady, dispatches.queueExec, dispatches.listOfQueueBlocked,
        dispatches.sleepThreads, dispatches.semDegree, dispatches.longTerm, ← length]
      omega
  | executes _ _ _ _ _ _ _ result => subst result; rfl
  | handles message rest kernel head effect result =>
      subst result
      have executing : message.request.Pops system.kernel → system.kernel.queueExec ≠ [] := by
        intro pops empty
        have first := own message (by simp [head]) pops
        rw [empty] at first
        cases first
      have same := Kernel.slotsInUse_dispatchEffect placed.shape placed.toStatesMatch executing effect
      simp only [slotsInAll, degreeHeld]
      omega
  | sleepStarts index thread at_index starting result =>
      subst result
      have notEmpty : system.kernel.queueExec ≠ [] := by
        intro empty
        have first := own thread at_index starting
        rw [empty] at first
        cases first
      have shorter : system.kernel.queueExec.tail.length + 1 = system.kernel.queueExec.length := by
        rw [List.length_tail, Nat.sub_add_cancel (List.length_pos_iff.mpr notEmpty)]
      have longer := length_asleep_set at_index starting
      simp only [slotsInAll, degreeHeld, Kernel.slotsInUse, Kernel.blockedLength, Kernel.asleep,
        List.length_map, longer]
      omega
  | sleepEnds index thread at_index sleeping result =>
      subst result
      have shorter := length_asleep_eraseIdx at_index sleeping
      simp [slotsInAll, degreeHeld, Kernel.slotsInUse, Kernel.blockedLength, Kernel.asleep,
        Kernel.sleepThreadStep, sleeping, Kernel.queuePush] at shorter ⊢
      omega

/-! ### The invariant -/

/-- What holds along these runs: the places, the counters, the slots, and that the CPU only holds live
    processes. -/
structure Busy (config : KernelConfig) (system : System) : Prop
    extends Placed config system, Counted system where
  held : ∀ pid ∈ system.cpuHolds.map Pcb.pid, system.kernel.Live pid
  slots : system.slotsInAll = config.multiprogrammingDegree

theorem Busy.init (config : KernelConfig) : Busy config (System.init config) where
  toPlaced := .init config
  toCounted := .init config
  held := by simp [System.init, Kernel.init, cpuHolds]
  slots := by
    simp [slotsInAll, System.init, Kernel.init, initialSemaphores, degreeHeld, Kernel.slotsInUse,
      Kernel.blockedLength, Kernel.asleep]

/-- A ready process is live. -/
theorem Placed.live_of_ready {process : Pcb} (placed : Placed config system)
    (ready : process ∈ system.kernel.queueReady) : system.kernel.Live process.pid := by
  by_contra notLive
  have none := placed.absent process.pid notLive
  have inReady := one_le_weigh ready rfl
  simp only [Kernel.stays] at none
  omega

/-- A step that creates and finishes nothing, and brings the CPU live processes only. -/
theorem Busy.held_of_same (busy : Busy config system)
    (created : next.kernel.created = system.kernel.created)
    (finished : next.kernel.finished = system.kernel.finished)
    (holds : ∀ pid ∈ next.cpuHolds.map Pcb.pid,
      pid ∈ system.cpuHolds.map Pcb.pid ∨ system.kernel.Live pid) :
    ∀ pid ∈ next.cpuHolds.map Pcb.pid, next.kernel.Live pid := by
  intro pid member
  rw [live_congr created finished]
  rcases holds pid member with old | live
  · exact busy.held pid old
  · exact live

/-- A finish of a process that the CPU no longer holds. -/
theorem Busy.held_of_finish (busy : Busy config system) {pid : UInt32} {kernel : Kernel}
    {messages : List Message} (finished : system.kernel.finishProcess pid = some kernel)
    (kept : ∀ other ∈ (system.kernel.cpuDispatchConnection.map Prod.snd ++
      messages.map Message.pcb).map Pcb.pid, other ∈ system.cpuHolds.map Pcb.pid ∧ other ≠ pid) :
    ∀ other ∈ ({ system with kernel := kernel, cpuMessages := messages } : System).cpuHolds.map
      Pcb.pid, kernel.Live other := by
  intro other member
  have connection : kernel.cpuDispatchConnection = system.kernel.cpuDispatchConnection :=
    (Kernel.threads_finishProcess finished).2
  simp only [cpuHolds, connection] at member
  obtain ⟨old, different⟩ := kept other member
  have live := busy.held other old
  rcases Kernel.finishProcess_cases finished with ⟨_, rfl⟩ | ⟨_, _, _, _, finishes⟩
  · exact live
  · exact (finishes.live_iff other).mpr ⟨live, different⟩

/-- The process of the message that is handled is nothing else that the CPU holds. -/
theorem Placed.ne_of_rest {message : Message} {rest : List Message} (placed : Placed config system)
    (head : system.cpuMessages = message :: rest) {pid : UInt32}
    (member : pid ∈ (system.kernel.cpuDispatchConnection.map Prod.snd ++
      rest.map Message.pcb).map Pcb.pid) : pid ≠ message.pcb.pid := by
  rintro rfl
  have once := placed.once message.pcb.pid
  rw [tokens_eq_stays, weigh_pidWeight, cpuHolds, head] at once
  have occurs := List.count_pos_iff.mpr member
  simp only [List.map_append, List.map_cons, List.count_append, List.count_cons_self] at once occurs
  omega

theorem Busy.held_step {event : Event} (busy : Busy config system)
    (spares : system.SparesHeld event) (taken : system.step config event = some next) :
    ∀ pid ∈ next.cpuHolds.map Pcb.pid, next.kernel.Live pid := by
  have effect := step_cases taken
  by_cases onlyMoves : event.OnlyMoves
  · have finished := effect.finished_of_onlyMoves onlyMoves
    have created : next.kernel.created = system.kernel.created := by
      rcases effect.created with same | ⟨_, _, _, rfl, _⟩
      · exact same
      · exact onlyMoves.elim
    apply busy.held_of_same created finished
    intro pid member
    cases effect with
    | creates _ _ _ _ => exact onlyMoves.elim
    | finishes _ _ _ _ => exact onlyMoves.elim
    | handles _ _ _ _ _ _ => exact onlyMoves.elim
    | modifies _ _ => exact spares.2.elim
    | plans _ quiet _ =>
        simp only [cpuHolds, quiet.cpuDispatchConnection, quiet.cpuMessages] at member
        exact .inl member
    | admits _ _ admits =>
        simp only [cpuHolds, admits.cpuDispatchConnection, admits.cpuMessages] at member
        exact .inl member
    | dispatches process rest dispatches =>
        simp only [cpuHolds, dispatches.cpuDispatchConnection, dispatches.cpuMessages,
          List.map_append, List.map_cons, List.map_nil, List.mem_append, List.mem_singleton] at member
        rcases member with (old | rfl) | old
        · exact .inl (by simp only [cpuHolds, List.map_append]; exact List.mem_append_left _ old)
        · have ready : process ∈ system.kernel.queueReady :=
            dispatches.perm.subset List.mem_cons_self
          have live : system.kernel.Live process.pid := busy.live_of_ready ready
          exact .inr live
        · exact .inl (by simp only [cpuHolds, List.map_append]; exact List.mem_append_right _ old)
    | executes _ _ _ header process rest head result =>
        subst result
        refine .inl ?_
        simp only [cpuHolds, head, List.map_append, List.map_cons, List.map_nil, List.mem_append,
          List.mem_cons, List.not_mem_nil, or_false] at member ⊢
        tauto
    | sleepStarts _ _ _ _ result => subst result; exact .inl member
    | sleepEnds _ thread _ sleeping result =>
        subst result
        refine .inl ?_
        simpa [cpuHolds, Kernel.sleepThreadStep, sleeping, Kernel.queuePush] using member
  · cases effect with
    | creates path quantum clientSocket result =>
        subst result
        intro pid member
        have notFinished : system.kernel.idToAssign ∉ system.kernel.finished :=
          mt (busy.finished _) spares.1
        apply (Kernel.live_receivePcbAndCreate system.kernel path quantum clientSocket notFinished
          pid).mpr
        refine .inl (busy.held pid ?_)
        simpa [cpuHolds, Kernel.receivePcbAndCreate, Kernel.moveProcessToNew, Kernel.queuePush,
          Kernel.sendToMemory] using member
    | finishes pid kernel finished result =>
        subst result
        apply busy.held_of_finish finished
        intro other member
        exact ⟨member, fun same => spares.2 (same ▸ member)⟩
    | handles message rest kernel head effect result =>
        subst result
        have inRest : ∀ pid ∈ (system.kernel.cpuDispatchConnection.map Prod.snd ++
            rest.map Message.pcb).map Pcb.pid, pid ∈ system.cpuHolds.map Pcb.pid := by
          intro pid member
          simp only [cpuHolds, head, List.map_append, List.map_cons, List.mem_append,
            List.mem_cons] at member ⊢
          tauto
        by_cases calls : message.request.CallsFinish message.pcb system.kernel
        · have logged : Busy config
              { system with kernel := system.kernel.log (.received message) } :=
            { busy with shape := busy.shape.congr (by simp) (by simp) (by simp) }
          exact logged.held_of_finish (effect.finishProcess_of_callsFinish calls)
            fun other member => ⟨inRest other member, busy.ne_of_rest head member⟩
        · have created := Kernel.created_dispatchEffect effect
          have finished : kernel.finished = system.kernel.finished := by
            rcases Kernel.finished_dispatchEffect effect with ⟨same, _⟩ | ⟨isCall, _⟩
            · exact same
            · exact absurd isCall calls
          apply busy.held_of_same created finished
          intro pid member
          refine .inl ?_
          cases effect with
          | finishes isCall _ => exact absurd isCall calls
          | interrupts _ result =>
              subst result
              exact inRest pid (by simpa [cpuHolds, Kernel.handleInterrupt, Kernel.queuePush] using member)
          | blocks _ _ _ _ _ _ _ _ _ result =>
              subst result
              exact inRest pid (by simpa [cpuHolds] using member)
          | sleeps _ _ result =>
              subst result
              exact inRest pid (by simpa [cpuHolds, Kernel.handleSleepInterruption] using member)
          | grants _ _ _ _ result =>
              subst result
              simp only [cpuHolds, head, Kernel.removeResourceInstance, Kernel.sendToCpu_fields,
                Kernel.log_fields, Kernel.modifyResourceInstance_fields, List.map_append,
                List.map_cons, List.map_nil, List.mem_append, List.mem_cons, List.not_mem_nil,
                or_false] at member ⊢
              tauto
          | releases _ _ _ _ result =>
              subst result
              simp only [cpuHolds, head, Kernel.addResourceInstance, Kernel.sendToCpu_fields,
                Kernel.log_fields, Kernel.modifyResourceInstance_fields, List.map_append,
                List.map_cons, List.map_nil, List.mem_append, List.mem_cons, List.not_mem_nil,
                or_false] at member ⊢
              tauto
    | plans event _ planning => exact absurd planning.onlyMoves onlyMoves
    | modifies _ _ | admits _ _ _ | dispatches _ _ _ | executes _ _ _ _ _ _ _ _
    | sleepStarts _ _ _ _ _ | sleepEnds _ _ _ _ _ => exact absurd trivial onlyMoves

/-- Every step that spares what the CPU holds keeps the invariant. -/
theorem Busy.step {event : Event} (busy : Busy config system) (spares : system.SparesHeld event)
    (taken : system.step config event = some next) : Busy config next where
  toPlaced := busy.toPlaced.step spares.1 taken
  toCounted := busy.toCounted.step busy.shape busy.toStatesMatch taken
  held := busy.held_step spares taken
  slots := (busy.toPlaced.slotsInAll_step spares taken).trans busy.slots

/-! ### What is enabled -/

end System

namespace Kernel

variable {kernel : Kernel}

end Kernel

namespace System

variable {config : KernelConfig} {system next : System}

/-- The steps that the system takes by itself, when every program that gets the CPU exits, and every
    sleep thread takes its process off `queue_exec` in turn. -/
def OwnStep (system : System) (event : Event) : Prop :=
  system.KeepsPlaces event ∧
    match event with
    | .longTermPlanner | .shortTermPlanner | .cpuReadInterrupt | .handleDispatch
    | .sleepThread _ => True
    | .cpuExecute request _ _ => request = .finish
    | .createProcess .. | .finishProcess _ | .startPlanning | .stopPlanning
    | .modifyMultiprogrammingDegree _ => False

instance (system : System) : ∀ event, Decidable (system.OwnStep event)
  | .longTermPlanner | .shortTermPlanner | .cpuReadInterrupt | .handleDispatch | .sleepThread _ =>
      inferInstanceAs (Decidable (_ ∧ True))
  | .cpuExecute _ _ _ => inferInstanceAs (Decidable (_ ∧ _ = _))
  | .createProcess .. | .finishProcess _ | .startPlanning | .stopPlanning
  | .modifyMultiprogrammingDegree _ => inferInstanceAs (Decidable (_ ∧ False))

/-- The system takes no more steps by itself. -/
def Still (config : KernelConfig) (system : System) : Prop :=
  ∀ event, system.OwnStep event → system.step config event = none

/-- One of the sleep threads can go on: the oldest that has still to take its process off
    `queue_exec`, or any. -/
theorem Still.sleepThreads (still : system.Still config) : system.kernel.sleepThreads = [] := by
  let isStarting : SleepThread → Bool := fun thread => thread.phase = .starting
  have goesOn : ∀ index < system.kernel.sleepThreads.length,
      ¬ system.OwnStep (.sleepThread index) := by
    intro index inside own
    have stopped := still _ own
    rw [System.step, List.getElem?_eq_getElem inside] at stopped
    cases stopped
  by_contra notEmpty
  by_cases starts : ∃ thread ∈ system.kernel.sleepThreads, isStarting thread = true
  · have inside := List.findIdx_lt_length_of_exists starts
    refine goesOn _ inside ⟨?_, trivial⟩
    intro thread _ _ earlier member
    obtain ⟨place, before, rfl⟩ := List.mem_take_iff_getElem.mp member
    have notStarting := List.not_of_lt_findIdx (p := isStarting) (Nat.lt_of_lt_of_le before (Nat.min_le_left ..))
    simpa [isStarting] using notStarting
  · refine goesOn 0 (List.length_pos_iff.mpr notEmpty) ⟨?_, trivial⟩
    intro thread at_zero starting
    exact absurd ⟨thread, List.mem_of_getElem? at_zero, by simpa [isStarting] using starting⟩ starts

/-- By itself the system does not stop planning. -/
theorem OwnStep.planning {event : Event} (own : system.OwnStep event)
    (states : system.kernel.StatesMatch) (taken : system.step config event = some next) :
    next.kernel.sem .mutexStoppingPlanner = system.kernel.sem .mutexStoppingPlanner := by
  cases event with
  | createProcess _ _ _ => exact own.2.elim
  | finishProcess _ => exact own.2.elim
  | startPlanning => exact own.2.elim
  | stopPlanning => exact own.2.elim
  | modifyMultiprogrammingDegree _ => exact own.2.elim
  | longTermPlanner =>
      cases longTermPlanner_turn taken <;>
        (rename_i result; subst result; simp)
  | shortTermPlanner =>
      cases shortTermPlanner_turn taken <;>
        (rename_i result; subst result; simp)
  | cpuReadInterrupt =>
      obtain ⟨_, result⟩ := Option.ite_none_right_eq_some.mp taken
      obtain rfl := Option.some.inj result
      rfl
  | cpuExecute request cpuRegister programCounter =>
      cases step_cases taken with
      | plans _ _ planning => exact planning.elim
      | executes _ _ _ _ _ _ _ result => subst result; rfl
  | handleDispatch =>
      cases step_cases taken with
      | plans _ _ planning => exact planning.elim
      | handles message rest kernel head effect result =>
          subst result
          exact (Kernel.Balanced.dispatchEffect states effect).stopping
  | sleepThread index =>
      cases step_cases taken with
      | plans _ _ planning => exact planning.elim
      | sleepStarts _ _ _ _ result => subst result; rfl
      | sleepEnds _ thread _ sleeping result =>
          subst result
          simp [Kernel.sleepThreadStep, sleeping, Kernel.queuePush]

end System

end OsSimulator
