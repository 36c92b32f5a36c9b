/-
Module: OsSimulator.Proofs.Multiprogramming
Purpose: When the degree of multiprogramming bounds the admitted processes, in runs of whole handlers
  and planner segments.  Free slots, the slot the long-term planner holds and the slots in use add up to
  at most the degree, as long as the degree is not set while slots are in use and no process gives its
  slot back twice.
Main exports: Kernel.unfinished, Kernel.lastDegree, System.AdmitsBelowDegree, System.KeepsSlots,
  run_admits_below_degree
-/
import OsSimulator.Proofs.Steps

namespace OsSimulator

open Transition

namespace Kernel

/-- The processes that were admitted and have not finished. -/
def unfinished (kernel : Kernel) : List UInt32 :=
  kernel.admitted.filter fun pid => decide (pid ∉ kernel.finished)

/-- The degree last set, by the configuration or by a command. -/
def lastDegree (config : KernelConfig) (kernel : Kernel) : Int :=
  (kernel.trace.filterMap KernelEvent.newDegree?).headD config.multiprogrammingDegree

/-- If `finish_process` finds the pid, it has not finished it before. -/
def FinishesOnce (kernel : Kernel) (pid : UInt32) : Prop :=
  (kernel.findInAllQueues pid).isSome → pid ∉ kernel.finished

instance (kernel : Kernel) (pid : UInt32) : Decidable (kernel.FinishesOnce pid) :=
  inferInstanceAs (Decidable (_ → _))

end Kernel

namespace System

/-- If the step moves a process from NEW to READY, fewer processes than the degree last set are
    admitted and unfinished. -/
def AdmitsBelowDegree (config : KernelConfig) (system : System) (event : Event) : Prop :=
  ∀ next pid, system.step config event = some next →
    next.kernel.trace = .newToReady pid :: system.kernel.trace →
    (system.kernel.unfinished.length : Int) < system.kernel.lastDegree config

/-- The pid is fresh, no slot is in use when the degree is set, and no process finishes twice. -/
def KeepsSlots (system : System) : Event → Prop
  | .createProcess .. => system.kernel.idToAssign ∉ system.kernel.created
  | .finishProcess pid => system.kernel.FinishesOnce pid
  | .modifyMultiprogrammingDegree newDegree =>
      system.degreeHeld = 0 ∧ system.kernel.unfinished = [] ∧
        (0 ≤ newDegree ∨ system.kernel.sem .multiprogrammingDegree = 0)
  | .handleDispatch =>
      ∀ message ∈ system.cpuMessages.head?,
        message.request.CallsFinish message.pcb system.kernel →
          system.kernel.FinishesOnce message.pcb.pid
  | _ => True

instance (system : System) : ∀ event, Decidable (system.KeepsSlots event)
  | .createProcess .. => inferInstanceAs (Decidable (_ ∉ _))
  | .finishProcess pid => inferInstanceAs (Decidable (system.kernel.FinishesOnce pid))
  | .modifyMultiprogrammingDegree newDegree =>
      inferInstanceAs (Decidable (system.degreeHeld = 0 ∧ system.kernel.unfinished = [] ∧
        (0 ≤ newDegree ∨ system.kernel.sem .multiprogrammingDegree = 0)))
  | .handleDispatch =>
      inferInstanceAs (Decidable (∀ message ∈ system.cpuMessages.head?,
        message.request.CallsFinish message.pcb system.kernel →
          system.kernel.FinishesOnce message.pcb.pid))
  | .startPlanning | .stopPlanning | .longTermPlanner | .shortTermPlanner | .cpuExecute ..
  | .cpuReadInterrupt | .sleepThread _ => isTrue trivial

/-- The free slots, the one the long-term planner holds, and the ones in use. -/
def slots (system : System) : Nat :=
  system.kernel.sem .multiprogrammingDegree + system.degreeHeld + system.kernel.unfinished.length

/-- The books of the slots. -/
structure Slots (config : KernelConfig) (system : System) : Prop where
  stateNew : ∀ process ∈ system.kernel.queueNew, process.state = .new
  admitted : ∀ pcb ∈ system.carried, pcb.pid ∈ system.kernel.admitted
  bound : system.slots ≤ (system.kernel.lastDegree config).toNat

end System

/-! ### Finishing gives one slot back -/

namespace Kernel

/-- A finish takes its pid out of the unfinished ones. -/
theorem unfinished_of_finished {kernel next : Kernel} {pid : UInt32}
    (admitted : next.admitted = kernel.admitted) (finished : next.finished = pid :: kernel.finished) :
    next.unfinished = kernel.unfinished.filter fun other => decide (other ≠ pid) := by
  rw [unfinished, unfinished, admitted, finished, List.filter_filter]
  apply List.filter_congr
  intro other _
  simp

/-- A line about something else does not change who is unfinished. -/
theorem unfinished_of_trace {kernel next : Kernel} (line : KernelEvent)
    (logged : next.trace = line :: kernel.trace) (notAdmitted : line.admittedPid? = none)
    (notFinished : line.finishedPid? = none) : next.unfinished = kernel.unfinished := by
  have admitted : next.admitted = kernel.admitted := by
    rw [Kernel.admitted, logged, List.filterMap_cons_none notAdmitted, Kernel.admitted]
  have finished : next.finished = kernel.finished := by
    rw [Kernel.finished, logged, List.filterMap_cons_none notFinished, Kernel.finished]
  rw [unfinished, unfinished, admitted, finished]

/-- The slot that a finish posts is the slot of the process it finishes. -/
theorem slots_finishProcess {pid : UInt32} {kernel next : Kernel}
    (stateNew : ∀ process ∈ kernel.queueNew, process.state = .new)
    (admitted : ∀ pcb ∈ kernel.carried, pcb.pid ∈ kernel.admitted)
    (once : kernel.FinishesOnce pid) (finished : kernel.finishProcess pid = some next) :
    next.sem .multiprogrammingDegree + next.unfinished.length ≤
      kernel.sem .multiprogrammingDegree + kernel.unfinished.length := by
  have sameAdmitted := admitted_finishProcess finished
  rcases finishProcess_cases finished with ⟨_, rfl⟩ | ⟨id, process, woken, middle, finishes⟩
  · simp [unfinished, Kernel.admitted, Kernel.finished, KernelEvent.admittedPid?,
      KernelEvent.finishedPid?, List.filterMap_cons]
  have sem := finishes.sem .multiprogrammingDegree
  have removed := unfinished_of_finished sameAdmitted finishes.finished
  have fewer : next.unfinished.length ≤ kernel.unfinished.length := by
    rw [removed]
    exact List.length_filter_le _ _
  have notFinished : pid ∉ kernel.finished := once (by simp [finishes.found])
  -- a process whose state posts a slot is not in `queue_new`, so it was admitted
  have slot : process.state ≠ .new → next.unfinished.length + 1 ≤ kernel.unfinished.length := by
    intro notNew
    have elsewhere : process ∈ kernel.carried := by
      have member := finishes.mem_queue
      have found := findInAllQueues_eq_some finishes.found
      cases id with
      | new => exact absurd (stateNew process member) notNew
      | ready => simp only [carried, List.mem_append]; exact .inl member
      | exec => simp only [carried, List.mem_append]; exact .inr (.inl member)
      | blocked index =>
          simp only [carried, List.mem_append]
          exact .inr (.inr (.inl (List.mem_flatten.mpr
            ⟨_, List.mem_of_getElem? (found.2 index rfl), member⟩)))
    have inAdmitted : pid ∈ kernel.admitted := finishes.pid_eq ▸ admitted process elsewhere
    rw [removed]
    apply List.length_filter_lt_length_iff_exists.mpr
    exact ⟨pid, List.mem_filter.mpr ⟨inAdmitted, by simpa using notFinished⟩, by simp⟩
  cases state : process.state with
  | new | exit =>
      simp only [state, finishWaits, finishPosts, reduceCtorEq, if_false] at sem
      omega
  | ready | execution | blocked =>
      have shorter := slot (by simp [state])
      simp only [state, finishWaits, finishPosts, reduceCtorEq, if_false] at sem
      omega

/-- No message takes or gives a slot but a finish. -/
theorem slots_dispatchEffect {message : Message} {kernel next : Kernel}
    (stateNew : ∀ process ∈ kernel.queueNew, process.state = .new)
    (admitted : ∀ pcb ∈ kernel.carried, pcb.pid ∈ kernel.admitted)
    (once : message.request.CallsFinish message.pcb kernel → kernel.FinishesOnce message.pcb.pid)
    (effect : DispatchEffect message kernel next) :
    next.sem .multiprogrammingDegree + next.unfinished.length ≤
      kernel.sem .multiprogrammingDegree + kernel.unfinished.length := by
  rcases finished_dispatchEffect effect with ⟨same, sem⟩ | ⟨calls, finished⟩
  · rw [sem, unfinished, unfinished, same, admitted_dispatchEffect effect]
  · have logged : (kernel.log (.received message)).FinishesOnce message.pcb.pid := once calls
    have slots := slots_finishProcess (by exact stateNew) (by exact admitted) logged finished
    exact slots

end Kernel

namespace System

variable {config : KernelConfig} {system next : System}

/-- Only a command sets the degree. -/
theorem StepEffect.lastDegree {event : Event} (effect : StepEffect config system next event) :
    next.kernel.lastDegree config = system.kernel.lastDegree config ∨
      ∃ newDegree, event = .modifyMultiprogrammingDegree newDegree ∧
        next.kernel.lastDegree config = newDegree.toInt := by
  rcases effect.filterMap_trace newDegree?_skips with
    same | ⟨_, _, _, _, same⟩ | ⟨newDegree, rfl, grown⟩ | ⟨_, _, _, same⟩
  · exact .inl (by rw [Kernel.lastDegree, same, Kernel.lastDegree])
  · exact .inl (by rw [Kernel.lastDegree, same]; rfl)
  · exact .inr ⟨newDegree, rfl, by rw [Kernel.lastDegree, grown]; rfl⟩
  · exact .inl (by rw [Kernel.lastDegree, same]; rfl)

theorem Slots.init (config : KernelConfig) : Slots config (System.init config) where
  stateNew := by simp [System.init, Kernel.init]
  admitted := by simp [System.init, Kernel.init, carried, Kernel.carried]
  bound := by
    simp [slots, System.init, Kernel.init, initialSemaphores, degreeHeld, Kernel.unfinished,
      Kernel.admitted, Kernel.lastDegree]

/-- Apart from a change of the degree, no step makes a slot. -/
theorem slots_step {event : Event} (books : Slots config system) (keeps : system.KeepsSlots event)
    (effect : StepEffect config system next event)
    (sameDegree : ∀ newDegree, event ≠ .modifyMultiprogrammingDegree newDegree) :
    next.slots ≤ system.slots := by
  have inKernel : ∀ pcb ∈ system.kernel.carried, pcb.pid ∈ system.kernel.admitted :=
    fun pcb member => books.admitted pcb (List.mem_append_left _ member)
  have unchanged : ∀ after : Kernel, after.trace = system.kernel.trace →
      after.unfinished = system.kernel.unfinished := by
    intro after same
    rw [Kernel.unfinished, Kernel.unfinished, Kernel.admitted, Kernel.finished, same]
    rfl
  cases effect with
  | creates _ _ _ result =>
      subst result
      simp [slots, degreeHeld, Kernel.unfinished, Kernel.admitted, Kernel.finished,
        Kernel.receivePcbAndCreate, Kernel.moveProcessToNew, Kernel.queuePush,
        Kernel.sendToMemory, KernelEvent.admittedPid?, KernelEvent.finishedPid?,
        List.filterMap_cons]
  | finishes pid kernel finished result =>
      subst result
      have less := Kernel.slots_finishProcess books.stateNew inKernel keeps finished
      simp only [slots, degreeHeld]
      omega
  | modifies newDegree _ => exact absurd rfl (sameDegree newDegree)
  | plans _ quiet =>
      have sem := quiet.semDegree
      have sameUnfinished := unchanged _ quiet.trace
      simp only [slots, sameUnfinished]
      omega
  | admits process rest admits =>
      have one : next.kernel.unfinished.length ≤ system.kernel.unfinished.length + 1 := by
        simp only [Kernel.unfinished, Kernel.admitted, Kernel.finished, admits.trace,
          List.filterMap_cons, KernelEvent.admittedPid?, KernelEvent.finishedPid?,
          List.filter_cons]
        split <;> simp
      simp only [slots, degreeHeld, admits.semDegree, admits.held, admits.longTerm,
        reduceCtorEq, if_true, if_false]
      omega
  | dispatches process rest dispatches =>
      have same : next.kernel.unfinished = system.kernel.unfinished :=
        Kernel.unfinished_of_trace _ dispatches.trace rfl rfl
      simp [slots, degreeHeld, dispatches.semDegree, dispatches.longTerm, same]
  | executes _ _ _ _ _ _ _ result =>
      subst result
      exact Nat.le_refl _
  | handles message rest kernel head effect result =>
      subst result
      have once : message.request.CallsFinish message.pcb system.kernel →
          system.kernel.FinishesOnce message.pcb.pid := keeps message (by simp [head])
      have less := Kernel.slots_dispatchEffect books.stateNew inKernel once effect
      simp only [slots, degreeHeld]
      omega
  | sleepStarts _ _ _ _ result =>
      subst result
      exact Nat.le_refl _
  | sleepEnds index thread _ sleeping result =>
      subst result
      have same := unchanged (system.kernel.sleepThreadStep thread index)
        (by simp [Kernel.sleepThreadStep, sleeping, Kernel.queuePush])
      have sem : (system.kernel.sleepThreadStep thread index).sem .multiprogrammingDegree =
          system.kernel.sem .multiprogrammingDegree := by
        simp [Kernel.sleepThreadStep, sleeping, Kernel.queuePush]
      simp only [slots, degreeHeld, same, sem]
      exact Nat.le_refl _

/-- A degree that is set while no slot is in use is the number of slots. -/
theorem bound_modifies (newDegree : Int32)
    (keeps : system.KeepsSlots (.modifyMultiprogrammingDegree newDegree))
    (taken : system.step config (.modifyMultiprogrammingDegree newDegree) = some next) :
    next.slots ≤ (next.kernel.lastDegree config).toNat := by
  obtain ⟨notHeld, noneInUse, free⟩ := keeps
  obtain rfl := (Option.some.inj taken).symm
  obtain ⟨_, _, _, _, _, _, _, _, _, logged, sem, _⟩ :=
    system.kernel.modifyMultiprogrammingDegree_fields newDegree
  have inUse : (system.kernel.modifyMultiprogrammingDegree newDegree).unfinished = [] := by
    rw [← noneInUse]
    exact Kernel.unfinished_of_trace _ logged rfl rfl
  have degree : (system.kernel.modifyMultiprogrammingDegree newDegree).lastDegree config =
      newDegree.toInt := by
    simp [Kernel.lastDegree, logged, KernelEvent.newDegree?]
  have held : degreeHeld { system with
      kernel := system.kernel.modifyMultiprogrammingDegree newDegree } = 0 := notHeld
  simp only [slots, inUse, degree, held, sem, List.length_nil]
  split
  · exact Nat.le_refl _
  · rename_i negative
    rw [free.resolve_left negative]
    exact Nat.zero_le _

/-- Every step that the guard allows keeps the books of the slots. -/
theorem Slots.step {event : Event} (slots : Slots config system)
    (shape : system.kernel.Shape config) (keeps : system.KeepsSlots event)
    (taken : system.step config event = some next) : Slots config next := by
  have effect := step_cases taken
  refine ⟨?_, ?_, ?_⟩
  · intro process member
    rcases effect.queueNew member with old | ⟨path, quantum, clientSocket, _, rfl⟩
    · exact slots.stateNew process old
    · rfl
  · intro pcb member
    have grown : ∀ pid ∈ system.kernel.admitted, pid ∈ next.kernel.admitted := by
      intro pid old
      rcases effect.admitted with same | ⟨_, _, _, more⟩
      · rwa [same]
      · rw [more]
        exact List.mem_cons_of_mem _ old
    rcases effect.carried shape member with ⟨old, inOld, same⟩ | ⟨process, rest, admits, same⟩
    · rw [← same]
      exact grown _ (slots.admitted old inOld)
    · have logged : next.kernel.admitted = process.pid :: system.kernel.admitted := by
        simp [Kernel.admitted, admits.trace, KernelEvent.admittedPid?]
      rw [← same, logged]
      exact List.mem_cons_self
  · by_cases setsDegree : ∃ newDegree, event = .modifyMultiprogrammingDegree newDegree
    · obtain ⟨newDegree, rfl⟩ := setsDegree
      exact bound_modifies newDegree keeps taken
    · have sameDegree : next.kernel.lastDegree config = system.kernel.lastDegree config :=
        effect.lastDegree.resolve_right fun ⟨newDegree, sets, _⟩ => setsDegree ⟨newDegree, sets⟩
      rw [sameDegree]
      exact Nat.le_trans
        (slots_step slots keeps effect fun newDegree sets => setsDegree ⟨newDegree, sets⟩)
        slots.bound

/-- Only the long-term planner logs that a process goes from NEW to READY. -/
theorem admits_of_logged {event : Event} {pid : UInt32}
    (effect : StepEffect config system next event)
    (logged : next.kernel.trace = .newToReady pid :: system.kernel.trace) :
    ∃ process rest, Admits system next process rest := by
  rcases effect.admitted with same | ⟨process, rest, admits, _⟩
  · simp [Kernel.admitted, logged, KernelEvent.admittedPid?] at same
  · exact ⟨process, rest, admits⟩

/-- An admission uses the slot that the long-term planner holds. -/
theorem Slots.admitsBelowDegree (slots : Slots config system) (event : Event) :
    system.AdmitsBelowDegree config event := by
  intro next pid taken logged
  obtain ⟨process, rest, admits⟩ := admits_of_logged (step_cases taken) logged
  have bound := slots.bound
  simp only [System.slots, degreeHeld, admits.held, if_true] at bound
  omega

end System

/-- In every run of whole handlers and planner segments that keep the slots, every admission finds fewer processes admitted and
    unfinished than the degree last set. -/
theorem run_admits_below_degree (config : KernelConfig) (events : List Event)
    (keeps : Meets (System.step config) System.KeepsSlots (System.init config) events) :
    Meets (System.step config) (System.AdmitsBelowDegree config) (System.init config) events := by
  have slots : Throughout (System.step config)
      (fun system => System.Slots config system ∧ system.kernel.Shape config)
      (System.init config) events := by
    apply throughout_of_guarded_run _ ⟨.init config, .init config⟩ keeps
    intro state event next invariant keepsSlots taken
    exact ⟨invariant.1.step invariant.2 keepsSlots taken,
      (System.step_cases taken).shape invariant.2⟩
  exact slots.meets fun _ event invariant => invariant.1.admitsBelowDegree event

end OsSimulator
