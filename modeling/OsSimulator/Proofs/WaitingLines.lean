/-
Module: OsSimulator.Proofs.WaitingLines
Purpose: In runs of whole handlers and planner segments, `queue_new` and, unless it is sorted,
  `queue_ready` are waiting lines: a process is served after at most as many services as there were
  processes up to it, and processes start in the order in which they were created.
Main exports: Kernel.LeftLine, System.begun, run_waits_in_line, run_starts_in_order
-/
import Mathlib.Data.List.Dedup
import OsSimulator.Lib.Fifo
import OsSimulator.Proofs.Context
import OsSimulator.Proofs.Finality
import OsSimulator.Proofs.Turns

namespace OsSimulator

open Transition

namespace Kernel

/-- Since `start`, the process was served, which `project` tells from a line, or it finished. -/
def LeftLine (project : KernelEvent → Option UInt32) (start kernel : Kernel) (pid : UInt32) : Prop :=
  ∃ since, kernel.trace = since ++ start.trace ∧
    (pid ∈ since.filterMap project ∨ pid ∈ since.filterMap KernelEvent.finishedPid?)

variable {project : KernelEvent → Option UInt32} {start kernel next : Kernel} {pid : UInt32}
  {message : Message}

/-- Who left the line does not come back into it. -/
theorem LeftLine.grows (left : LeftLine project start kernel pid) {lines : List KernelEvent}
    (grown : next.trace = lines ++ kernel.trace) : LeftLine project start next pid := by
  obtain ⟨since, trace, gone⟩ := left
  refine ⟨lines ++ since, by rw [grown, trace, List.append_assoc], ?_⟩
  simp only [List.filterMap_append, List.mem_append]
  exact gone.imp .inr .inr

/-- Who has left it lately has left it. -/
theorem LeftLine.since (left : LeftLine project kernel next pid) {lines : List KernelEvent}
    (grown : kernel.trace = lines ++ start.trace) : LeftLine project start next pid := by
  obtain ⟨since, trace, gone⟩ := left
  refine ⟨since ++ lines, by rw [trace, grown, List.append_assoc], ?_⟩
  simp only [List.filterMap_append, List.mem_append]
  exact gone.imp .inl .inl

/-! ### Who comes and goes -/

/-- The process that `finish_process` found has left its line. -/
theorem Finishes.leftLine {id : QueueId} {process : Pcb} {woken : List Pcb} {middle : Kernel}
    (finishes : Finishes pid kernel next id process woken middle) :
    LeftLine project kernel next pid := by
  obtain ⟨lines, trace, _⟩ := finishes.trace
  exact ⟨.sentToMemory .finishProcess (process.setState .exit) :: .finished pid :: lines, trace,
    .inr (by simp [KernelEvent.finishedPid?, List.filterMap_cons])⟩

/-- `list_remove_element` takes one place out of the line. -/
theorem move_eraseP {comes : Pcb → Prop} {queue woken : List Pcb} {process : Pcb}
    (finished : LeftLine project kernel next process.pid)
    (fresh : ∀ entry ∈ woken, comes entry) :
    Fifo.Move comes (fun entry => LeftLine project kernel next entry.pid) queue
      (queue.eraseP (·.pid == process.pid) ++ woken) 0 := by
  rw [List.eraseP_eq_eraseIdx]
  cases found : queue.findIdx? (·.pid == process.pid) with
  | none => exact .joins woken rfl fresh
  | some index =>
      refine .leaves index woken rfl fresh ?_
      intro entry here
      obtain ⟨inside, same, _⟩ := List.findIdx?_eq_some_iff_getElem.mp found
      obtain rfl : queue[index] = entry := by simpa [inside] using here
      simp only [beq_iff_eq] at same
      rwa [same]

/-- What a finish does to the two lines: the woken processes come from the blocked queues. -/
theorem moves_finishProcess (project : KernelEvent → Option UInt32)
    (finished : kernel.finishProcess pid = some next) :
    Fifo.Move (fun _ => False) (fun entry => LeftLine project kernel next entry.pid)
        kernel.queueNew next.queueNew 0 ∧
      Fifo.Move (fun entry => ∃ old ∈ kernel.listOfQueueBlocked.flatten, old.pid = entry.pid)
        (fun entry => LeftLine project kernel next entry.pid) kernel.queueReady next.queueReady 0 := by
  rcases finishProcess_cases finished with ⟨_, rfl⟩ | ⟨id, process, woken, middle, finishes⟩
  · exact ⟨.stays rfl, .stays rfl⟩
  · have left : LeftLine project kernel next process.pid := by
      rw [finishes.pid_eq]
      exact finishes.leftLine
    have fresh : ∀ entry ∈ woken,
        ∃ old ∈ kernel.listOfQueueBlocked.flatten, old.pid = entry.pid := by
      intro entry member
      obtain ⟨old, inBlocked, rfl⟩ := finishes.origin member
      exact ⟨old, inBlocked, rfl⟩
    obtain ⟨new, ready, _⟩ := finishes.fields
    rw [new, ready]
    cases id with
    | new =>
        refine ⟨?_, .joins woken (by simp [releaseAndRemove]) fresh⟩
        have move : Fifo.Move (fun _ => False) (fun entry => LeftLine project kernel next entry.pid)
            kernel.queueNew (kernel.queueNew.eraseP (·.pid == process.pid) ++ []) 0 :=
          move_eraseP left (by simp)
        simpa [releaseAndRemove] using move
    | ready =>
        refine ⟨.stays (by simp [releaseAndRemove]), ?_⟩
        simpa [releaseAndRemove] using move_eraseP left fresh
    | exec | blocked _ =>
        exact ⟨.stays (by simp [releaseAndRemove]), .joins woken (by simp [releaseAndRemove]) fresh⟩

/-- What a message does to the two lines: its process may become ready again. -/
theorem moves_dispatchEffect (project : KernelEvent → Option UInt32)
    (effect : DispatchEffect message kernel next) :
    Fifo.Move (fun _ => False) (fun entry => LeftLine project kernel next entry.pid)
        kernel.queueNew next.queueNew 0 ∧
      Fifo.Move (fun entry => (∃ old ∈ kernel.listOfQueueBlocked.flatten, old.pid = entry.pid) ∨
          message.pcb.pid = entry.pid)
        (fun entry => LeftLine project kernel next entry.pid) kernel.queueReady next.queueReady 0 := by
  cases effect with
  | finishes _ finished =>
      obtain ⟨new, ready⟩ := moves_finishProcess project finished
      have grown : (kernel.log (.received message)).trace = [.received message] ++ kernel.trace := rfl
      have since : ∀ entry : Pcb, LeftLine project (kernel.log (.received message)) next entry.pid →
          LeftLine project kernel next entry.pid := fun entry left => left.since grown
      exact ⟨new.imp (fun _ => id) since, ready.imp (fun _ => .inl) since⟩
  | interrupts _ result =>
      subst result
      refine ⟨.stays (by simp [handleInterrupt, queuePush]),
        .joins [message.pcb.setState .ready] (by simp [handleInterrupt, queuePush]) ?_⟩
      intro entry member
      rw [List.mem_singleton.mp member]
      exact .inr rfl
  | grants _ _ _ _ result =>
      subst result
      exact ⟨.stays (by simp [removeResourceInstance]), .stays (by simp [removeResourceInstance])⟩
  | blocks _ _ _ _ _ _ _ _ _ result =>
      subst result
      exact ⟨.stays (by simp), .stays (by simp)⟩
  | releases _ _ _ _ result =>
      subst result
      exact ⟨.stays (by simp [addResourceInstance]), .stays (by simp [addResourceInstance])⟩
  | sleeps _ _ result =>
      subst result
      exact ⟨.stays (by simp [handleSleepInterruption]), .stays (by simp [handleSleepInterruption])⟩

end Kernel

namespace System

variable {config : KernelConfig} {system next : System}

/-- Only the short-term planner dispatches. -/
theorem StepEffect.executed_kept {event : Event} (effect : StepEffect config system next event)
    (notPlanner : event ≠ .shortTermPlanner) : next.kernel.executed = system.kernel.executed := by
  cases effect with
  | creates path quantum clientSocket result =>
      subst result
      simp [Kernel.executed, Kernel.receivePcbAndCreate, Kernel.moveProcessToNew, Kernel.queuePush,
        Kernel.sendToMemory, KernelEvent.executedPid?, List.filterMap_cons]
  | finishes _ _ finished result =>
      subst result
      exact Kernel.executed_finishProcess finished
  | modifies newDegree result =>
      subst result
      obtain ⟨_, _, _, _, _, _, _, _, _, logged, _⟩ :=
        system.kernel.modifyMultiprogrammingDegree_fields newDegree
      simp [Kernel.executed, logged, KernelEvent.executedPid?, List.filterMap_cons]
  | plans _ quiet => rw [Kernel.executed, quiet.trace, Kernel.executed]
  | admits _ _ admits =>
      simp [Kernel.executed, admits.trace, KernelEvent.executedPid?, List.filterMap_cons]
  | dispatches _ _ _ => exact absurd rfl notPlanner
  | executes _ _ _ _ _ _ _ result => subst result; rfl
  | handles _ _ _ _ effect result =>
      subst result
      exact Kernel.executed_dispatchEffect effect
  | sleepStarts _ _ _ _ result => subst result; rfl
  | sleepEnds _ thread _ sleeping result =>
      subst result
      simp [Kernel.executed, Kernel.sleepThreadStep, sleeping, Kernel.queuePush]

/-- The copies of the processes that have had a turn: all but those of `queue_new` and
    `queue_ready`. -/
def begun (system : System) : List Pcb :=
  system.kernel.queueExec ++ (system.kernel.listOfQueueBlocked.flatten ++
    (system.kernel.sleepThreads.map SleepThread.process ++ system.cpuHolds))

/-- `queue_new` is a waiting line for admission. -/
theorem StepEffect.moveNew {event : Event} (effect : StepEffect config system next event) :
    ∃ count, next.kernel.admitted.length = system.kernel.admitted.length + count ∧
      Fifo.Move (fun _ => True)
        (fun entry => Kernel.LeftLine KernelEvent.admittedPid? system.kernel next.kernel entry.pid)
        system.kernel.queueNew next.kernel.queueNew count := by
  rcases effect.admitted with same | ⟨process, rest, admits, grown⟩
  · refine ⟨0, by rw [same, Nat.add_zero], ?_⟩
    cases effect with
    | creates path quantum clientSocket result =>
        subst result
        exact .joins [createPcb system.kernel.idToAssign path quantum clientSocket]
          (by simp [Kernel.receivePcbAndCreate, Kernel.moveProcessToNew, Kernel.queuePush,
            Kernel.sendToMemory]) (by simp)
    | finishes _ _ finished result =>
        subst result
        exact (Kernel.moves_finishProcess _ finished).1.imp (fun _ _ => trivial) fun _ => id
    | modifies newDegree result =>
        subst result
        exact .stays (system.kernel.modifyMultiprogrammingDegree_fields newDegree).1
    | plans _ quiet => exact .stays quiet.queueNew
    | admits process rest admits =>
        have length := congrArg List.length same
        simp [Kernel.admitted, admits.trace, KernelEvent.admittedPid?] at length
    | dispatches _ _ dispatches => exact .stays dispatches.queueNew
    | executes _ _ _ _ _ _ _ result => subst result; exact .stays rfl
    | handles _ _ _ _ effect result =>
        subst result
        exact (Kernel.moves_dispatchEffect _ effect).1.imp (fun _ _ => trivial) fun _ => id
    | sleepStarts _ _ _ _ result => subst result; exact .stays rfl
    | sleepEnds _ thread _ sleeping result =>
        subst result
        exact .stays (by simp [Kernel.sleepThreadStep, sleeping, Kernel.queuePush])
  · refine ⟨1, by rw [grown, List.length_cons], .serves process rest admits.head admits.queueNew ?_⟩
    exact ⟨[.newToReady process.pid], admits.trace,
      .inl (by simp [KernelEvent.admittedPid?])⟩

/-- Who becomes ready without an admission has had a turn. -/
def Returns (system : System) (entry : Pcb) : Prop := ∃ old ∈ system.begun, old.pid = entry.pid

theorem Returns.of_blocked {entry : Pcb}
    (blocked : ∃ old ∈ system.kernel.listOfQueueBlocked.flatten, old.pid = entry.pid) :
    system.Returns entry := by
  obtain ⟨old, member, same⟩ := blocked
  refine ⟨old, ?_, same⟩
  simp only [begun, List.mem_append]
  exact .inr (.inl member)

/-- A step that is neither an admission nor one of the short-term planner moves `queue_ready` as a
    waiting line. -/
theorem StepEffect.moveReady {event : Event} (effect : StepEffect config system next event) :
    Fifo.Move system.Returns
        (fun entry => Kernel.LeftLine KernelEvent.executedPid? system.kernel next.kernel entry.pid)
        system.kernel.queueReady next.kernel.queueReady 0 ∨
      (∃ process rest, Admits system next process rest) ∨ event = .shortTermPlanner := by
  cases effect with
  | creates path quantum clientSocket result =>
      subst result
      exact .inl (.stays (by simp [Kernel.receivePcbAndCreate, Kernel.moveProcessToNew,
        Kernel.queuePush, Kernel.sendToMemory]))
  | finishes _ _ finished result =>
      subst result
      exact .inl ((Kernel.moves_finishProcess _ finished).2.imp (fun _ => .of_blocked) fun _ => id)
  | modifies newDegree result =>
      subst result
      exact .inl (.stays (system.kernel.modifyMultiprogrammingDegree_fields newDegree).2.1)
  | plans _ quiet => exact .inl (.stays quiet.queueReady)
  | admits process rest admits => exact .inr (.inl ⟨process, rest, admits⟩)
  | dispatches _ _ _ => exact .inr (.inr rfl)
  | executes _ _ _ _ _ _ _ result => subst result; exact .inl (.stays rfl)
  | handles message rest kernel head effect result =>
      subst result
      refine .inl ((Kernel.moves_dispatchEffect _ effect).2.imp ?_ fun _ => id)
      rintro entry (blocked | same)
      · exact .of_blocked blocked
      · refine ⟨message.pcb, ?_, same⟩
        simp only [begun, cpuHolds, head, List.map_cons, List.mem_append, List.mem_cons]
        exact .inr (.inr (.inr (.inr (.inl trivial))))
  | sleepStarts _ _ _ _ result => subst result; exact .inl (.stays rfl)
  | sleepEnds index thread at_index sleeping result =>
      subst result
      refine .inl (.joins [{ thread.process with
        state := .ready, programCounter := thread.process.programCounter + 1 }]
        (by simp [Kernel.sleepThreadStep, sleeping, Kernel.queuePush]) ?_)
      intro entry member
      rw [List.mem_singleton.mp member]
      refine ⟨thread.process, ?_, rfl⟩
      simp only [begun, List.mem_append]
      exact .inr (.inr (.inl (List.mem_map_of_mem (List.mem_of_getElem? at_index))))

/-- Without sorting, `queue_ready` is a waiting line for the CPU. -/
inductive ReadyMove (system next : System) : Prop where
  | stays (executed : next.kernel.executed = system.kernel.executed)
      (move : Fifo.Move system.Returns
        (fun entry => Kernel.LeftLine KernelEvent.executedPid? system.kernel next.kernel entry.pid)
        system.kernel.queueReady next.kernel.queueReady 0)
  | admits (process : Pcb) (rest : List Pcb) (admits : Admits system next process rest)
      (executed : next.kernel.executed = system.kernel.executed)
  | dispatches (process : Pcb) (rest : List Pcb)
      (head : system.kernel.queueReady = process :: rest) (ready : next.kernel.queueReady = rest)
      (new : next.kernel.queueNew = system.kernel.queueNew)
      (trace : next.kernel.trace =
        .sentToCpu .executeProcess (process.setState .execution) :: system.kernel.trace)

theorem step_readyMove {event : Event} (notSorted : config.planningAlgorithm ≠ "PRIORITIES")
    (taken : system.step config event = some next) : ReadyMove system next := by
  have effect := step_cases taken
  have sameOrder : system.kernel.readyInOrder config = system.kernel.queueReady := by
    rw [Kernel.readyInOrder, if_neg notSorted]
  by_cases planner : event = .shortTermPlanner
  · subst planner
    cases shortTermPlanner_turn taken with
    | takesPlanner _ _ result =>
        subst result
        exact .stays (by simp [Kernel.executed]) (.stays (by simp))
    | takesReady _ _ result =>
        subst result
        exact .stays (by simp [Kernel.executed]) (.stays (by simp))
    | dispatchesForQuantum process rest _ _ order _ result =>
        subst result
        exact .dispatches process rest (sameOrder ▸ order) (by simp) (by simp) (by simp)
    | dispatches process rest _ _ order _ result =>
        subst result
        exact .dispatches process rest (sameOrder ▸ order) (by simp) (by simp) (by simp)
    | endsQuantum _ result =>
        subst result
        exact .stays (by simp [Kernel.executed]) (.stays (by simp))
  · have executed := effect.executed_kept planner
    rcases effect.moveReady with move | ⟨process, rest, admits⟩ | isPlanner
    · exact .stays executed move
    · exact .admits process rest admits executed
    · exact absurd isPlanner planner

theorem executed_of_dispatch {process : Pcb}
    (trace : next.kernel.trace =
      .sentToCpu .executeProcess (process.setState .execution) :: system.kernel.trace) :
    next.kernel.executed = process.pid :: system.kernel.executed := by
  simp [Kernel.executed, trace, KernelEvent.executedPid?]

/-- A move of `queue_ready`, with the number of dispatches. -/
theorem ReadyMove.move (moves : ReadyMove system next) :
    ∃ count, next.kernel.executed.length = system.kernel.executed.length + count ∧
      Fifo.Move (fun _ => True)
        (fun entry => Kernel.LeftLine KernelEvent.executedPid? system.kernel next.kernel entry.pid)
        system.kernel.queueReady next.kernel.queueReady count := by
  cases moves with
  | stays executed move =>
      exact ⟨0, by rw [executed, Nat.add_zero], move.imp (fun _ _ => trivial) fun _ => id⟩
  | admits process rest admits executed =>
      exact ⟨0, by rw [executed, Nat.add_zero], .joins [_] admits.queueReady (by simp)⟩
  | dispatches process rest head ready new trace =>
      refine ⟨1, by rw [executed_of_dispatch trace, List.length_cons],
        .serves process rest head ready ?_⟩
      exact ⟨[_], trace, .inl (by simp [KernelEvent.executedPid?])⟩

/-- A waiting line of the kernel: where a process is after any run, and what happened if it is not in
    the line any more. -/
theorem waits_in_line {line : Kernel → List Pcb} {project : KernelEvent → Option UInt32}
    (moves : ∀ {system event next}, System.step config system event = some next →
      ∃ count, (next.kernel.trace.filterMap project).length =
          (system.kernel.trace.filterMap project).length + count ∧
        Fifo.Move (fun _ => True)
          (fun entry => Kernel.LeftLine project system.kernel next.kernel entry.pid)
          (line system.kernel) (line next.kernel) count)
    {start state : System} {events : List Event}
    (reaches : run (System.step config) start events = some state) {position : Nat} {process : Pcb}
    (at_position : (line start.kernel)[position]? = some process) :
    Kernel.LeftLine project start.kernel state.kernel process.pid ∨
      ∃ later, later + (state.kernel.trace.filterMap project).length ≤
          position + (start.kernel.trace.filterMap project).length ∧
        (line state.kernel)[later]? = some process := by
  refine Fifo.position_of_run (fun state => line state.kernel)
    (fun state => (state.kernel.trace.filterMap project).length)
    (fun state entry => Kernel.LeftLine project start.kernel state.kernel entry.pid)
    (fun state => ∃ since, state.kernel.trace = since ++ start.kernel.trace) ?_ ?_ ?_ ⟨[], rfl⟩
    reaches at_position
  · rintro state event next ⟨since, trace⟩ taken
    obtain ⟨lines, grown, _⟩ := (step_cases taken).sent
    exact ⟨lines ++ since, by rw [grown, trace, List.append_assoc]⟩
  · rintro state event next ⟨since, trace⟩ taken
    obtain ⟨count, counted, move⟩ := moves taken
    exact ⟨count, counted, move.imp (fun _ => id) fun _ left => left.since trace⟩
  · intro state event next entry taken left
    obtain ⟨lines, grown, _⟩ := (step_cases taken).sent
    exact left.grows grown

end System

/-- Nobody is overtaken: whatever happens, a process of `queue_new` has been admitted or finished, or
    has moved to the front with every admission; and so has, unless it is sorted, a process of
    `queue_ready` with every dispatch. -/
theorem run_waits_in_line (config : KernelConfig) (start state : System) (events : List Event)
    (reaches : run (System.step config) start events = some state) (position : Nat) (process : Pcb) :
    (start.kernel.queueNew[position]? = some process →
      Kernel.LeftLine KernelEvent.admittedPid? start.kernel state.kernel process.pid ∨
        ∃ later, later + state.kernel.admitted.length ≤ position + start.kernel.admitted.length ∧
          state.kernel.queueNew[later]? = some process) ∧
    (config.planningAlgorithm ≠ "PRIORITIES" → start.kernel.queueReady[position]? = some process →
      Kernel.LeftLine KernelEvent.executedPid? start.kernel state.kernel process.pid ∨
        ∃ later, later + state.kernel.executed.length ≤ position + start.kernel.executed.length ∧
          state.kernel.queueReady[later]? = some process) := by
  constructor
  · exact System.waits_in_line (fun taken => (System.step_cases taken).moveNew) reaches
  · intro notSorted
    exact System.waits_in_line (fun taken => (System.step_readyMove notSorted taken).move) reaches

/-- The first process exits and the second one, which was at the front, is dispatched. -/
theorem run_waits_in_line_dispatchNext :
    ∃ start state process,
      run (System.step fifoConfig) (System.init fifoConfig) dispatchFirst = some start ∧
      run (System.step fifoConfig) start
        ([.cpuExecute .finish [0, 0, 0, 0] 1, .handleDispatch] ++ dispatchNext) = some state ∧
      start.kernel.queueReady[0]? = some process ∧
      (Kernel.LeftLine KernelEvent.executedPid? start.kernel state.kernel process.pid ∨
        ∃ later, later + state.kernel.executed.length ≤ 0 + start.kernel.executed.length ∧
          state.kernel.queueReady[later]? = some process) :=
  ⟨_, _, _, rfl, rfl, rfl, (run_waits_in_line fifoConfig _ _
    ([.cpuExecute .finish [0, 0, 0, 0] 1, .handleDispatch] ++ dispatchNext) rfl 0 _).2 (by decide) rfl⟩

/-! ### Who starts first -/

/-- The processes that were dispatched at least once, in the order of their first dispatches. -/
def Kernel.started (kernel : Kernel) : List UInt32 := kernel.executed.dedup.reverse

/-- The processes that have not started, in the order in which they wait. -/
def Kernel.notStarted (kernel : Kernel) : List UInt32 :=
  (kernel.queueReady.filter fun process => process.pid ∉ kernel.executed).map Pcb.pid ++
    kernel.queueNew.map Pcb.pid

namespace System

variable {config : KernelConfig} {system next : System}

/-- A process that has had a turn was dispatched, and the others come in the order of creation. -/
structure StartsInOrder (system : System) : Prop where
  begun : ∀ pcb ∈ system.begun, pcb.pid ∈ system.kernel.executed
  order : (system.kernel.started ++ system.kernel.notStarted).Sublist system.kernel.created.reverse

theorem StartsInOrder.init (config : KernelConfig) : (System.init config).StartsInOrder where
  begun := by simp [System.init, Kernel.init, System.begun, cpuHolds]
  order := by
    simp [System.init, Kernel.init, Kernel.started, Kernel.notStarted, Kernel.executed,
      Kernel.created]

/-- The copies of the processes that have had a turn, in a kernel and some messages. -/
theorem mem_begun {pcb : Pcb} :
    pcb ∈ system.begun ↔ pcb ∈ system.kernel.queueExec ∨
      pcb ∈ system.kernel.listOfQueueBlocked.flatten ∨
        pcb ∈ system.kernel.sleepThreads.map SleepThread.process ∨
          pcb ∈ system.kernel.cpuDispatchConnection.map Prod.snd ∨
            pcb ∈ system.cpuMessages.map Message.pcb := by
  simp only [System.begun, cpuHolds, List.mem_append]

/-- Where each place has only copies that were there, everybody has had a turn. -/
theorem returns_of_places {pcb : Pcb} (member : pcb ∈ next.begun)
    (exec : ∀ other ∈ next.kernel.queueExec, system.Returns other)
    (blocked : ∀ other ∈ next.kernel.listOfQueueBlocked.flatten, system.Returns other)
    (sleeping : ∀ other ∈ next.kernel.sleepThreads.map SleepThread.process, system.Returns other)
    (connection : ∀ other ∈ next.kernel.cpuDispatchConnection.map Prod.snd, system.Returns other)
    (messages : ∀ other ∈ next.cpuMessages.map Message.pcb, system.Returns other) :
    system.Returns pcb := by
  rcases mem_begun.mp member with one | one | one | one | one
  · exact exec pcb one
  · exact blocked pcb one
  · exact sleeping pcb one
  · exact connection pcb one
  · exact messages pcb one

section Places

variable (system : System) {pcb : Pcb}

theorem returns_of_exec (member : pcb ∈ system.kernel.queueExec) : system.Returns pcb :=
  ⟨pcb, mem_begun.mpr (.inl member), rfl⟩

theorem returns_of_blocked (member : pcb ∈ system.kernel.listOfQueueBlocked.flatten) :
    system.Returns pcb :=
  ⟨pcb, mem_begun.mpr (.inr (.inl member)), rfl⟩

theorem returns_of_sleeping (member : pcb ∈ system.kernel.sleepThreads.map SleepThread.process) :
    system.Returns pcb :=
  ⟨pcb, mem_begun.mpr (.inr (.inr (.inl member))), rfl⟩

theorem returns_of_connection
    (member : pcb ∈ system.kernel.cpuDispatchConnection.map Prod.snd) : system.Returns pcb :=
  ⟨pcb, mem_begun.mpr (.inr (.inr (.inr (.inl member)))), rfl⟩

theorem returns_of_messages (member : pcb ∈ system.cpuMessages.map Message.pcb) :
    system.Returns pcb :=
  ⟨pcb, mem_begun.mpr (.inr (.inr (.inr (.inr member)))), rfl⟩

/-- The process of the message that is handled has had a turn. -/
theorem returns_of_message {message : Message} {rest : List Message}
    (head : system.cpuMessages = message :: rest) (same : pcb.pid = message.pcb.pid) :
    system.Returns pcb :=
  ⟨message.pcb, mem_begun.mpr (.inr (.inr (.inr (.inr (by simp [head]))))), same.symm⟩

end Places

/-- Whatever the handling of a message moves has had a turn. -/
theorem returns_dispatchEffect {message : Message} {rest : List Message} {kernel : Kernel} {pcb : Pcb}
    (shape : system.kernel.Shape config) (head : system.cpuMessages = message :: rest)
    (effect : Kernel.DispatchEffect message system.kernel kernel)
    (member : pcb ∈ ({ system with cpuMessages := rest, kernel := kernel } : System).begun) :
    system.Returns pcb := by
  have messages : ∀ other ∈ rest.map Message.pcb, system.Returns other := by
    intro other inRest
    apply returns_of_messages system
    rw [head]
    exact List.mem_cons_of_mem _ inRest
  have answered : ∀ answer : OperationCode × Pcb, answer.2.pid = message.pcb.pid →
      ∀ other ∈ (system.kernel.cpuDispatchConnection ++ [answer]).map Prod.snd,
        system.Returns other := by
    intro answer same other inConnection
    rw [List.map_append, List.mem_append] at inConnection
    rcases inConnection with old | new
    · exact returns_of_connection system old
    · obtain rfl : other = answer.2 := by simpa using new
      exact returns_of_message system head same
  cases effect with
  | finishes _ finished =>
      rcases Kernel.finishProcess_cases finished with ⟨_, rfl⟩ | ⟨_, _, _, _, finishes⟩
      · exact returns_of_places member (fun _ => returns_of_exec system) (fun _ => returns_of_blocked system)
          (fun _ => returns_of_sleeping system) (fun _ => returns_of_connection system) messages
      · obtain ⟨sleeping, connection⟩ := Kernel.threads_finishProcess finished
        refine returns_of_places member (fun other inExec => ?_) (fun other inBlocked => ?_)
          (fun other inThreads => ?_) (fun other inConnection => ?_) messages
        · exact returns_of_exec system ((finishes.mem other).2.2.1 inExec)
        · exact returns_of_blocked system ((finishes.mem other).2.2.2 inBlocked)
        · exact returns_of_sleeping system (sleeping ▸ inThreads)
        · exact returns_of_connection system (connection ▸ inConnection)
  | interrupts _ result =>
      subst result
      refine returns_of_places member (fun other inExec => ?_) (fun other inBlocked => ?_)
        (fun other inThreads => ?_) (fun other inConnection => ?_) messages
      · exact returns_of_exec system (List.mem_of_mem_tail
          (by simpa [Kernel.handleInterrupt, Kernel.queuePush] using inExec))
      · exact returns_of_blocked system (by simpa [Kernel.handleInterrupt, Kernel.queuePush] using inBlocked)
      · exact returns_of_sleeping system (by simpa [Kernel.handleInterrupt, Kernel.queuePush] using inThreads)
      · exact returns_of_connection system
          (by simpa [Kernel.handleInterrupt, Kernel.queuePush] using inConnection)
  | grants _ _ _ _ result =>
      subst result
      refine returns_of_places member (fun other inExec => ?_) (fun other inBlocked => ?_)
        (fun other inThreads => ?_) (fun other inConnection => ?_) messages
      · exact returns_of_exec system (by simpa [Kernel.removeResourceInstance] using inExec)
      · exact returns_of_blocked system (by simpa [Kernel.removeResourceInstance] using inBlocked)
      · exact returns_of_sleeping system (by simpa [Kernel.removeResourceInstance] using inThreads)
      · simp only [Kernel.removeResourceInstance, Kernel.sendToCpu_fields, Kernel.log_fields,
          Kernel.modifyResourceInstance_fields] at inConnection
        exact answered _ (by rfl) other inConnection
  | blocks resource process others _ valid _ atHead _ _ result =>
      subst result
      have at_index := Kernel.getElem?_getQueueBlocked shape valid
      refine returns_of_places member (fun other inExec => ?_) (fun other inBlocked => ?_)
        (fun other inThreads => ?_) (fun other inConnection => ?_) messages
      · apply returns_of_exec system
        rw [atHead]
        exact List.mem_cons_of_mem _ (by simpa using inExec)
      · rcases Kernel.mem_pushBlocked (by simpa using at_index) inBlocked with old | rfl
        · exact returns_of_blocked system (by simpa using old)
        · exact ⟨process, mem_begun.mpr (.inl (by simp [atHead])), rfl⟩
      · exact returns_of_sleeping system (by simpa using inThreads)
      · exact returns_of_connection system (by simpa using inConnection)
  | releases _ _ _ _ result =>
      subst result
      refine returns_of_places member (fun other inExec => ?_) (fun other inBlocked => ?_)
        (fun other inThreads => ?_) (fun other inConnection => ?_) messages
      · exact returns_of_exec system (by simpa [Kernel.addResourceInstance] using inExec)
      · exact returns_of_blocked system (by simpa [Kernel.addResourceInstance] using inBlocked)
      · exact returns_of_sleeping system (by simpa [Kernel.addResourceInstance] using inThreads)
      · simp only [Kernel.addResourceInstance, Kernel.sendToCpu_fields, Kernel.log_fields,
          Kernel.modifyResourceInstance_fields] at inConnection
        exact answered _ (by rfl) other inConnection
  | sleeps _ _ result =>
      subst result
      refine returns_of_places member (fun other inExec => ?_) (fun other inBlocked => ?_)
        (fun other inThreads => ?_) (fun other inConnection => ?_) messages
      · exact returns_of_exec system (by simpa [Kernel.handleSleepInterruption] using inExec)
      · exact returns_of_blocked system (by simpa [Kernel.handleSleepInterruption] using inBlocked)
      · simp only [Kernel.handleSleepInterruption, Kernel.semPost_fields, Kernel.log_fields,
          List.map_append, List.map_cons, List.map_nil, List.mem_append,
          List.mem_singleton] at inThreads
        rcases inThreads with old | rfl
        · exact returns_of_sleeping system old
        · exact returns_of_message system head rfl
      · exact returns_of_connection system (by simpa [Kernel.handleSleepInterruption] using inConnection)

/-- A process gets a turn by a dispatch only. -/
theorem StepEffect.begun {event : Event} (shape : system.kernel.Shape config)
    (effect : StepEffect config system next event) {pcb : Pcb} (member : pcb ∈ next.begun) :
    system.Returns pcb ∨ pcb.pid ∈ next.kernel.executed := by
  cases effect with
  | creates path quantum clientSocket result =>
      subst result
      refine .inl ⟨pcb, ?_, rfl⟩
      simpa [System.begun, cpuHolds, Kernel.receivePcbAndCreate, Kernel.moveProcessToNew,
        Kernel.queuePush, Kernel.sendToMemory] using member
  | finishes _ _ finished result =>
      subst result
      rcases Kernel.finishProcess_cases finished with ⟨_, rfl⟩ | ⟨_, _, _, _, finishes⟩
      · exact .inl ⟨pcb, member, rfl⟩
      · obtain ⟨sleeping, connection⟩ := Kernel.threads_finishProcess finished
        refine .inl (returns_of_places member (fun other inExec => ?_) (fun other inBlocked => ?_)
          (fun other inThreads => ?_) (fun other inConnection => ?_)
          (fun _ => returns_of_messages system))
        · exact returns_of_exec system ((finishes.mem other).2.2.1 inExec)
        · exact returns_of_blocked system ((finishes.mem other).2.2.2 inBlocked)
        · exact returns_of_sleeping system (sleeping ▸ inThreads)
        · exact returns_of_connection system (connection ▸ inConnection)
  | modifies newDegree result =>
      subst result
      obtain ⟨_, _, exec, blocked, _, _, _, sleeping, connection, _⟩ :=
        system.kernel.modifyMultiprogrammingDegree_fields newDegree
      refine .inl ⟨pcb, ?_, rfl⟩
      simpa only [System.begun, cpuHolds, exec, blocked, sleeping, connection] using member
  | plans _ quiet =>
      refine .inl ⟨pcb, ?_, rfl⟩
      simpa only [System.begun, cpuHolds, quiet.queueExec, quiet.listOfQueueBlocked,
        quiet.sleepThreads, quiet.cpuDispatchConnection, quiet.cpuMessages] using member
  | admits _ _ admits =>
      refine .inl ⟨pcb, ?_, rfl⟩
      simpa only [System.begun, cpuHolds, admits.queueExec, admits.listOfQueueBlocked,
        admits.sleepThreads, admits.cpuDispatchConnection, admits.cpuMessages] using member
  | dispatches process rest dispatches =>
      have fresh : (process.setState .execution).pid ∈ next.kernel.executed := by
        rw [executed_of_dispatch dispatches.trace]
        exact List.mem_cons_self
      simp only [System.begun, cpuHolds, dispatches.queueExec, dispatches.listOfQueueBlocked,
        dispatches.sleepThreads, dispatches.cpuDispatchConnection, dispatches.cpuMessages,
        List.map_append, List.map_cons, List.map_nil, List.mem_append, List.mem_singleton] at member
      rcases member with (old | rfl) | old | old | (old | rfl) | old
      · exact .inl (returns_of_exec system old)
      · exact .inr fresh
      · exact .inl (returns_of_blocked system old)
      · exact .inl (returns_of_sleeping system old)
      · exact .inl (returns_of_connection system old)
      · exact .inr fresh
      · exact .inl (returns_of_messages system old)
  | executes _ _ _ header process rest head result =>
      subst result
      refine .inl (returns_of_places member (fun _ => returns_of_exec system) (fun _ => returns_of_blocked system)
        (fun _ => returns_of_sleeping system) (fun other inRest => ?_) (fun other inMessages => ?_))
      · apply returns_of_connection system
        rw [head]
        exact List.mem_cons_of_mem _ inRest
      · rw [List.map_append, List.mem_append] at inMessages
        rcases inMessages with old | sent
        · exact returns_of_messages system old
        · refine ⟨process, mem_begun.mpr (.inr (.inr (.inr (.inl (by simp [head]))))), ?_⟩
          rw [List.mem_singleton.mp sent]
  | handles message rest kernel head effect result =>
      subst result
      exact .inl (returns_dispatchEffect shape head effect member)
  | sleepStarts index thread at_index _ result =>
      subst result
      refine .inl (returns_of_places member (fun other inTail => ?_) (fun _ => returns_of_blocked system)
        (fun other inThreads => ?_) (fun _ => returns_of_connection system)
        (fun _ => returns_of_messages system))
      · exact returns_of_exec system (List.mem_of_mem_tail inTail)
      · exact returns_of_sleeping system (map_process_set at_index ▸ inThreads)
  | sleepEnds index thread _ sleeping result =>
      subst result
      refine .inl (returns_of_places member (fun other inExec => ?_) (fun other inBlocked => ?_)
        (fun other inThreads => ?_) (fun other inConnection => ?_)
        (fun _ => returns_of_messages system))
      · exact returns_of_exec system (by simpa [Kernel.sleepThreadStep, sleeping, Kernel.queuePush] using inExec)
      · exact returns_of_blocked system
          (by simpa [Kernel.sleepThreadStep, sleeping, Kernel.queuePush] using inBlocked)
      · simp only [Kernel.sleepThreadStep, sleeping, Kernel.queuePush, Kernel.semPost_fields,
          Kernel.setQueue_fields] at inThreads
        obtain ⟨other, inErased, rfl⟩ := List.mem_map.mp inThreads
        exact returns_of_sleeping system (List.mem_map_of_mem (List.mem_of_mem_eraseIdx inErased))
      · exact returns_of_connection system
          (by simpa [Kernel.sleepThreadStep, sleeping, Kernel.queuePush] using inConnection)

/-- A step adds a created process to `queue_new`, or adds nothing to it. -/
theorem StepEffect.queueNew_cases {event : Event} (effect : StepEffect config system next event) :
    (∃ pcb, next.kernel.queueNew = system.kernel.queueNew ++ [pcb] ∧
        next.kernel.created = pcb.pid :: system.kernel.created ∧
        next.kernel.queueReady = system.kernel.queueReady) ∨
      (next.kernel.created = system.kernel.created ∧
        next.kernel.queueNew.Sublist system.kernel.queueNew) := by
  have sublist : ∀ {out : Pcb → Prop} {before after : List Pcb},
      Fifo.Move (fun _ => False) out before after 0 → after.Sublist before := by
    intro out before after move
    have all : ∀ list : List Pcb, list.filter (fun _ => true) = list := fun list => by simp
    rw [← all after, ← all before]
    exact move.filter_sublist fun _ impossible => impossible.elim
  have created := effect.created
  cases effect with
  | creates path quantum clientSocket result =>
      subst result
      refine .inl ⟨createPcb system.kernel.idToAssign path quantum clientSocket, ?_,
        Kernel.created_receivePcbAndCreate .., ?_⟩
      all_goals simp [Kernel.receivePcbAndCreate, Kernel.moveProcessToNew, Kernel.queuePush,
        Kernel.sendToMemory]
  | finishes _ _ finished result =>
      subst result
      have moves := Kernel.moves_finishProcess (fun _ => none) finished
      exact .inr ⟨Kernel.created_finishProcess finished, sublist moves.1⟩
  | modifies newDegree result =>
      subst result
      refine .inr ⟨created.resolve_right (by simp), ?_⟩
      rw [(system.kernel.modifyMultiprogrammingDegree_fields newDegree).1]
  | plans _ quiet =>
      refine .inr ⟨by rw [Kernel.created, quiet.trace, Kernel.created], ?_⟩
      rw [quiet.queueNew]
  | admits process rest admits =>
      refine .inr ⟨created.resolve_right (by simp), ?_⟩
      rw [admits.queueNew, admits.head]
      exact List.sublist_cons_self process rest
  | dispatches _ _ dispatches =>
      refine .inr ⟨created.resolve_right (by simp), ?_⟩
      rw [dispatches.queueNew]
  | executes _ _ _ _ _ _ _ result => subst result; exact .inr ⟨rfl, List.Sublist.refl _⟩
  | handles _ _ _ _ effect result =>
      subst result
      have moves := Kernel.moves_dispatchEffect (fun _ => none) effect
      exact .inr ⟨Kernel.created_dispatchEffect effect, sublist moves.1⟩
  | sleepStarts _ _ _ _ result => subst result; exact .inr ⟨rfl, List.Sublist.refl _⟩
  | sleepEnds _ thread _ sleeping result =>
      subst result
      refine .inr ⟨created.resolve_right (by simp), ?_⟩
      simp [Kernel.sleepThreadStep, sleeping, Kernel.queuePush]

theorem StartsInOrder.step {event : Event} (inOrder : system.StartsInOrder)
    (shape : system.kernel.Shape config) (notSorted : config.planningAlgorithm ≠ "PRIORITIES")
    (taken : system.step config event = some next) : next.StartsInOrder := by
  have effect := step_cases taken
  have moves := step_readyMove notSorted taken
  have grows : ∀ pid ∈ system.kernel.executed, pid ∈ next.kernel.executed := by
    intro pid member
    cases moves with
    | stays executed _ => rwa [executed]
    | admits _ _ _ executed => rwa [executed]
    | dispatches process rest _ _ _ trace =>
        rw [executed_of_dispatch trace]
        exact List.mem_cons_of_mem _ member
  constructor
  · intro pcb member
    rcases effect.begun shape member with ⟨old, inOld, same⟩ | fresh
    · rw [← same]
      exact grows _ (inOrder.begun old inOld)
    · exact fresh
  · have order := inOrder.order
    simp only [Kernel.started, Kernel.notStarted] at order ⊢
    cases moves with
    | stays executed move =>
        have returned : ∀ entry, system.Returns entry →
            decide (entry.pid ∉ system.kernel.executed) = false := by
          rintro entry ⟨old, inOld, same⟩
          simpa [← same] using inOrder.begun old inOld
        have ready := (move.filter_sublist returned).map Pcb.pid
        rw [executed]
        rcases effect.queueNew_cases with ⟨pcb, new, created, _⟩ | ⟨created, new⟩
        · rw [created, new, List.reverse_cons, List.map_append, ← List.append_assoc,
            ← List.append_assoc]
          refine List.Sublist.append (List.Sublist.trans ?_ order) (List.Sublist.refl _)
          rw [← List.append_assoc]
          exact ((List.Sublist.refl _).append ready).append (List.Sublist.refl _)
        · rw [created]
          exact ((List.Sublist.refl _).append (ready.append (new.map Pcb.pid))).trans order
    | admits process rest admits executed =>
        have created : next.kernel.created = system.kernel.created := by
          simp [Kernel.created, admits.trace, KernelEvent.createdPid?, List.filterMap_cons]
        refine List.Sublist.trans ?_ (created ▸ order)
        rw [executed, admits.queueReady, admits.queueNew, admits.head, List.filter_append,
          List.map_append, List.map_cons, List.append_assoc]
        refine (List.Sublist.refl _).append ((List.Sublist.refl _).append ?_)
        rw [List.filter_cons]
        split
        · exact List.Sublist.refl _
        · exact List.sublist_cons_self _ _
    | dispatches process rest head ready new trace =>
        have created : next.kernel.created = system.kernel.created := by
          simp [Kernel.created, trace, KernelEvent.createdPid?, List.filterMap_cons]
        refine List.Sublist.trans ?_ (created ▸ order)
        rw [executed_of_dispatch trace, ready, new, head, ← List.append_assoc, ← List.append_assoc]
        refine List.Sublist.append ?_ (List.Sublist.refl _)
        have fewer : (rest.filter fun other => other.pid ∉ process.pid :: system.kernel.executed).Sublist
            (rest.filter fun other => other.pid ∉ system.kernel.executed) := by
          apply List.monotone_filter_right
          intro other isNew
          simp only [List.mem_cons, not_or, decide_eq_true_eq] at isNew ⊢
          exact isNew.2
        by_cases again : process.pid ∈ system.kernel.executed
        · rw [List.dedup_cons_of_mem again, List.filter_cons_of_neg (by simpa using again)]
          exact (List.Sublist.refl _).append (fewer.map Pcb.pid)
        · rw [List.dedup_cons_of_notMem again, List.filter_cons_of_pos (by simpa using again),
            List.reverse_cons, List.map_cons, List.append_assoc, List.singleton_append]
          exact (List.Sublist.refl _).append ((fewer.map Pcb.pid).cons_cons process.pid)

end System

/-- In every run that does not sort, the processes start in the order in which they were created, and
    those that have not started wait in that order behind them. -/
theorem run_starts_in_order (config : KernelConfig) (events : List Event) (system : System)
    (notSorted : config.planningAlgorithm ≠ "PRIORITIES")
    (reaches : run (System.step config) (System.init config) events = some system) :
    (system.kernel.started ++ system.kernel.notStarted).Sublist system.kernel.created.reverse := by
  have invariant : system.StartsInOrder ∧ system.kernel.Shape config := by
    refine invariant_of_run (fun system => system.StartsInOrder ∧ system.kernel.Shape config) ?_
      ⟨.init config, .init config⟩ reaches
    intro state event next holds taken
    exact ⟨holds.1.step holds.2 notSorted taken, (System.step_cases taken).shape holds.2⟩
  exact invariant.1.order

theorem run_starts_in_order_dispatchFirst :
    ∃ system, run (System.step fifoConfig) (System.init fifoConfig) dispatchFirst = some system ∧
      system.kernel.started = [0] ∧ system.kernel.notStarted = [1] ∧
      (system.kernel.started ++ system.kernel.notStarted).Sublist system.kernel.created.reverse :=
  ⟨_, rfl, by decide, by decide, run_starts_in_order fifoConfig dispatchFirst _ (by decide) rfl⟩

end OsSimulator
