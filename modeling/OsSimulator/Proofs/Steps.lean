/-
Module: OsSimulator.Proofs.Steps
Purpose: The inversion lemma of the system's step function: every event, with the guards under
  which it is enabled and what it changes.  The invariants of whole runs are case analyses of it.
Main exports: System.StepEffect, System.step_cases, System.shape_of_run, fifoConfig, dispatchFirst
-/
import OsSimulator.Lib.Transition
import OsSimulator.Proofs.History

namespace OsSimulator

open Transition

/-- The events that can move planning tokens only: the two commands, the planners between two of their
    `sem_wait`s, and the CPU's reading of an interrupt header. -/
def Event.IsPlanning : Event → Prop
  | .startPlanning | .stopPlanning | .longTermPlanner | .shortTermPlanner | .cpuReadInterrupt => True
  | _ => False

namespace System

/-- The degree token that the long-term planner holds between its second and third `sem_wait`. -/
def degreeHeld (system : System) : Nat := if system.longTerm = .hasDegree then 1 else 0

/-- A step that moves planning tokens only: no queue, no PCB, no message and no resource. -/
structure Quiet (system next : System) : Prop where
  queueNew : next.kernel.queueNew = system.kernel.queueNew
  queueReady : next.kernel.queueReady = system.kernel.queueReady
  queueExec : next.kernel.queueExec = system.kernel.queueExec
  listOfQueueBlocked : next.kernel.listOfQueueBlocked = system.kernel.listOfQueueBlocked
  allResources : next.kernel.allResources = system.kernel.allResources
  allResourcesInstances :
    next.kernel.allResourcesInstances = system.kernel.allResourcesInstances
  idToAssign : next.kernel.idToAssign = system.kernel.idToAssign
  sleepThreads : next.kernel.sleepThreads = system.kernel.sleepThreads
  cpuDispatchConnection :
    next.kernel.cpuDispatchConnection = system.kernel.cpuDispatchConnection
  trace : next.kernel.trace = system.kernel.trace
  cpuMessages : next.cpuMessages = system.cpuMessages
  semCpu : next.kernel.sem .cpuAvailable = system.kernel.sem .cpuAvailable
  semBlocked : next.kernel.sem .processBlocked = system.kernel.sem .processBlocked
  semDegree : next.kernel.sem .multiprogrammingDegree + next.degreeHeld =
    system.kernel.sem .multiprogrammingDegree + system.degreeHeld

/-- The long-term planner moves `process` from the head of `queue_new` to `queue_ready`. -/
structure Admits (system next : System) (process : Pcb) (rest : List Pcb) : Prop where
  head : system.kernel.queueNew = process :: rest
  held : system.longTerm = .hasDegree
  queueNew : next.kernel.queueNew = rest
  queueReady : next.kernel.queueReady = system.kernel.queueReady ++ [process.setState .ready]
  queueExec : next.kernel.queueExec = system.kernel.queueExec
  listOfQueueBlocked : next.kernel.listOfQueueBlocked = system.kernel.listOfQueueBlocked
  allResources : next.kernel.allResources = system.kernel.allResources
  allResourcesInstances :
    next.kernel.allResourcesInstances = system.kernel.allResourcesInstances
  idToAssign : next.kernel.idToAssign = system.kernel.idToAssign
  sleepThreads : next.kernel.sleepThreads = system.kernel.sleepThreads
  cpuDispatchConnection :
    next.kernel.cpuDispatchConnection = system.kernel.cpuDispatchConnection
  trace : next.kernel.trace = .newToReady process.pid :: system.kernel.trace
  cpuMessages : next.cpuMessages = system.cpuMessages
  longTerm : next.longTerm = .parked
  semCpu : next.kernel.sem .cpuAvailable = system.kernel.sem .cpuAvailable
  semBlocked : next.kernel.sem .processBlocked = system.kernel.sem .processBlocked
  semDegree :
    next.kernel.sem .multiprogrammingDegree = system.kernel.sem .multiprogrammingDegree

/-- The short-term planner sends `process`, one of `queue_ready`, to the CPU. -/
structure Dispatches (system next : System) (process : Pcb) (rest : List Pcb) : Prop where
  perm : (process :: rest).Perm system.kernel.queueReady
  token : 0 < system.kernel.sem .cpuAvailable
  queueNew : next.kernel.queueNew = system.kernel.queueNew
  queueReady : next.kernel.queueReady = rest
  queueExec : next.kernel.queueExec = system.kernel.queueExec ++ [process.setState .execution]
  listOfQueueBlocked : next.kernel.listOfQueueBlocked = system.kernel.listOfQueueBlocked
  allResources : next.kernel.allResources = system.kernel.allResources
  allResourcesInstances :
    next.kernel.allResourcesInstances = system.kernel.allResourcesInstances
  idToAssign : next.kernel.idToAssign = system.kernel.idToAssign
  sleepThreads : next.kernel.sleepThreads = system.kernel.sleepThreads
  cpuDispatchConnection : next.kernel.cpuDispatchConnection =
    system.kernel.cpuDispatchConnection ++ [(.executeProcess, process.setState .execution)]
  trace : next.kernel.trace =
    .sentToCpu .executeProcess (process.setState .execution) :: system.kernel.trace
  cpuMessages : next.cpuMessages = system.cpuMessages
  longTerm : next.longTerm = system.longTerm
  semCpu : next.kernel.sem .cpuAvailable + 1 = system.kernel.sem .cpuAvailable
  semBlocked : next.kernel.sem .processBlocked = system.kernel.sem .processBlocked
  semDegree :
    next.kernel.sem .multiprogrammingDegree = system.kernel.sem .multiprogrammingDegree

/-- Everything a step of the system can do. -/
inductive StepEffect (config : KernelConfig) (system next : System) : Event → Prop where
  | creates (path : String) (quantum clientSocket : Int32)
      (result : next =
        { system with kernel := system.kernel.receivePcbAndCreate path quantum clientSocket }) :
      StepEffect config system next (.createProcess path quantum clientSocket)
  | finishes (pid : UInt32) (kernel : Kernel)
      (finished : system.kernel.finishProcess pid = some kernel)
      (result : next = { system with kernel := kernel }) :
      StepEffect config system next (.finishProcess pid)
  | modifies (newDegree : Int32)
      (result : next =
        { system with kernel := system.kernel.modifyMultiprogrammingDegree newDegree }) :
      StepEffect config system next (.modifyMultiprogrammingDegree newDegree)
  | plans (event : Event) (quiet : Quiet system next) (planning : event.IsPlanning) :
      StepEffect config system next event
  | admits (process : Pcb) (rest : List Pcb) (admits : Admits system next process rest) :
      StepEffect config system next .longTermPlanner
  | dispatches (process : Pcb) (rest : List Pcb)
      (dispatches : Dispatches system next process rest) :
      StepEffect config system next .shortTermPlanner
  | executes (request : CpuRequest) (cpuRegister : List (BitVec 64)) (programCounter : Int32)
      (header : OperationCode) (process : Pcb) (rest : List (OperationCode × Pcb))
      (head : system.kernel.cpuDispatchConnection = (header, process) :: rest)
      (result : next =
        { system with
          kernel := { system.kernel with cpuDispatchConnection := rest }
          cpuMessages := system.cpuMessages ++
            [⟨request, { process with
              cpuRegister := cpuRegister, programCounter := programCounter }⟩]
          hasInterrupt := false }) :
      StepEffect config system next (.cpuExecute request cpuRegister programCounter)
  | handles (message : Message) (rest : List Message) (kernel : Kernel)
      (head : system.cpuMessages = message :: rest)
      (effect : Kernel.DispatchEffect message system.kernel kernel)
      (result : next = { system with cpuMessages := rest, kernel := kernel }) :
      StepEffect config system next .handleDispatch
  | sleepStarts (index : Nat) (thread : SleepThread)
      (at_index : system.kernel.sleepThreads[index]? = some thread)
      (starting : thread.phase = .starting)
      (result : next =
        { system with
          kernel :=
            { system.kernel with
              queueExec := system.kernel.queueExec.tail
              sleepThreads :=
                system.kernel.sleepThreads.set index { thread with phase := .sleeping } } }) :
      StepEffect config system next (.sleepThread index)
  | sleepEnds (index : Nat) (thread : SleepThread)
      (at_index : system.kernel.sleepThreads[index]? = some thread)
      (sleeping : thread.phase = .sleeping)
      (result : next =
        { system with kernel := system.kernel.sleepThreadStep thread index }) :
      StepEffect config system next (.sleepThread index)

variable {config : KernelConfig} {system next : System}

private theorem longTermPlanner_cases (taken : system.longTermPlanner = some next) :
    StepEffect config system next .longTermPlanner := by
  unfold longTermPlanner at taken
  split at taken
  · rename_i position
    obtain ⟨kernel, waited, rfl⟩ := Option.map_eq_some_iff.mp taken
    obtain ⟨_, rfl⟩ := (Kernel.semWait_eq_some ..).mp waited
    exact .plans _ (by constructor <;> simp [degreeHeld, position]) trivial
  · rename_i position
    obtain ⟨kernel, waited, rfl⟩ := Option.map_eq_some_iff.mp taken
    obtain ⟨positive, rfl⟩ := (Kernel.semWait_eq_some ..).mp waited
    exact .plans _ (by constructor <;> simp [degreeHeld, position]; omega) trivial
  · rename_i position
    obtain ⟨kernel, admitted, rfl⟩ := Option.map_eq_some_iff.mp taken
    obtain ⟨process, rest, head, _, rfl⟩ := Kernel.longTermPlannerAdmit_cases admitted
    exact .admits process rest
      (by constructor <;> simp [Kernel.queuePush, head, position])

private theorem shortTermPlanner_cases (taken : system.shortTermPlanner config = some next) :
    StepEffect config system next .shortTermPlanner := by
  obtain ⟨_, taken⟩ := Option.ite_none_right_eq_some.mp taken
  split at taken
  · obtain ⟨kernel, waited, rfl⟩ := Option.map_eq_some_iff.mp taken
    obtain ⟨_, rfl⟩ := (Kernel.semWait_eq_some ..).mp waited
    exact .plans _ (by constructor <;> simp [degreeHeld]) trivial
  · obtain ⟨kernel, waited, rfl⟩ := Option.map_eq_some_iff.mp taken
    obtain ⟨_, rfl⟩ := (Kernel.semWait_eq_some ..).mp waited
    exact .plans _ (by constructor <;> simp [degreeHeld]) trivial
  · obtain ⟨kernel, dispatched, result⟩ := Option.map_eq_some_iff.mp taken
    obtain ⟨process, rest, perm, token, rfl⟩ := Kernel.shortTermPlannerDispatch_cases dispatched
    refine .dispatches process rest ?_
    split at result
    · subst result
      constructor <;> simp [Kernel.queuePush, perm, token]
      omega
    · subst result
      constructor <;> simp [Kernel.queuePush, perm, token]
      omega
  · obtain rfl := Option.some.inj taken
    exact .plans _ (by constructor <;> simp [degreeHeld]) trivial

/-- The inversion lemma of `System.step`. -/
theorem step_cases {event : Event} (taken : system.step config event = some next) :
    StepEffect config system next event := by
  cases event with
  | createProcess path quantum clientSocket =>
      exact .creates path quantum clientSocket (Option.some.inj taken).symm
  | finishProcess pid =>
      obtain ⟨kernel, finished, rfl⟩ := Option.map_eq_some_iff.mp taken
      exact .finishes pid kernel finished rfl
  | startPlanning =>
      obtain ⟨kernel, started, rfl⟩ := Option.map_eq_some_iff.mp taken
      simp only [Kernel.startPlanning, Option.bind_eq_bind, Option.bind_eq_some_iff,
        Kernel.semWait_eq_some] at started
      obtain ⟨_, ⟨_, rfl⟩, result⟩ := started
      obtain rfl := Option.some.inj result
      exact .plans _ (by constructor <;> simp [degreeHeld]) trivial
  | stopPlanning =>
      obtain ⟨kernel, stopped, rfl⟩ := Option.map_eq_some_iff.mp taken
      simp only [Kernel.stopPlanning, Option.bind_eq_bind, Option.bind_eq_some_iff,
        Kernel.semWait_eq_some] at stopped
      obtain ⟨_, ⟨_, rfl⟩, _, rfl⟩ := stopped
      exact .plans _ (by constructor <;> simp [degreeHeld]) trivial
  | modifyMultiprogrammingDegree newDegree =>
      exact .modifies newDegree (Option.some.inj taken).symm
  | longTermPlanner => exact longTermPlanner_cases taken
  | shortTermPlanner => exact shortTermPlanner_cases taken
  | cpuExecute request cpuRegister programCounter =>
      simp only [step, cpuExecute] at taken
      split at taken
      · cases taken
      · rename_i header process rest head
        split at taken
        · cases taken
        · exact .executes request cpuRegister programCounter header process rest head
            (Option.some.inj taken).symm
  | cpuReadInterrupt =>
      obtain ⟨_, result⟩ := Option.ite_none_right_eq_some.mp taken
      obtain rfl := Option.some.inj result
      exact .plans _ (by constructor <;> simp [degreeHeld]) trivial
  | handleDispatch =>
      simp only [step] at taken
      split at taken
      · cases taken
      · rename_i message rest head
        obtain ⟨kernel, handled, rfl⟩ := Option.map_eq_some_iff.mp taken
        exact .handles message rest kernel head
          (Kernel.handleDispatchConnection_cases handled) rfl
  | sleepThread index =>
      simp only [step] at taken
      split at taken
      · cases taken
      · rename_i thread at_index
        have result := (Option.some.inj taken).symm
        cases phase : thread.phase with
        | starting =>
            refine .sleepStarts index thread at_index phase (result.trans ?_)
            simp [Kernel.sleepThreadStep, phase, Kernel.setQueue]
        | sleeping => exact .sleepEnds index thread at_index phase result

/-- No step changes the shape of the resource lists. -/
theorem StepEffect.shape {event : Event} (effect : StepEffect config system next event)
    (shape : system.kernel.Shape config) : next.kernel.Shape config := by
  cases effect with
  | creates _ _ _ result =>
      subst result
      exact shape.congr
        (by simp [Kernel.receivePcbAndCreate, Kernel.moveProcessToNew, Kernel.queuePush,
          Kernel.sendToMemory])
        (by simp [Kernel.receivePcbAndCreate, Kernel.moveProcessToNew, Kernel.queuePush,
          Kernel.sendToMemory])
        (by simp [Kernel.receivePcbAndCreate, Kernel.moveProcessToNew, Kernel.queuePush,
          Kernel.sendToMemory])
  | finishes _ _ finished result =>
      subst result
      exact shape.finishProcess finished
  | modifies _ result =>
      subst result
      unfold Kernel.modifyMultiprogrammingDegree
      split <;> exact shape.congr (by simp) (by simp) (by simp)
  | plans _ quiet =>
      exact shape.congr quiet.allResources (by rw [quiet.listOfQueueBlocked])
        (by rw [quiet.allResourcesInstances])
  | admits _ _ admits =>
      exact shape.congr admits.allResources (by rw [admits.listOfQueueBlocked])
        (by rw [admits.allResourcesInstances])
  | dispatches _ _ dispatches =>
      exact shape.congr dispatches.allResources (by rw [dispatches.listOfQueueBlocked])
        (by rw [dispatches.allResourcesInstances])
  | executes _ _ _ _ _ _ _ result =>
      subst result
      exact ⟨shape.allResources, shape.listOfQueueBlocked, shape.allResourcesInstances⟩
  | handles _ _ _ _ effect result =>
      subst result
      exact shape.dispatchEffect effect
  | sleepStarts _ _ _ _ result =>
      subst result
      exact ⟨shape.allResources, shape.listOfQueueBlocked, shape.allResourcesInstances⟩
  | sleepEnds _ thread _ sleeping result =>
      subst result
      exact shape.congr (by simp [Kernel.sleepThreadStep, sleeping, Kernel.queuePush])
        (by simp [Kernel.sleepThreadStep, sleeping, Kernel.queuePush])
        (by simp [Kernel.sleepThreadStep, sleeping, Kernel.queuePush])

theorem shape_of_run {events : List Event}
    (reaches : run (System.step config) (System.init config) events = some system) :
    system.kernel.Shape config :=
  invariant_of_run (fun system => system.kernel.Shape config)
    (fun shape taken => (step_cases taken).shape shape) (.init config) reaches

end System

/-! ### The queue of new processes -/

namespace Kernel

/-- Neither a finish nor a message brings a process into `queue_new`. -/
theorem queueNew_finishProcess {pid : UInt32} {kernel next : Kernel} {process : Pcb}
    (finished : kernel.finishProcess pid = some next) (member : process ∈ next.queueNew) :
    process ∈ kernel.queueNew := by
  rcases finishProcess_cases finished with ⟨_, rfl⟩ | ⟨_, _, _, _, finishes⟩
  · simpa using member
  · exact (finishes.mem process).1 member

theorem queueNew_dispatchEffect {message : Message} {kernel next : Kernel} {process : Pcb}
    (effect : DispatchEffect message kernel next) (member : process ∈ next.queueNew) :
    process ∈ kernel.queueNew := by
  cases effect with
  | finishes _ finished => simpa using queueNew_finishProcess finished member
  | interrupts _ result => subst result; simpa [handleInterrupt, queuePush] using member
  | grants _ _ _ _ result => subst result; simpa [removeResourceInstance] using member
  | blocks _ _ _ _ _ _ _ _ _ result => subst result; simpa using member
  | releases _ _ _ _ result => subst result; simpa [addResourceInstance] using member
  | sleeps _ _ result => subst result; simpa [handleSleepInterruption] using member

end Kernel

/-- `queue_new` only gets processes that are being created, with the next pid. -/
theorem System.StepEffect.queueNew {config : KernelConfig} {system next : System} {event : Event}
    {process : Pcb} (effect : StepEffect config system next event)
    (member : process ∈ next.kernel.queueNew) :
    process ∈ system.kernel.queueNew ∨
      ∃ path quantum clientSocket, event = .createProcess path quantum clientSocket ∧
        process = createPcb system.kernel.idToAssign path quantum clientSocket := by
  cases effect with
  | creates path quantum clientSocket result =>
      subst result
      simp only [Kernel.receivePcbAndCreate, Kernel.moveProcessToNew, Kernel.queuePush,
        Kernel.sendToMemory, Kernel.semPost_fields, Kernel.log_fields, Kernel.setQueue_new,
        Kernel.queue_new, List.mem_append, List.mem_singleton] at member
      exact member.imp_right fun new => ⟨path, quantum, clientSocket, rfl, new⟩
  | finishes _ _ finished result =>
      subst result
      exact .inl (Kernel.queueNew_finishProcess finished member)
  | modifies newDegree result =>
      subst result
      exact .inl ((system.kernel.modifyMultiprogrammingDegree_fields newDegree).1 ▸ member)
  | plans _ quiet => exact .inl (quiet.queueNew ▸ member)
  | admits _ _ admits =>
      rw [admits.head]
      exact .inl (List.mem_cons_of_mem _ (admits.queueNew ▸ member))
  | dispatches _ _ dispatches => exact .inl (dispatches.queueNew ▸ member)
  | executes _ _ _ _ _ _ _ result => subst result; exact .inl member
  | handles _ _ _ _ effect result =>
      subst result
      exact .inl (Kernel.queueNew_dispatchEffect effect member)
  | sleepStarts _ _ _ _ result => subst result; exact .inl member
  | sleepEnds _ thread _ sleeping result =>
      subst result
      exact .inl (by simpa [Kernel.sleepThreadStep, sleeping, Kernel.queuePush] using member)

/-! ### What the steps add to the trace -/

namespace System

variable {config : KernelConfig} {system next : System}

/-- Apart from the lines of finishes and messages, a step logs a creation, a new degree or an
    admission. -/
theorem StepEffect.filterMap_trace {β : Type} {project : KernelEvent → Option β} {event : Event}
    (skips : SkipsMessages project) (effect : StepEffect config system next event) :
    next.kernel.trace.filterMap project = system.kernel.trace.filterMap project ∨
      (∃ path quantum clientSocket, event = .createProcess path quantum clientSocket ∧
        next.kernel.trace.filterMap project =
          (project (.created system.kernel.idToAssign)).toList ++
            system.kernel.trace.filterMap project) ∨
      (∃ newDegree, event = .modifyMultiprogrammingDegree newDegree ∧
        next.kernel.trace.filterMap project =
          (project (.newDegree newDegree.toInt)).toList ++
            system.kernel.trace.filterMap project) ∨
      ∃ process rest, Admits system next process rest ∧
        next.kernel.trace.filterMap project =
          (project (.newToReady process.pid)).toList ++
            system.kernel.trace.filterMap project := by
  have one : ∀ line (earlier : List KernelEvent), (line :: earlier).filterMap project =
      (project line).toList ++ earlier.filterMap project := by
    intro line earlier
    cases projected : project line <;> simp [projected]
  cases effect with
  | creates path quantum clientSocket result =>
      subst result
      refine .inr (.inl ⟨path, quantum, clientSocket, rfl, ?_⟩)
      simp only [Kernel.receivePcbAndCreate, Kernel.moveProcessToNew, Kernel.queuePush,
        Kernel.sendToMemory, Kernel.semPost_fields, Kernel.log_fields, Kernel.setQueue_fields, one,
        skips.sentToMemory, createPcb]
      rfl
  | finishes _ _ finished result =>
      subst result
      exact .inl (filterMap_finishProcess skips.toSkipsFinish finished)
  | modifies newDegree result =>
      subst result
      refine .inr (.inr (.inl ⟨newDegree, rfl, ?_⟩))
      unfold Kernel.modifyMultiprogrammingDegree
      split <;> simp only [Kernel.log_fields, Kernel.semInit_fields, one]
  | plans _ quiet => exact .inl (by rw [quiet.trace])
  | admits process rest admits =>
      exact .inr (.inr (.inr ⟨process, rest, admits, by rw [admits.trace, one]⟩))
  | dispatches _ _ dispatches =>
      exact .inl (by rw [dispatches.trace, one, skips.sentToCpu]; rfl)
  | executes _ _ _ _ _ _ _ result => subst result; exact .inl rfl
  | handles _ _ _ _ effect result =>
      subst result
      exact .inl (filterMap_dispatchEffect skips effect)
  | sleepStarts _ _ _ _ result => subst result; exact .inl rfl
  | sleepEnds _ thread _ sleeping result =>
      subst result
      exact .inl (by simp [Kernel.sleepThreadStep, sleeping, Kernel.queuePush])

/-- Only a creation adds to the created pids, the value of the counter. -/
theorem StepEffect.created {event : Event} (effect : StepEffect config system next event) :
    next.kernel.created = system.kernel.created ∨
      (∃ path quantum clientSocket, event = .createProcess path quantum clientSocket ∧
        next.kernel.created = system.kernel.idToAssign :: system.kernel.created) := by
  rcases effect.filterMap_trace createdPid?_skips with
    same | ⟨path, quantum, clientSocket, rfl, grown⟩ | ⟨_, _, same⟩ | ⟨_, _, _, same⟩
  · exact .inl same
  · exact .inr ⟨path, quantum, clientSocket, rfl, grown⟩
  · exact .inl same
  · exact .inl same

/-- Only an admission adds to the admitted pids. -/
theorem StepEffect.admitted {event : Event} (effect : StepEffect config system next event) :
    next.kernel.admitted = system.kernel.admitted ∨
      ∃ process rest, Admits system next process rest ∧
        next.kernel.admitted = process.pid :: system.kernel.admitted := by
  rcases effect.filterMap_trace admittedPid?_skips with
    same | ⟨_, _, _, _, same⟩ | ⟨_, _, same⟩ | ⟨process, rest, admits, grown⟩
  · exact .inl same
  · exact .inl same
  · exact .inl same
  · exact .inr ⟨process, rest, admits, grown⟩

end System

/-! ### Where the copies of a PCB are -/

/-- The PCBs the kernel has outside `queue_new`: in queues, with sleep threads, and on their way to
    the CPU. -/
def Kernel.carried (kernel : Kernel) : List Pcb :=
  kernel.queueReady ++ (kernel.queueExec ++ (kernel.listOfQueueBlocked.flatten ++
    (kernel.sleepThreads.map SleepThread.process ++
      kernel.cpuDispatchConnection.map Prod.snd)))

/-- Where every place only loses PCBs, nothing is carried that was not. -/
theorem Kernel.carried_subset {kernel next : Kernel}
    (ready : next.queueReady ⊆ kernel.queueReady) (exec : next.queueExec ⊆ kernel.queueExec)
    (blocked : next.listOfQueueBlocked.flatten ⊆ kernel.listOfQueueBlocked.flatten)
    (sleeping : next.sleepThreads.map SleepThread.process ⊆
      kernel.sleepThreads.map SleepThread.process)
    (connection : next.cpuDispatchConnection.map Prod.snd ⊆
      kernel.cpuDispatchConnection.map Prod.snd) :
    next.carried ⊆ kernel.carried := by
  intro pcb member
  simp only [carried, List.mem_append] at member ⊢
  exact member.imp (@ready pcb)
    (Or.imp (@exec pcb) (Or.imp (@blocked pcb) (Or.imp (@sleeping pcb) (@connection pcb))))

/-- An answer adds only its own PCB. -/
theorem Kernel.mem_carried_sendToCpu {kernel : Kernel} {header : OperationCode} {sent pcb : Pcb}
    (member : pcb ∈ (kernel.sendToCpu header sent).carried) :
    pcb ∈ kernel.carried ∨ pcb = sent := by
  simp only [carried, sendToCpu_fields, List.map_append, List.map_cons, List.map_nil,
    List.mem_append, List.mem_singleton] at member ⊢
  simpa only [or_assoc] using member

/-- A finish changes the state of what it moves, and nothing else. -/
theorem Kernel.copy_of_finishProcess {pid : UInt32} {kernel next : Kernel} {pcb : Pcb}
    (finished : kernel.finishProcess pid = some next) (member : pcb ∈ next.carried) :
    ∃ old ∈ kernel.carried, ∃ state, pcb = old.setState state := by
  rcases finishProcess_cases finished with ⟨_, rfl⟩ | ⟨id, process, woken, middle, finishes⟩
  · exact ⟨pcb, by simpa [carried] using member, pcb.state, rfl⟩
  obtain ⟨_, ready, exec, blocked⟩ := finishes.mem pcb
  obtain ⟨_, _, _, _, _, _, _, sleeping, connection⟩ := finishes.fields
  simp only [carried, sleeping, connection, List.mem_append] at member ⊢
  rcases member with inReady | inExec | inBlocked | elsewhere
  · rcases ready inReady with old | fresh
    · exact ⟨pcb, .inl old, pcb.state, rfl⟩
    · obtain ⟨old, inBlocked, rfl⟩ := finishes.origin fresh
      exact ⟨old, .inr (.inr (.inl inBlocked)), .ready, rfl⟩
  · exact ⟨pcb, .inr (.inl (exec inExec)), pcb.state, rfl⟩
  · exact ⟨pcb, .inr (.inr (.inl (blocked inBlocked))), pcb.state, rfl⟩
  · exact ⟨pcb, .inr (.inr (.inr elsewhere)), pcb.state, rfl⟩

/-- A finish moves no pid to a place where it was not. -/
theorem Kernel.carried_finishProcess {pid : UInt32} {kernel next : Kernel} {pcb : Pcb}
    (finished : kernel.finishProcess pid = some next) (member : pcb ∈ next.carried) :
    ∃ old ∈ kernel.carried, old.pid = pcb.pid := by
  obtain ⟨old, inOld, state, rfl⟩ := copy_of_finishProcess finished member
  exact ⟨old, inOld, rfl⟩

/-- What becomes of the PCB of a message. -/
inductive Message.Leaves (message : Message) : Pcb → Prop where
  | interrupted (requested : message.request = .interrupt) :
      message.Leaves (message.pcb.setState .ready)
  | answered (resource : String) (resources : List String)
      (requested : message.request = .wait resource ∨ message.request = .signal resource) :
      message.Leaves
        { message.pcb with
          programCounter := message.pcb.programCounter + 1
          resources := resources }
  | asleep (time : Int32) (requested : message.request = .sleep time) :
      message.Leaves message.pcb

theorem Message.Leaves.pid {message : Message} {pcb : Pcb} (leaves : message.Leaves pcb) :
    message.pcb.pid = pcb.pid := by
  cases leaves <;> rfl

/-- A message changes the state of what it moves, and brings its own PCB. -/
theorem Kernel.copy_of_dispatchEffect {config : KernelConfig} {message : Message}
    {kernel next : Kernel} {pcb : Pcb} (shape : kernel.Shape config)
    (effect : DispatchEffect message kernel next) (member : pcb ∈ next.carried) :
    (∃ old ∈ kernel.carried, ∃ state, pcb = old.setState state) ∨ message.Leaves pcb := by
  cases effect with
  | finishes _ finished =>
      obtain ⟨old, inLog, state, same⟩ := copy_of_finishProcess finished member
      exact .inl ⟨old, by simpa [carried] using inLog, state, same⟩
  | interrupts requested result =>
      subst result
      simp only [carried, handleInterrupt, queuePush, semPost_fields, setQueue_ready,
        setQueue_fields, setQueue_exec, queue_ready, log_fields, List.mem_append,
        List.mem_singleton] at member ⊢
      rcases member with (old | rfl) | inExec | elsewhere
      · exact .inl ⟨pcb, .inl old, pcb.state, rfl⟩
      · exact .inr (.interrupted requested)
      · exact .inl ⟨pcb, .inr (.inl (List.mem_of_mem_tail inExec)), pcb.state, rfl⟩
      · exact .inl ⟨pcb, .inr (.inr elsewhere), pcb.state, rfl⟩
  | grants resource requested _ _ result =>
      subst result
      rcases mem_carried_sendToCpu member with old | rfl
      · exact .inl ⟨pcb, by simpa [carried, removeResourceInstance] using old, pcb.state, rfl⟩
      · exact .inr (.answered resource _ (.inl requested))
  | blocks resource process rest _ valid _ head _ _ result =>
      subst result
      have at_index := getElem?_getQueueBlocked shape valid
      simp only [carried, List.mem_append] at member ⊢
      rcases member with old | inExec | inBlocked | elsewhere
      · exact .inl ⟨pcb, .inl (by simpa using old), pcb.state, rfl⟩
      · refine .inl ⟨pcb, .inr (.inl ?_), pcb.state, rfl⟩
        rw [head]
        exact List.mem_cons_of_mem _ (by simpa using inExec)
      · rcases mem_pushBlocked (by simpa using at_index) inBlocked with old | rfl
        · exact .inl ⟨pcb, .inr (.inr (.inl (by simpa using old))), pcb.state, rfl⟩
        · exact .inl ⟨process, .inr (.inl (by simp [head])), .blocked, rfl⟩
      · exact .inl ⟨pcb, .inr (.inr (.inr (by simpa using elsewhere))), pcb.state, rfl⟩
  | releases resource requested _ _ result =>
      subst result
      rcases mem_carried_sendToCpu member with old | rfl
      · exact .inl ⟨pcb, by simpa [carried, addResourceInstance] using old, pcb.state, rfl⟩
      · exact .inr (.answered resource _ (.inr requested))
  | sleeps time requested result =>
      subst result
      simp only [carried, handleSleepInterruption, semPost_fields, log_fields, List.map_append,
        List.map_cons, List.map_nil, List.mem_append, List.mem_singleton] at member ⊢
      rcases member with old | old | old | (old | rfl) | old
      · exact .inl ⟨pcb, .inl old, pcb.state, rfl⟩
      · exact .inl ⟨pcb, .inr (.inl old), pcb.state, rfl⟩
      · exact .inl ⟨pcb, .inr (.inr (.inl old)), pcb.state, rfl⟩
      · exact .inl ⟨pcb, .inr (.inr (.inr (.inl old))), pcb.state, rfl⟩
      · exact .inr (.asleep time requested)
      · exact .inl ⟨pcb, .inr (.inr (.inr (.inr old))), pcb.state, rfl⟩

namespace System

/-- The processes the CPU has been sent and not given up: a message that is still to be handled may
    yet be answered with WAIT_RESPONSE or SIGNAL_RESPONSE. -/
def cpuHolds (system : System) : List Pcb :=
  system.kernel.cpuDispatchConnection.map Prod.snd ++ system.cpuMessages.map Message.pcb

/-- Every PCB outside `queue_new`. -/
def carried (system : System) : List Pcb :=
  system.kernel.carried ++ system.cpuMessages.map Message.pcb

variable {config : KernelConfig} {system next : System}

/-- Going to sleep does not change the process of a sleep thread. -/
theorem map_process_set {threads : List SleepThread} {index : Nat} {thread : SleepThread}
    {phase : SleepPhase} (at_index : threads[index]? = some thread) :
    (threads.set index { thread with phase := phase }).map SleepThread.process =
      threads.map SleepThread.process := by
  obtain ⟨bound, rfl⟩ := List.getElem?_eq_some_iff.mp at_index
  rw [List.map_set]
  have inside : index < (threads.map SleepThread.process).length := by simpa using bound
  have unchanged : (threads.map SleepThread.process).set index
      (threads.map SleepThread.process)[index] = threads.map SleepThread.process :=
    List.set_getElem_self _
  simpa using unchanged

/-- A PCB outside `queue_new` is one that was there, possibly in another state, or comes from the head of
    `queue_new`, from a message or from a thread that has slept. -/
theorem StepEffect.copyKernel {event : Event} {pcb : Pcb} (shape : system.kernel.Shape config)
    (effect : StepEffect config system next event) (member : pcb ∈ next.kernel.carried) :
    (∃ old ∈ system.kernel.carried, ∃ state, pcb = old.setState state) ∨
      (∃ message ∈ system.cpuMessages.head?, event = .handleDispatch ∧ message.Leaves pcb) ∨
      (∃ process rest, Admits system next process rest ∧ pcb = process.setState .ready) ∨
      ∃ thread ∈ system.kernel.sleepThreads,
        pcb = { thread.process with
          state := .ready
          programCounter := thread.process.programCounter + 1 } := by
  cases effect with
  | creates _ _ _ result =>
      subst result
      exact .inl ⟨pcb, by simpa [Kernel.carried, Kernel.receivePcbAndCreate,
        Kernel.moveProcessToNew, Kernel.queuePush, Kernel.sendToMemory] using member, pcb.state, rfl⟩
  | finishes _ _ finished result =>
      subst result
      exact .inl (Kernel.copy_of_finishProcess finished member)
  | modifies newDegree result =>
      subst result
      obtain ⟨_, ready, exec, blocked, _, _, _, sleeping, connection, _⟩ :=
        system.kernel.modifyMultiprogrammingDegree_fields newDegree
      refine .inl ⟨pcb, ?_, pcb.state, rfl⟩
      simpa only [Kernel.carried, ready, exec, blocked, sleeping, connection] using member
  | plans _ quiet =>
      refine .inl ⟨pcb, ?_, pcb.state, rfl⟩
      simpa only [Kernel.carried, quiet.queueReady, quiet.queueExec, quiet.listOfQueueBlocked,
        quiet.sleepThreads, quiet.cpuDispatchConnection] using member
  | admits process rest admits =>
      simp only [Kernel.carried, admits.queueReady, admits.queueExec, admits.listOfQueueBlocked,
        admits.sleepThreads, admits.cpuDispatchConnection, List.mem_append,
        List.mem_singleton] at member
      rcases member with (old | rfl) | elsewhere
      · exact .inl ⟨pcb, by simp [Kernel.carried, old], pcb.state, rfl⟩
      · exact .inr (.inr (.inl ⟨process, rest, admits, rfl⟩))
      · refine .inl ⟨pcb, ?_, pcb.state, rfl⟩
        simp only [Kernel.carried, List.mem_append]
        exact .inr elsewhere
  | dispatches process rest dispatches =>
      have inReady : ∀ other, other = process ∨ other ∈ rest →
          other ∈ system.kernel.queueReady := fun other inPerm =>
        dispatches.perm.subset (List.mem_cons.mpr inPerm)
      simp only [Kernel.carried, dispatches.queueReady, dispatches.queueExec,
        dispatches.listOfQueueBlocked, dispatches.sleepThreads, dispatches.cpuDispatchConnection,
        List.map_append, List.map_cons, List.map_nil, List.mem_append,
        List.mem_singleton] at member
      simp only [Kernel.carried, List.mem_append]
      rcases member with old | (old | rfl) | old | old | old | rfl
      · exact .inl ⟨pcb, .inl (inReady pcb (.inr old)), pcb.state, rfl⟩
      · exact .inl ⟨pcb, .inr (.inl old), pcb.state, rfl⟩
      · exact .inl ⟨process, .inl (inReady process (.inl rfl)), .execution, rfl⟩
      · exact .inl ⟨pcb, .inr (.inr (.inl old)), pcb.state, rfl⟩
      · exact .inl ⟨pcb, .inr (.inr (.inr (.inl old))), pcb.state, rfl⟩
      · exact .inl ⟨pcb, .inr (.inr (.inr (.inr old))), pcb.state, rfl⟩
      · exact .inl ⟨process, .inl (inReady process (.inl rfl)), .execution, rfl⟩
  | executes _ _ _ _ process rest head result =>
      subst result
      refine .inl ⟨pcb, ?_, pcb.state, rfl⟩
      refine Kernel.carried_subset ?_ ?_ ?_ ?_ ?connection member
      case connection =>
        rw [head]
        exact List.subset_cons_self _ _
      all_goals exact List.Subset.refl _
  | handles message rest kernel head effect result =>
      subst result
      rcases Kernel.copy_of_dispatchEffect shape effect member with old | leaves
      · exact .inl old
      · exact .inr (.inl ⟨message, by simp [head], rfl, leaves⟩)
  | sleepStarts index thread at_index starting result =>
      subst result
      refine .inl ⟨pcb, ?_, pcb.state, rfl⟩
      refine Kernel.carried_subset ?_ ?exec ?_ ?sleeping ?_ member
      case exec => exact fun _ => List.mem_of_mem_tail
      case sleeping =>
        rw [map_process_set at_index]
        exact List.Subset.refl _
      all_goals exact List.Subset.refl _
  | sleepEnds index thread at_index sleeping result =>
      subst result
      have inThreads : thread ∈ system.kernel.sleepThreads := List.mem_of_getElem? at_index
      simp only [Kernel.carried, Kernel.sleepThreadStep, sleeping, Kernel.queuePush,
        Kernel.semPost_fields, Kernel.setQueue_ready, Kernel.setQueue_fields, Kernel.queue_ready,
        List.mem_append, List.mem_singleton, List.mem_map] at member ⊢
      rcases member with (old | rfl) | old | old | ⟨other, inErased, rfl⟩ | old
      · exact .inl ⟨pcb, .inl old, pcb.state, rfl⟩
      · exact .inr (.inr (.inr ⟨thread, inThreads, rfl⟩))
      · exact .inl ⟨pcb, .inr (.inl old), pcb.state, rfl⟩
      · exact .inl ⟨pcb, .inr (.inr (.inl old)), pcb.state, rfl⟩
      · exact .inl ⟨other.process,
          .inr (.inr (.inr (.inl ⟨other, List.mem_of_mem_eraseIdx inErased, rfl⟩))),
          other.process.state, rfl⟩
      · exact .inl ⟨pcb, .inr (.inr (.inr (.inr old))), pcb.state, rfl⟩

/-- Only an admission brings a pid out of `queue_new` and only a message brings one from the CPU; all
    other steps move pids that the kernel had outside `queue_new` already. -/
theorem StepEffect.carriedKernel {event : Event} {pcb : Pcb} (shape : system.kernel.Shape config)
    (effect : StepEffect config system next event) (member : pcb ∈ next.kernel.carried) :
    (∃ old ∈ system.kernel.carried, old.pid = pcb.pid) ∨
      (∃ message ∈ system.cpuMessages.head?, event = .handleDispatch ∧
        message.pcb.pid = pcb.pid) ∨
      ∃ process rest, Admits system next process rest ∧ process.pid = pcb.pid := by
  rcases effect.copyKernel shape member with
    ⟨old, inOld, state, rfl⟩ | ⟨message, atHead, handles, leaves⟩ | ⟨process, rest, admits, rfl⟩ |
      ⟨thread, inThreads, rfl⟩
  · exact .inl ⟨old, inOld, rfl⟩
  · exact .inr (.inl ⟨message, atHead, handles, leaves.pid⟩)
  · exact .inr (.inr ⟨process, rest, admits, rfl⟩)
  · refine .inl ⟨thread.process, ?_, rfl⟩
    simp only [Kernel.carried, List.mem_append]
    exact .inr (.inr (.inr (.inl (List.mem_map_of_mem inThreads))))

/-- A message is new only when the CPU sends it, about the first process it was sent. -/
theorem StepEffect.cpuMessages {event : Event} {message : Message}
    (effect : StepEffect config system next event) (member : message ∈ next.cpuMessages) :
    message ∈ system.cpuMessages ∨
      ∃ sent ∈ system.kernel.cpuDispatchConnection, sent.2.pid = message.pcb.pid := by
  cases effect with
  | plans _ quiet => exact .inl (quiet.cpuMessages ▸ member)
  | admits _ _ admits => exact .inl (admits.cpuMessages ▸ member)
  | dispatches _ _ dispatches => exact .inl (dispatches.cpuMessages ▸ member)
  | executes _ _ _ header process rest head result =>
      subst result
      rcases List.mem_append.mp member with old | new
      · exact .inl old
      · refine .inr ⟨(header, process), by simp [head], ?_⟩
        rw [List.mem_singleton.mp new]
  | handles _ _ _ head _ result =>
      subst result
      exact .inl (by rw [head]; exact List.mem_cons_of_mem _ member)
  | creates _ _ _ result => subst result; exact .inl member
  | finishes _ _ _ result => subst result; exact .inl member
  | modifies _ result => subst result; exact .inl member
  | sleepStarts _ _ _ _ result => subst result; exact .inl member
  | sleepEnds _ _ _ _ result => subst result; exact .inl member

/-- Over the whole system, only an admission brings a pid out of `queue_new`. -/
theorem StepEffect.carried {event : Event} {pcb : Pcb} (shape : system.kernel.Shape config)
    (effect : StepEffect config system next event) (member : pcb ∈ next.carried) :
    (∃ old ∈ system.carried, old.pid = pcb.pid) ∨
      ∃ process rest, Admits system next process rest ∧ process.pid = pcb.pid := by
  rcases List.mem_append.mp member with inKernel | inMessages
  · rcases effect.carriedKernel shape inKernel with
      ⟨old, inOld, same⟩ | ⟨message, atHead, _, same⟩ | admitted
    · exact .inl ⟨old, List.mem_append_left _ inOld, same⟩
    · exact .inl ⟨message.pcb, List.mem_append_right _
        (List.mem_map_of_mem (List.mem_of_mem_head? atHead)), same⟩
    · exact .inr admitted
  · obtain ⟨message, inNext, rfl⟩ := List.mem_map.mp inMessages
    rcases effect.cpuMessages inNext with old | ⟨sent, inConnection, same⟩
    · exact .inl ⟨message.pcb, List.mem_append_right _ (List.mem_map_of_mem old), rfl⟩
    · refine .inl ⟨sent.2, List.mem_append_left _ ?_, same⟩
      simp only [Kernel.carried, List.mem_append]
      exact .inr (.inr (.inr (.inr (List.mem_map_of_mem inConnection))))

/-! ### Every pid was created -/

/-- If the step creates a process, the pid it takes was never given before. -/
def CreatesFresh (system : System) : Event → Prop
  | .createProcess .. => system.kernel.idToAssign ∉ system.kernel.created
  | _ => True

instance (system : System) : ∀ event, Decidable (system.CreatesFresh event)
  | .createProcess .. => inferInstanceAs (Decidable (_ ∉ _))
  | .finishProcess _ | .startPlanning | .stopPlanning | .modifyMultiprogrammingDegree _
  | .longTermPlanner | .shortTermPlanner | .cpuExecute .. | .cpuReadInterrupt | .handleDispatch
  | .sleepThread _ => isTrue trivial

/-- No step forgets that a process was created. -/
theorem StepEffect.created_mono {event : Event} (effect : StepEffect config system next event)
    {pid : UInt32} (member : pid ∈ system.kernel.created) : pid ∈ next.kernel.created := by
  rcases effect.created with same | ⟨_, _, _, _, more⟩
  · rwa [same]
  · rw [more]
    exact List.mem_cons_of_mem _ member

/-- Every pid in the system was given to a created process. -/
structure KnowsPids (config : KernelConfig) (system : System) : Prop where
  shape : system.kernel.Shape config
  queueNew : ∀ process ∈ system.kernel.queueNew, process.pid ∈ system.kernel.created
  carried : ∀ pcb ∈ system.carried, pcb.pid ∈ system.kernel.created

theorem KnowsPids.init (config : KernelConfig) : KnowsPids config (System.init config) where
  shape := .init config
  queueNew := by simp [System.init, Kernel.init]
  carried := by simp [System.init, Kernel.init, System.carried, Kernel.carried]

theorem KnowsPids.step {event : Event} (knows : KnowsPids config system)
    (taken : system.step config event = some next) : KnowsPids config next := by
  have effect := step_cases taken
  refine ⟨effect.shape knows.shape, ?_, ?_⟩
  · intro process member
    rcases effect.queueNew member with old | ⟨path, quantum, clientSocket, rfl, rfl⟩
    · exact effect.created_mono (knows.queueNew process old)
    · obtain rfl := (Option.some.inj taken).symm
      rw [Kernel.created_receivePcbAndCreate]
      exact List.mem_cons_self
  · intro pcb member
    rcases effect.carried knows.shape member with
      ⟨old, inOld, same⟩ | ⟨process, rest, admits, same⟩
    · rw [← same]
      exact effect.created_mono (knows.carried old inOld)
    · rw [← same]
      exact effect.created_mono (knows.queueNew process (by simp [admits.head]))

end System

/-! ### A run to start from -/

/-- One resource with one instance, two slots, FIFO. -/
def fifoConfig : KernelConfig where
  planningAlgorithm := "FIFO"
  resources := [("REC1", 1)]
  multiprogrammingDegree := 2
  priority _ := 0

/-- Two processes are created and admitted, and the first one is dispatched. -/
def dispatchFirst : List Event :=
  [.createProcess "A" 0 5, .createProcess "B" 0 5, .startPlanning,
    .longTermPlanner, .longTermPlanner, .longTermPlanner,
    .longTermPlanner, .longTermPlanner, .longTermPlanner,
    .shortTermPlanner, .shortTermPlanner, .shortTermPlanner]

/-- The three segments of one iteration of the short-term planner. -/
def dispatchNext : List Event := [.shortTermPlanner, .shortTermPlanner, .shortTermPlanner]

end OsSimulator
