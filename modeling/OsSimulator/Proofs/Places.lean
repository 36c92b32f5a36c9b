/-
Module: OsSimulator.Proofs.Places
Purpose: When every process is in exactly one place.  The entry in `queue_exec` mirrors the copy that
  the CPU or a sleep thread that has just been created holds; as long as the two go together, what
  the handlers pop is the process they handle.
Main exports: Kernel.places, System.PopsOwn, System.KeepsPlaces, System.Placed,
  run_keeps_places, run_sleepers_swapped
-/
import OsSimulator.Kernel.ThreadArguments
import OsSimulator.Proofs.States
import OsSimulator.Proofs.Tokens

namespace OsSimulator

open Transition

/-- The weight of a pid in a queue is the number of times it occurs. -/
theorem weigh_pidWeight (pid : UInt32) (list : List Pcb) :
    weigh (pidWeight pid) list = (list.map Pcb.pid).count pid := by
  induction list with
  | nil => rfl
  | cons process rest ih =>
      rw [weigh_cons, List.map_cons, List.count_cons, ih, pidWeight]
      simp only [beq_iff_eq]
      omega

namespace CpuRequest

/-- The handler pops `queue_exec`: an INTERRUPT, or a WAIT that blocks. -/
def Pops (kernel : Kernel) : CpuRequest → Prop
  | .interrupt => True
  | .wait resource => (CpuRequest.wait resource).BlocksOnWait kernel
  | .finish | .signal _ | .sleep _ => False

/-- The handler starts a sleep thread. -/
def StartsSleep : CpuRequest → Prop
  | .sleep _ => True
  | .finish | .interrupt | .wait _ | .signal _ => False

instance (kernel : Kernel) : ∀ request : CpuRequest, Decidable (request.Pops kernel)
  | .interrupt => isTrue trivial
  | .wait resource => inferInstanceAs (Decidable ((CpuRequest.wait resource).BlocksOnWait kernel))
  | .finish | .signal _ | .sleep _ => isFalse id

instance : ∀ request : CpuRequest, Decidable request.StartsSleep
  | .sleep _ => isTrue trivial
  | .finish | .interrupt | .wait _ | .signal _ => isFalse id

end CpuRequest

namespace Kernel

/-- The sleep threads that have still to take their process off `queue_exec`, the oldest first. -/
def starting (kernel : Kernel) : List SleepThread :=
  kernel.sleepThreads.filter fun thread => thread.phase = .starting

/-- The processes of the sleep threads that have taken theirs off `queue_exec`. -/
def asleep (kernel : Kernel) : List Pcb :=
  (kernel.sleepThreads.filter fun thread => thread.phase = .sleeping).map SleepThread.process

/-- The pids of the threads of `starting`. -/
def startingPids (kernel : Kernel) : List UInt32 :=
  kernel.starting.map fun thread => thread.process.pid

/-- In how many places a process is: entries of queues, and sleep threads that have taken it off
    `queue_exec`. -/
def places (kernel : Kernel) (pid : UInt32) : Nat :=
  weigh (pidWeight pid) kernel.queueNew + weigh (pidWeight pid) kernel.queueReady +
    weigh (pidWeight pid) kernel.queueExec + weighAll (pidWeight pid) kernel.listOfQueueBlocked +
    weigh (pidWeight pid) kernel.asleep

/-- The copies of a process that are neither in `queue_exec` nor on their way to the CPU. -/
def stays (kernel : Kernel) (pid : UInt32) : Nat :=
  weigh (pidWeight pid) kernel.queueNew + weigh (pidWeight pid) kernel.queueReady +
    weighAll (pidWeight pid) kernel.listOfQueueBlocked +
    weigh (pidWeight pid) (kernel.sleepThreads.map SleepThread.process)

theorem tokens_eq_stays (kernel : Kernel) (pid : UInt32) :
    kernel.tokens pid = kernel.stays pid +
      weigh (pidWeight pid) (kernel.cpuDispatchConnection.map Prod.snd) := rfl

end Kernel

namespace System

/-- The live processes that the CPU holds. -/
def cpuLive (system : System) : List UInt32 :=
  (system.cpuHolds.map Pcb.pid).filter fun pid => system.kernel.Live pid

/-- What is popped from `queue_exec` in the handling of a message, or of a SLEEP by its thread, is
    the entry of the process that it is about. -/
def PopsOwn (system : System) : Event → Prop
  | .handleDispatch =>
      ∀ message ∈ system.cpuMessages.head?, message.request.Pops system.kernel →
        (system.kernel.queueExec.head?).map Pcb.pid = some message.pcb.pid
  | .sleepThread index =>
      ∀ thread ∈ system.kernel.sleepThreads[index]?, thread.phase = .starting →
        (system.kernel.queueExec.head?).map Pcb.pid = some thread.process.pid
  | _ => True

/-- The pid is fresh; the console spares a process that is going to sleep; a message that takes its
    process off the CPU is about a live one, and pops `queue_exec` only when no sleep thread has
    still to do so; and the sleep threads do it in the order in which they were created. -/
def KeepsPlaces (system : System) : Event → Prop
  | .createProcess .. => system.kernel.idToAssign ∉ system.kernel.created
  | .finishProcess pid => pid ∉ system.kernel.startingPids
  | .handleDispatch =>
      ∀ message ∈ system.cpuMessages.head?,
        (message.request.Pops system.kernel →
            system.kernel.Live message.pcb.pid ∧ system.kernel.starting = []) ∧
          (message.request.StartsSleep → system.kernel.Live message.pcb.pid)
  | .sleepThread index =>
      ∀ thread ∈ system.kernel.sleepThreads[index]?, thread.phase = .starting →
        ∀ earlier ∈ system.kernel.sleepThreads.take index, earlier.phase ≠ .starting
  | _ => True

instance (system : System) : ∀ event, Decidable (system.KeepsPlaces event)
  | .createProcess .. => inferInstanceAs (Decidable (_ ∉ _))
  | .finishProcess _ => inferInstanceAs (Decidable (_ ∉ _))
  | .handleDispatch =>
      inferInstanceAs (Decidable (∀ message ∈ system.cpuMessages.head?,
        (message.request.Pops system.kernel →
            system.kernel.Live message.pcb.pid ∧ system.kernel.starting = []) ∧
          (message.request.StartsSleep → system.kernel.Live message.pcb.pid)))
  | .sleepThread index =>
      inferInstanceAs (Decidable (∀ thread ∈ system.kernel.sleepThreads[index]?,
        thread.phase = .starting →
          ∀ earlier ∈ system.kernel.sleepThreads.take index, earlier.phase ≠ .starting))
  | .startPlanning | .stopPlanning | .modifyMultiprogrammingDegree _ | .longTermPlanner
  | .shortTermPlanner | .cpuExecute .. | .cpuReadInterrupt => isTrue trivial

theorem KeepsPlaces.createsFresh {system : System} {event : Event}
    (keeps : system.KeepsPlaces event) : system.CreatesFresh event := by
  cases event <;> first | exact keeps | trivial

/-- How the copies of a process go together: each live process has one besides the entry of
    `queue_exec`, a process that is not live has none outside the CPU, and `queue_exec` lists the
    starting sleep threads and then the process of the CPU. -/
structure Mirrored (system : System) : Prop where
  present : ∀ pid, system.kernel.Live pid → 1 ≤ system.tokens pid
  absent : ∀ pid, ¬ system.kernel.Live pid → system.kernel.stays pid = 0
  finished : ∀ pid ∈ system.kernel.finished, pid ∈ system.kernel.created
  exec : system.kernel.queueExec.map Pcb.pid = system.kernel.startingPids ++ system.cpuLive
  cpu : system.kernel.sem .cpuAvailable + system.cpuLive.length = 1

/-- What holds along the runs that keep the places. -/
structure Placed (config : KernelConfig) (system : System) : Prop
    extends KnowsPids config system, system.kernel.StatesMatch, system.Mirrored where
  once : ∀ pid, system.tokens pid ≤ 1

end System

/-! ### What the invariant says about the places -/

namespace System

variable {config : KernelConfig} {system next : System}

theorem tokens_eq_stays (system : System) (pid : UInt32) :
    system.tokens pid = system.kernel.stays pid + weigh (pidWeight pid) system.cpuHolds := by
  simp only [System.tokens, Kernel.tokens_eq_stays, cpuHolds, weigh_append]
  omega

/-- A live process that the CPU holds is the only one. -/
theorem Placed.cpuLive_eq (placed : Placed config system) {pid : UInt32}
    (live : system.kernel.Live pid) (holds : pid ∈ system.cpuHolds.map Pcb.pid) :
    system.cpuLive = [pid] := by
  have member : pid ∈ system.cpuLive := List.mem_filter.mpr ⟨holds, by simpa using live⟩
  have atMostOne : system.cpuLive.length ≤ 1 := by
    have cpu := placed.cpu
    omega
  cases held : system.cpuLive with
  | nil => simp [held] at member
  | cons first others =>
      obtain rfl : others = [] := by
        apply List.eq_nil_of_length_eq_zero
        rw [held, List.length_cons] at atMostOne
        omega
      simpa [held, eq_comm] using member

/-- The sleep threads are the starting ones and the others. -/
theorem weigh_sleepThreads (pid : UInt32) (threads : List SleepThread) :
    weigh (pidWeight pid) (threads.map SleepThread.process) =
      ((threads.filter fun thread => thread.phase = .starting).map
          fun thread => thread.process.pid).count pid +
        weigh (pidWeight pid)
          ((threads.filter fun thread => thread.phase = .sleeping).map SleepThread.process) := by
  induction threads with
  | nil => rfl
  | cons thread rest ih =>
      rw [List.map_cons, weigh_cons, ih]
      cases phase : thread.phase with
      | starting =>
          simp only [List.filter_cons, phase, decide_true, if_true, List.map_cons,
            List.count_cons, pidWeight, beq_iff_eq, reduceCtorEq, decide_false,
            Bool.false_eq_true, if_false]
          omega
      | sleeping =>
          simp only [List.filter_cons, phase, decide_true, if_true, List.map_cons, weigh_cons,
            reduceCtorEq, decide_false, Bool.false_eq_true, if_false]
          omega

/-- Each live process is in exactly one place. -/
theorem Placed.places_eq_one (placed : Placed config system) {pid : UInt32}
    (live : system.kernel.Live pid) : system.kernel.places pid = 1 := by
  have once := placed.once pid
  have present := placed.present pid live
  have executing : weigh (pidWeight pid) system.kernel.queueExec =
      system.kernel.startingPids.count pid + weigh (pidWeight pid) system.cpuHolds := by
    rw [weigh_pidWeight, placed.exec, List.count_append, cpuLive, weigh_pidWeight]
    rw [List.count_filter (by simpa using live)]
  have threads := weigh_sleepThreads pid system.kernel.sleepThreads
  rw [tokens_eq_stays] at once present
  simp only [Kernel.stays] at once present
  simp only [Kernel.startingPids, Kernel.starting] at executing
  simp only [Kernel.places, Kernel.asleep]
  omega

/-- The oldest starting thread is the first of them, and the one that leaves when it goes on. -/
theorem starting_set {threads : List SleepThread} {index : Nat} {thread : SleepThread}
    (at_index : threads[index]? = some thread) (starting : thread.phase = .starting)
    (oldest : ∀ earlier ∈ threads.take index, earlier.phase ≠ .starting) :
    threads.filter (fun thread => thread.phase = .starting) =
      thread :: (threads.set index { thread with phase := .sleeping }).filter
        fun thread => thread.phase = .starting := by
  induction threads generalizing index with
  | nil => simp at at_index
  | cons head tail ih =>
      cases index with
      | zero =>
          obtain rfl : head = thread := by simpa using at_index
          simp [starting]
      | succ index =>
          have notFirst : head.phase ≠ .starting := oldest head (by simp)
          have rest := ih (by simpa using at_index)
            fun earlier member => oldest earlier (by simp [member])
          simp [notFirst, rest]

/-- Removing a thread that is asleep leaves the starting ones. -/
theorem starting_eraseIdx {threads : List SleepThread} {index : Nat} {thread : SleepThread}
    (at_index : threads[index]? = some thread) (sleeping : thread.phase = .sleeping) :
    (threads.eraseIdx index).filter (fun thread => thread.phase = .starting) =
      threads.filter fun thread => thread.phase = .starting := by
  induction threads generalizing index with
  | nil => rfl
  | cons head tail ih =>
      cases index with
      | zero =>
          obtain rfl : head = thread := by simpa using at_index
          simp [sleeping]
      | succ index =>
          rw [List.eraseIdx_cons_succ, List.filter_cons, List.filter_cons,
            ih (by simpa using at_index)]

theorem Placed.popsOwn {event : Event} (placed : Placed config system)
    (keeps : system.KeepsPlaces event) : system.PopsOwn event := by
  cases event with
  | handleDispatch =>
      intro message atHead pops
      obtain ⟨live, noneStarting⟩ := (keeps message atHead).1 pops
      have holds : message.pcb.pid ∈ system.cpuHolds.map Pcb.pid := by
        apply List.mem_map_of_mem
        apply List.mem_append_right
        exact List.mem_map_of_mem (List.mem_of_mem_head? atHead)
      have exec := placed.exec
      rw [Kernel.startingPids, noneStarting, placed.cpuLive_eq live holds] at exec
      rw [← List.head?_map, exec]
      rfl
  | sleepThread index =>
      intro thread at_index starting
      have first := starting_set at_index starting (keeps thread at_index starting)
      have exec := placed.exec
      rw [Kernel.startingPids, Kernel.starting, first] at exec
      rw [← List.head?_map, exec]
      rfl
  | _ => trivial

theorem Placed.blocksItself {message : Message} (placed : Placed config system)
    (keeps : system.KeepsPlaces .handleDispatch) (atHead : message ∈ system.cpuMessages.head?) :
    system.kernel.BlocksItself message := by
  intro blocksOnWait process first
  have pops : message.request.Pops system.kernel := by
    cases requested : message.request with
    | wait resource => simpa [CpuRequest.Pops, requested] using blocksOnWait
    | _ => simp [CpuRequest.BlocksOnWait, requested] at blocksOnWait
  have own := placed.popsOwn keeps message atHead pops
  rw [Option.mem_def.mp first] at own
  simpa using own

/-! ### Who is live after a step -/

/-- A step that only moves leaves everybody as live as before. -/
theorem StepEffect.finished_of_onlyMoves {event : Event}
    (effect : StepEffect config system next event) (onlyMoves : event.OnlyMoves) :
    next.kernel.finished = system.kernel.finished := by
  cases effect with
  | creates _ _ _ _ => exact onlyMoves.elim
  | finishes _ _ _ _ => exact onlyMoves.elim
  | handles _ _ _ _ _ _ => exact onlyMoves.elim
  | modifies newDegree result =>
      subst result
      obtain ⟨_, _, _, _, _, _, _, _, _, logged, _⟩ :=
        system.kernel.modifyMultiprogrammingDegree_fields newDegree
      simp [Kernel.finished, logged, KernelEvent.finishedPid?, List.filterMap_cons]
  | plans _ quiet => simp only [Kernel.finished, quiet.trace]
  | admits _ _ admits =>
      simp [Kernel.finished, admits.trace, KernelEvent.finishedPid?, List.filterMap_cons]
  | dispatches _ _ dispatches =>
      simp [Kernel.finished, dispatches.trace, KernelEvent.finishedPid?, List.filterMap_cons]
  | executes _ _ _ _ _ _ _ result => subst result; rfl
  | sleepStarts _ _ _ _ result => subst result; rfl
  | sleepEnds _ thread _ sleeping result =>
      subst result
      simp [Kernel.finished, Kernel.sleepThreadStep, sleeping, Kernel.queuePush]

end System

namespace Kernel

variable {kernel next : Kernel}

/-- A finish that finds the pid ends that process and no other. -/
theorem Finishes.live_iff {pid : UInt32} {middle : Kernel} {id : QueueId} {process : Pcb}
    {woken : List Pcb} (finishes : Finishes pid kernel next id process woken middle)
    (other : UInt32) : next.Live other ↔ kernel.Live other ∧ other ≠ pid := by
  rw [Live, Live, finishes.created, finishes.finished, List.mem_cons]
  tauto

/-- After a creation the new process is live, too. -/
theorem live_receivePcbAndCreate (kernel : Kernel) (path : String) (quantum clientSocket : Int32)
    (fresh : kernel.idToAssign ∉ kernel.finished) (pid : UInt32) :
    (kernel.receivePcbAndCreate path quantum clientSocket).Live pid ↔
      kernel.Live pid ∨ pid = kernel.idToAssign := by
  have finished : (kernel.receivePcbAndCreate path quantum clientSocket).finished =
      kernel.finished := by
    simp [Kernel.finished, receivePcbAndCreate, moveProcessToNew, queuePush, sendToMemory,
      KernelEvent.finishedPid?, List.filterMap_cons]
  rw [Live, Live, created_receivePcbAndCreate, finished, List.mem_cons]
  constructor
  · rintro ⟨rfl | old, notFinished⟩
    · exact .inr rfl
    · exact .inl ⟨old, notFinished⟩
  · rintro (⟨old, notFinished⟩ | rfl)
    · exact ⟨.inr old, notFinished⟩
    · exact ⟨.inl rfl, fresh⟩

/-- A finish takes away the copy it finds, unless it finds the entry of `queue_exec`. -/
theorem Finishes.stays {pid : UInt32} {middle : Kernel} {id : QueueId} {process : Pcb}
    {woken : List Pcb} (finishes : Finishes pid kernel next id process woken middle)
    (other : UInt32) :
    next.stays other + (if id = .exec then 0 else pidWeight other process) =
      kernel.stays other := by
  have moved := finishes.tokens other
  obtain ⟨_, _, _, _, _, _, _, _, connection⟩ := finishes.fields
  simp only [tokens_eq_stays, connection] at moved
  omega

/-- A queue holds new processes, or ones that are carried. -/
theorem Finishes.mem_carried {pid : UInt32} {middle : Kernel} {id : QueueId} {process : Pcb}
    {woken : List Pcb} (finishes : Finishes pid kernel next id process woken middle) :
    process ∈ kernel.queueNew ∨ process ∈ kernel.carried := by
  have member := finishes.mem_queue
  have inBlocked := (findInAllQueues_eq_some finishes.found).2
  simp only [carried, List.mem_append]
  cases id with
  | new => exact .inl member
  | ready => exact .inr (.inl member)
  | exec => exact .inr (.inr (.inl member))
  | blocked index =>
      exact .inr (.inr (.inr (.inl (List.mem_flatten.mpr
        ⟨_, List.mem_of_getElem? (inBlocked index rfl), member⟩))))

/-- The entry that a finish takes out of `queue_exec` is the first one with the pid. -/
theorem Finishes.execPids {pid : UInt32} {middle : Kernel} {id : QueueId} {process : Pcb}
    {woken : List Pcb} (finishes : Finishes pid kernel next id process woken middle) :
    next.queueExec.map Pcb.pid =
      if id = .exec then (kernel.queueExec.map Pcb.pid).erase pid
      else kernel.queueExec.map Pcb.pid := by
  rw [finishes.fields.2.2.1]
  cases id with
  | exec =>
      rw [if_pos rfl, List.erase_eq_eraseP, List.eraseP_map]
      simp [releaseAndRemove, finishes.pid_eq, Function.comp_def, Bool.beq_comm]
  | new | ready | blocked _ => simp [releaseAndRemove]

end Kernel

/-! ### The console finishes a process, or a message does -/

namespace System

variable {config : KernelConfig} {system next : System}

theorem one_le_stays {pid : UInt32} (starting : pid ∈ system.kernel.startingPids) :
    1 ≤ system.kernel.stays pid := by
  obtain ⟨thread, member, rfl⟩ := List.mem_map.mp starting
  have inThreads : thread ∈ system.kernel.sleepThreads := (List.mem_filter.mp member).1
  have weight := one_le_weigh (List.mem_map_of_mem (f := SleepThread.process) inThreads) rfl
  simp only [Kernel.stays]
  omega

theorem one_le_weigh_holds {pid : UInt32} (holds : pid ∈ system.cpuHolds.map Pcb.pid) :
    1 ≤ weigh (pidWeight pid) system.cpuHolds := by
  obtain ⟨pcb, member, rfl⟩ := List.mem_map.mp holds
  exact one_le_weigh member rfl

/-- What the CPU holds is nowhere else. -/
theorem Placed.stays_of_holds (placed : Placed config system) {pid : UInt32}
    (holds : pid ∈ system.cpuHolds.map Pcb.pid) : system.kernel.stays pid = 0 := by
  have once := placed.once pid
  have held := one_le_weigh_holds holds
  rw [tokens_eq_stays] at once
  omega

theorem Placed.not_starting_of_holds (placed : Placed config system) {pid : UInt32}
    (holds : pid ∈ system.cpuHolds.map Pcb.pid) : pid ∉ system.kernel.startingPids := by
  intro starting
  have stays := one_le_stays starting
  have none := placed.stays_of_holds holds
  omega

/-- The messages are the same after a finish, or the one that called for it is gone. -/
def DropsMessage (system : System) (pid : UInt32) (messages : List Message) : Prop :=
  messages = system.cpuMessages ∨
    ∃ message, system.cpuMessages = message :: messages ∧ message.pcb.pid = pid

theorem DropsMessage.weigh_messages {pid other : UInt32} {messages : List Message}
    (drops : system.DropsMessage pid messages) (different : other ≠ pid) :
    weigh (pidWeight other) (messages.map Message.pcb) =
      weigh (pidWeight other) (system.cpuMessages.map Message.pcb) := by
  rcases drops with rfl | ⟨message, dropped, same⟩
  · rfl
  · have nothing : pidWeight other message.pcb = 0 := by
      rw [Kernel.pidWeight_eq_zero, same]
      exact different.symm
    rw [dropped, List.map_cons, weigh_cons, nothing, Nat.zero_add]

/-- The process that is finished is no longer a live one that the CPU holds. -/
theorem cpuLive_finishes {pid : UInt32} {kernel middle : Kernel} {id : QueueId} {process : Pcb}
    {woken : List Pcb} {messages : List Message}
    (finishes : Kernel.Finishes pid system.kernel kernel id process woken middle)
    (drops : system.DropsMessage pid messages) :
    ({ system with kernel := kernel, cpuMessages := messages } : System).cpuLive =
      system.cpuLive.filter fun other => other ≠ pid := by
  obtain ⟨_, _, _, _, _, _, _, _, connection⟩ := finishes.fields
  simp only [cpuLive, cpuHolds, connection, List.filter_filter]
  have live : ∀ other, decide (kernel.Live other) =
      (decide (other ≠ pid) && decide (system.kernel.Live other)) := by
    intro other
    rw [← Bool.decide_and]
    exact decide_eq_decide.mpr ((finishes.live_iff other).trans And.comm)
  simp only [live]
  rcases drops with rfl | ⟨message, dropped, rfl⟩
  · rfl
  · simp [dropped]

/-- A process that is found while no thread has still to take it off `queue_exec` is found there
    exactly if the CPU holds it. -/
theorem Placed.found_exec_iff (placed : Placed config system) {pid : UInt32}
    {kernel middle : Kernel} {id : QueueId} {process : Pcb} {woken : List Pcb}
    (notStarting : pid ∉ system.kernel.startingPids)
    (finishes : Kernel.Finishes pid system.kernel kernel id process woken middle) :
    id = .exec ↔ pid ∈ system.cpuLive := by
  constructor
  · rintro rfl
    have inExec : pid ∈ system.kernel.queueExec.map Pcb.pid :=
      finishes.pid_eq ▸ List.mem_map_of_mem finishes.mem_queue
    rw [placed.exec] at inExec
    exact (List.mem_append.mp inExec).resolve_left notStarting
  · intro live
    by_contra elsewhere
    have stays := finishes.stays pid
    have one : pidWeight pid process = 1 := by simp [pidWeight, finishes.pid_eq]
    have none := placed.stays_of_holds (List.mem_filter.mp live).1
    rw [if_neg elsewhere] at stays
    omega

/-- If it is found there, it is all that the CPU holds of the live processes. -/
theorem Placed.cpuLive_of_found_exec (placed : Placed config system) {pid : UInt32}
    {kernel middle : Kernel} {process : Pcb} {woken : List Pcb}
    (notStarting : pid ∉ system.kernel.startingPids)
    (finishes : Kernel.Finishes pid system.kernel kernel .exec process woken middle) :
    system.cpuLive = [pid] := by
  have held := (placed.found_exec_iff notStarting finishes).mp rfl
  obtain ⟨holds, live⟩ := List.mem_filter.mp held
  exact placed.cpuLive_eq (by simpa using live) holds

/-- If it is found elsewhere, the CPU does not hold it. -/
theorem Placed.cpuLive_filter_of_found (placed : Placed config system) {pid : UInt32}
    {kernel middle : Kernel} {id : QueueId} {process : Pcb} {woken : List Pcb}
    (notStarting : pid ∉ system.kernel.startingPids)
    (finishes : Kernel.Finishes pid system.kernel kernel id process woken middle)
    (elsewhere : id ≠ .exec) :
    system.cpuLive.filter (fun other => other ≠ pid) = system.cpuLive := by
  apply List.filter_eq_self.mpr
  intro other member
  have different : other ≠ pid := by
    rintro rfl
    exact elsewhere ((placed.found_exec_iff notStarting finishes).mpr member)
  simpa using different

/-- Both ways of finishing keep what the places rest on. -/
theorem Placed.finishes (placed : Placed config system) {pid : UInt32} {kernel middle : Kernel}
    {id : QueueId} {process : Pcb} {woken : List Pcb} {messages : List Message}
    (notStarting : pid ∉ system.kernel.startingPids)
    (finishes : Kernel.Finishes pid system.kernel kernel id process woken middle)
    (drops : system.DropsMessage pid messages) :
    ({ system with kernel := kernel, cpuMessages := messages } : System).Mirrored := by
  have isExec := placed.found_exec_iff notStarting finishes
  have one : pidWeight pid process = 1 := by simp [pidWeight, finishes.pid_eq]
  obtain ⟨_, _, _, _, _, _, _, sleeping, connection⟩ := finishes.fields
  refine ⟨?_, ?_, ?_, ?_, ?_⟩
  · intro other live
    obtain ⟨wasLive, different⟩ := (finishes.live_iff other).mp live
    have present := placed.present other wasLive
    have notFound : pidWeight other process = 0 := by
      rw [Kernel.pidWeight_eq_zero, finishes.pid_eq]
      exact different.symm
    have moved := finishes.tokens other
    simp only [System.tokens, drops.weigh_messages different] at present ⊢
    rw [notFound, ite_self, Nat.add_zero] at moved
    omega
  · intro other notLive
    change kernel.stays other = 0
    have moved := finishes.stays other
    by_cases same : other = pid
    · subst same
      by_cases executing : id = .exec
      · have none := placed.stays_of_holds (List.mem_filter.mp (isExec.mp executing)).1
        omega
      · have once := placed.once other
        rw [tokens_eq_stays] at once
        rw [if_neg executing, one] at moved
        omega
    · have wasNotLive : ¬ system.kernel.Live other := fun wasLive =>
        notLive ((finishes.live_iff other).mpr ⟨wasLive, same⟩)
      have none := placed.absent other wasNotLive
      omega
  · intro other member
    rw [finishes.finished] at member
    rw [finishes.created]
    rcases List.mem_cons.mp member with rfl | old
    · rw [← finishes.pid_eq]
      rcases finishes.mem_carried with inNew | inKernel
      · exact placed.queueNew process inNew
      · exact placed.carried process (List.mem_append_left _ inKernel)
    · exact placed.finished other old
  · rw [finishes.execPids, cpuLive_finishes finishes drops, placed.exec]
    have starting : kernel.startingPids = system.kernel.startingPids := by
      simp only [Kernel.startingPids, Kernel.starting, sleeping]
    rw [starting]
    by_cases executing : id = .exec
    · subst executing
      rw [if_pos rfl, placed.cpuLive_of_found_exec notStarting finishes,
        List.erase_append_right _ notStarting]
      simp
    · rw [if_neg executing, placed.cpuLive_filter_of_found notStarting finishes executing]
  · have sem := finishes.sem .cpuAvailable
    have state := placed.state_of_mem finishes.mem_queue
    have cpu := placed.cpu
    rw [cpuLive_finishes finishes drops]
    change kernel.sem .cpuAvailable + _ = 1
    by_cases executing : id = .exec
    · subst executing
      have only := placed.cpuLive_of_found_exec notStarting finishes
      simp [state, QueueId.state, Kernel.finishWaits, Kernel.finishPosts] at sem
      simp [only] at cpu ⊢
      omega
    · rw [placed.cpuLive_filter_of_found notStarting finishes executing]
      cases id with
      | exec => exact absurd rfl executing
      | new | ready | blocked _ =>
          simp [state, QueueId.state, Kernel.finishWaits, Kernel.finishPosts] at sem
          omega

/-- A process that is looked for in vain, in the name of a message, is not live. -/
theorem Placed.not_live_of_missing (placed : Placed config system) {pid : UInt32}
    (missing : system.kernel.findInAllQueues pid = none)
    (holds : pid ∈ system.cpuHolds.map Pcb.pid) : ¬ system.kernel.Live pid := by
  intro live
  have inExec : pid ∈ system.kernel.queueExec.map Pcb.pid := by
    rw [placed.exec, placed.cpuLive_eq live holds]
    exact List.mem_append_right _ List.mem_cons_self
  obtain ⟨process, member, same⟩ := List.mem_map.mp inExec
  have queued := Kernel.pid_ne_of_weighQueues (Kernel.findInAllQueues_eq_none missing)
  exact queued.2.2.1 process member same

/-- Looking for a process in vain keeps what the places rest on. -/
theorem Placed.missing (placed : Placed config system) {pid : UInt32} {messages : List Message}
    (missing : system.kernel.findInAllQueues pid = none)
    (drops : system.DropsMessage pid messages) :
    ({ system with
      kernel := system.kernel.log (.notFound pid)
      cpuMessages := messages } : System).Mirrored := by
  have live : ∀ other, (system.kernel.log (.notFound pid)).Live other ↔
      system.kernel.Live other := fun other => Iff.rfl
  rcases drops with rfl | ⟨message, dropped, same⟩
  · exact ⟨placed.present, placed.absent, placed.finished, placed.exec, placed.cpu⟩
  · have holds : pid ∈ system.cpuHolds.map Pcb.pid := by
      rw [← same]
      apply List.mem_map_of_mem
      apply List.mem_append_right
      simp [dropped]
    have notLive := placed.not_live_of_missing missing holds
    have cpuLive : ({ system with
        kernel := system.kernel.log (.notFound pid)
        cpuMessages := messages } : System).cpuLive = system.cpuLive := by
      simp [System.cpuLive, cpuHolds, dropped, same, live, notLive]
    refine ⟨?_, placed.absent, placed.finished, ?_, ?_⟩
    · intro other wasLive
      have different : other ≠ pid := fun isPid => notLive (isPid ▸ wasLive)
      have present := placed.present other wasLive
      have drops : system.DropsMessage pid messages := .inr ⟨message, dropped, same⟩
      rw [System.tokens, ← drops.weigh_messages different] at present
      exact present
    · rw [cpuLive]
      exact placed.exec
    · rw [cpuLive]
      exact placed.cpu

theorem Placed.finishProcess (placed : Placed config system) {pid : UInt32} {kernel : Kernel}
    {messages : List Message} (notStarting : pid ∉ system.kernel.startingPids)
    (finished : system.kernel.finishProcess pid = some kernel)
    (drops : system.DropsMessage pid messages) :
    ({ system with kernel := kernel, cpuMessages := messages } : System).Mirrored := by
  rcases Kernel.finishProcess_cases finished with
    ⟨missing, rfl⟩ | ⟨id, process, woken, middle, finishes⟩
  · exact placed.missing missing drops
  · exact placed.finishes notStarting finishes drops

/-! ### The other steps -/

theorem live_congr (created : next.kernel.created = system.kernel.created)
    (finished : next.kernel.finished = system.kernel.finished) (pid : UInt32) :
    next.kernel.Live pid ↔ system.kernel.Live pid := by
  rw [Kernel.Live, Kernel.Live, created, finished]

theorem cpuLive_perm (created : next.kernel.created = system.kernel.created)
    (finished : next.kernel.finished = system.kernel.finished) {others : List UInt32}
    (holds : (next.cpuHolds.map Pcb.pid).Perm others) :
    next.cpuLive.Perm (others.filter fun pid => system.kernel.Live pid) := by
  have live := live_congr created finished
  simp only [cpuLive, live]
  exact holds.filter _

/-- A step that creates and finishes nothing and moves copies, those of processes that are not live
    neither to the CPU nor off it. -/
theorem Mirrored.copies (mirrored : system.Mirrored)
    (tokens : ∀ pid, next.tokens pid = system.tokens pid)
    (created : next.kernel.created = system.kernel.created)
    (finished : next.kernel.finished = system.kernel.finished)
    (holds : ∀ pid, ¬ system.kernel.Live pid →
      (next.cpuHolds.map Pcb.pid).count pid = (system.cpuHolds.map Pcb.pid).count pid) :
    (∀ pid, next.kernel.Live pid → 1 ≤ next.tokens pid) ∧
      (∀ pid, ¬ next.kernel.Live pid → next.kernel.stays pid = 0) ∧
      ∀ pid ∈ next.kernel.finished, pid ∈ next.kernel.created := by
  have live := live_congr created finished
  refine ⟨?_, ?_, ?_⟩
  · intro pid isLive
    rw [tokens]
    exact mirrored.present pid ((live pid).mp isLive)
  · intro pid notLive
    have wasNotLive : ¬ system.kernel.Live pid := fun wasLive => notLive ((live pid).mpr wasLive)
    have stayed := mirrored.absent pid wasNotLive
    have moved := tokens pid
    rw [tokens_eq_stays, tokens_eq_stays, weigh_pidWeight, weigh_pidWeight,
      holds pid wasNotLive] at moved
    omega
  · rw [created, finished]
    exact mirrored.finished

/-- A step that creates and finishes nothing, moves copies, and leaves the CPU what it holds. -/
theorem Mirrored.congr (mirrored : system.Mirrored)
    (tokens : ∀ pid, next.tokens pid = system.tokens pid)
    (created : next.kernel.created = system.kernel.created)
    (finished : next.kernel.finished = system.kernel.finished)
    (holds : (next.cpuHolds.map Pcb.pid).Perm (system.cpuHolds.map Pcb.pid))
    (exec : next.kernel.queueExec.map Pcb.pid = next.kernel.startingPids ++ system.cpuLive)
    (cpu : next.kernel.sem .cpuAvailable = system.kernel.sem .cpuAvailable) : next.Mirrored := by
  have sameCpu : next.cpuLive = system.cpuLive := by
    have perm : next.cpuLive.Perm system.cpuLive := cpuLive_perm created finished holds
    have atMostOne := mirrored.cpu
    cases held : system.cpuLive with
    | nil => exact (held ▸ perm).eq_nil
    | cons first others =>
        obtain rfl : others = [] := by
          apply List.eq_nil_of_length_eq_zero
          rw [held, List.length_cons] at atMostOne
          omega
        exact List.perm_singleton.mp (held ▸ perm)
  obtain ⟨present, absent, known⟩ :=
    mirrored.copies tokens created finished fun pid _ => holds.count_eq pid
  refine ⟨present, absent, known, ?_, ?_⟩
  · rw [sameCpu]
    exact exec
  · rw [sameCpu, cpu]
    exact mirrored.cpu

/-- A message that takes its live process off the CPU. -/
theorem Placed.leaves (placed : Placed config system) {pid : UInt32}
    (isLive : system.kernel.Live pid)
    (tokens : ∀ other, next.tokens other = system.tokens other)
    (created : next.kernel.created = system.kernel.created)
    (finished : next.kernel.finished = system.kernel.finished)
    (holds : (system.cpuHolds.map Pcb.pid).Perm (pid :: next.cpuHolds.map Pcb.pid))
    (exec : next.kernel.queueExec.map Pcb.pid = next.kernel.startingPids)
    (cpu : next.kernel.sem .cpuAvailable = system.kernel.sem .cpuAvailable + 1) :
    next.Mirrored := by
  have live := live_congr created finished
  have wasHeld : system.cpuLive = [pid] :=
    placed.cpuLive_eq isLive (holds.symm.subset List.mem_cons_self)
  have freed : next.cpuLive = [] := by
    have perm : system.cpuLive.Perm (pid :: next.cpuLive) := by
      have filtered := holds.filter fun other => decide (system.kernel.Live other)
      rw [List.filter_cons, if_pos (by simpa using isLive)] at filtered
      simpa only [cpuLive, live] using filtered
    rw [wasHeld] at perm
    exact ((List.perm_cons pid).mp perm).symm.eq_nil
  have others : ∀ other, ¬ system.kernel.Live other →
      (next.cpuHolds.map Pcb.pid).count other = (system.cpuHolds.map Pcb.pid).count other := by
    intro other notLive
    have different : pid ≠ other := fun same => notLive (same ▸ isLive)
    rw [holds.count_eq, List.count_cons_of_ne different]
  obtain ⟨present, absent, known⟩ := placed.toMirrored.copies tokens created finished others
  refine ⟨present, absent, known, ?_, ?_⟩
  · rw [freed, List.append_nil]
    exact exec
  · have before := placed.cpu
    rw [wasHeld, List.length_singleton] at before
    rw [freed, List.length_nil, cpu]
    omega

/-- A dispatch brings a live process to a CPU that holds none. -/
theorem Placed.dispatches {process : Pcb} {rest : List Pcb} (placed : Placed config system)
    (dispatches : Dispatches system next process rest)
    (tokens : ∀ pid, next.tokens pid = system.tokens pid)
    (created : next.kernel.created = system.kernel.created)
    (finished : next.kernel.finished = system.kernel.finished) : next.Mirrored := by
  have isLive : system.kernel.Live process.pid := by
    by_contra notLive
    have none := placed.absent process.pid notLive
    have inReady := one_le_weigh (dispatches.perm.subset List.mem_cons_self) rfl
    simp only [Kernel.stays] at none
    omega
  have cpu := placed.cpu
  have token := dispatches.semCpu
  have free : system.cpuLive = [] := List.eq_nil_of_length_eq_zero (by omega)
  have holds : (next.cpuHolds.map Pcb.pid).Perm
      (process.pid :: system.cpuHolds.map Pcb.pid) := by
    simp only [cpuHolds, dispatches.cpuDispatchConnection, dispatches.cpuMessages,
      List.map_append, List.map_cons, List.map_nil, List.append_assoc, List.cons_append,
      List.nil_append, Pcb.setState_pid]
    exact List.perm_middle
  have held : next.cpuLive = [process.pid] := by
    have perm := cpuLive_perm created finished holds
    rw [List.filter_cons, if_pos (by simpa using isLive)] at perm
    have others : (system.cpuHolds.map Pcb.pid).filter
        (fun pid => decide (system.kernel.Live pid)) = [] := free
    rw [others] at perm
    exact List.perm_singleton.mp perm
  have others : ∀ other, ¬ system.kernel.Live other →
      (next.cpuHolds.map Pcb.pid).count other = (system.cpuHolds.map Pcb.pid).count other := by
    intro other notLive
    have different : process.pid ≠ other := fun same => notLive (same ▸ isLive)
    rw [holds.count_eq, List.count_cons_of_ne different]
  obtain ⟨present, absent, known⟩ := placed.toMirrored.copies tokens created finished others
  refine ⟨present, absent, known, ?_, ?_⟩
  · have starting : next.kernel.startingPids = system.kernel.startingPids := by
      simp only [Kernel.startingPids, Kernel.starting, dispatches.sleepThreads]
    rw [dispatches.queueExec, List.map_append, placed.exec, free, held, starting]
    simp
  · rw [held, List.length_singleton]
    rw [free, List.length_nil] at cpu
    omega

/-- A creation adds a live process to `queue_new`. -/
theorem Placed.creates {path : String} {quantum clientSocket : Int32}
    (placed : Placed config system) (fresh : system.kernel.idToAssign ∉ system.kernel.created) :
    ({ system with
      kernel := system.kernel.receivePcbAndCreate path quantum clientSocket } :
        System).Mirrored := by
  have notFinished : system.kernel.idToAssign ∉ system.kernel.finished :=
    mt (placed.finished _) fresh
  have live := system.kernel.live_receivePcbAndCreate path quantum clientSocket notFinished
  have tokens : ∀ pid, ({ system with
      kernel := system.kernel.receivePcbAndCreate path quantum clientSocket } : System).tokens pid =
        system.tokens pid + if system.kernel.idToAssign = pid then 1 else 0 :=
    tokens_receivePcbAndCreate path quantum clientSocket
  have holds : ({ system with
      kernel := system.kernel.receivePcbAndCreate path quantum clientSocket } :
        System).cpuHolds = system.cpuHolds := by
    simp [cpuHolds, Kernel.receivePcbAndCreate, Kernel.moveProcessToNew, Kernel.queuePush,
      Kernel.sendToMemory]
  have cpuLive : ({ system with
      kernel := system.kernel.receivePcbAndCreate path quantum clientSocket } :
        System).cpuLive = system.cpuLive := by
    simp only [System.cpuLive, holds]
    apply List.filter_congr
    intro pid member
    obtain ⟨pcb, held, rfl⟩ := List.mem_map.mp member
    have different : pcb.pid ≠ system.kernel.idToAssign := by
      intro same
      apply fresh
      rw [← same]
      apply placed.carried
      simp only [System.carried, Kernel.carried, List.mem_append]
      rcases List.mem_append.mp held with inConnection | inMessages
      · exact .inl (.inr (.inr (.inr (.inr inConnection))))
      · exact .inr inMessages
    simp [live, different]
  refine ⟨?_, ?_, ?_, ?_, ?_⟩
  · intro pid isLive
    rw [tokens]
    rcases (live pid).mp isLive with wasLive | rfl
    · exact Nat.le_add_right_of_le (placed.present pid wasLive)
    · simp
  · intro pid notLive
    have wasNotLive : ¬ system.kernel.Live pid := fun wasLive => notLive ((live pid).mpr (.inl wasLive))
    have different : system.kernel.idToAssign ≠ pid := fun same => notLive ((live pid).mpr (.inr same.symm))
    have stayed := placed.absent pid wasNotLive
    have moved := tokens pid
    rw [tokens_eq_stays, tokens_eq_stays, holds, if_neg different] at moved
    omega
  · intro pid member
    rw [Kernel.created_receivePcbAndCreate]
    apply List.mem_cons_of_mem
    apply placed.finished
    simpa [Kernel.finished, Kernel.receivePcbAndCreate, Kernel.moveProcessToNew,
      Kernel.queuePush, Kernel.sendToMemory, KernelEvent.finishedPid?, List.filterMap_cons]
      using member
  · rw [cpuLive]
    simpa [Kernel.receivePcbAndCreate, Kernel.moveProcessToNew, Kernel.queuePush,
      Kernel.sendToMemory, Kernel.startingPids, Kernel.starting] using placed.exec
  · rw [cpuLive]
    simpa [Kernel.receivePcbAndCreate, Kernel.moveProcessToNew, Kernel.queuePush,
      Kernel.sendToMemory] using placed.cpu

/-- A message is handled: it finishes its process, is answered, or takes its process off the
    CPU. -/
theorem Placed.handles {message : Message} {rest : List Message} {kernel : Kernel}
    (placed : Placed config system) (head : system.cpuMessages = message :: rest)
    (keeps : system.KeepsPlaces .handleDispatch)
    (effect : Kernel.DispatchEffect message system.kernel kernel) :
    ({ system with cpuMessages := rest, kernel := kernel } : System).Mirrored := by
  obtain ⟨pops, sleeps⟩ := keeps message (by simp [head])
  have holds : message.pcb.pid ∈ system.cpuHolds.map Pcb.pid := by
    apply List.mem_map_of_mem
    apply List.mem_append_right
    simp [head]
  by_cases calls : message.request.CallsFinish message.pcb system.kernel
  · have logged : Placed config { system with kernel := system.kernel.log (.received message) } :=
      { placed with shape := placed.shape.congr (by simp) (by simp) (by simp) }
    exact logged.finishProcess (placed.not_starting_of_holds holds)
      (effect.finishProcess_of_callsFinish calls) (.inr ⟨message, head, rfl⟩)
  have blocks := placed.blocksItself keeps (Option.mem_def.mpr (congrArg List.head? head))
  have tokens : ∀ pid,
      ({ system with cpuMessages := rest, kernel := kernel } : System).tokens pid =
        system.tokens pid := by
    intro pid
    have moved := Kernel.tokens_dispatchEffect placed.shape effect calls blocks pid
    simp only [System.tokens, head, List.map_cons, weigh_cons]
    omega
  have created := Kernel.created_dispatchEffect effect
  have finished : kernel.finished = system.kernel.finished := by
    rcases Kernel.finished_dispatchEffect effect with ⟨same, _⟩ | ⟨isCall, _⟩
    · exact same
    · exact absurd isCall calls
  cases effect with
  | finishes isCall _ => exact absurd isCall calls
  | interrupts requested result =>
      obtain ⟨live, noneStarting⟩ := pops (by simp [CpuRequest.Pops, requested])
      have exec := placed.exec
      rw [Kernel.startingPids, noneStarting, placed.cpuLive_eq live holds] at exec
      subst result
      apply placed.leaves live tokens created finished
      · simp [cpuHolds, head, Kernel.handleInterrupt, Kernel.queuePush]
      · have popped : system.kernel.queueExec.tail.map Pcb.pid = [] := by
          rw [List.map_tail, exec]
          rfl
        have starting : ((system.kernel.log (.received message)).handleInterrupt
            message.pcb).startingPids = [] := by
          simpa [Kernel.startingPids, Kernel.starting, Kernel.handleInterrupt, Kernel.queuePush]
            using noneStarting
        rw [starting]
        simpa [Kernel.handleInterrupt, Kernel.queuePush] using popped
      · simp [Kernel.handleInterrupt, Kernel.queuePush]
  | grants resource _ _ _ result =>
      subst result
      apply placed.toMirrored.congr tokens created finished
      · simp [cpuHolds, head, Kernel.removeResourceInstance]
      · simpa [Kernel.removeResourceInstance, Kernel.startingPids, Kernel.starting] using placed.exec
      · simp [Kernel.removeResourceInstance]
  | blocks resource process others requested valid unavailable atHead lines _ result =>
      obtain ⟨live, noneStarting⟩ := pops (by
        simp [CpuRequest.Pops, requested, CpuRequest.BlocksOnWait, valid, unavailable])
      have exec := placed.exec
      rw [Kernel.startingPids, noneStarting, placed.cpuLive_eq live holds, atHead] at exec
      subst result
      apply placed.leaves live tokens created finished
      · simp [cpuHolds, head]
      · have popped : others.map Pcb.pid = [] := (List.cons.inj exec).2
        have starting : ((system.kernel.log (.received message)).pushBlocked process others
            (system.kernel.getQueueBlocked resource)).startingPids = [] := by
          simpa [Kernel.startingPids, Kernel.starting] using noneStarting
        simp only [Kernel.pushBlocked_fields, popped]
        exact starting.symm
      · simp [Kernel.pushBlocked_sem]
  | releases resource _ _ _ result =>
      subst result
      apply placed.toMirrored.congr tokens created finished
      · simp [cpuHolds, head, Kernel.addResourceInstance]
      · simpa [Kernel.addResourceInstance, Kernel.startingPids, Kernel.starting] using placed.exec
      · simp [Kernel.addResourceInstance]
  | sleeps time requested result =>
      have live := sleeps (by simp [CpuRequest.StartsSleep, requested])
      have exec := placed.exec
      rw [placed.cpuLive_eq live holds] at exec
      subst result
      apply placed.leaves live tokens created finished
      · simp [cpuHolds, head, Kernel.handleSleepInterruption]
      · simpa [Kernel.handleSleepInterruption, Kernel.startingPids, Kernel.starting] using exec
      · simp [Kernel.handleSleepInterruption]

/-- The step lemma of the mirror. -/
theorem Placed.mirrored_step {event : Event} (placed : Placed config system)
    (keeps : system.KeepsPlaces event) (taken : system.step config event = some next) :
    next.Mirrored := by
  by_cases onlyMoves : event.OnlyMoves
  · have effect := step_cases taken
    have tokens := effect.tokens onlyMoves
    have finished := effect.finished_of_onlyMoves onlyMoves
    have created : next.kernel.created = system.kernel.created := by
      rcases effect.created with same | ⟨_, _, _, rfl, _⟩
      · exact same
      · exact onlyMoves.elim
    cases effect with
    | creates _ _ _ _ => exact onlyMoves.elim
    | finishes _ _ _ _ => exact onlyMoves.elim
    | handles _ _ _ _ _ _ => exact onlyMoves.elim
    | modifies newDegree result =>
        subst result
        obtain ⟨_, _, exec, _, _, _, _, sleeping, connection, _, _, sem⟩ :=
          system.kernel.modifyMultiprogrammingDegree_fields newDegree
        apply placed.toMirrored.congr tokens created finished
        · simp [cpuHolds, connection]
        · simpa [exec, Kernel.startingPids, Kernel.starting, sleeping] using placed.exec
        · exact sem .cpuAvailable (by simp)
    | plans _ quiet =>
        apply placed.toMirrored.congr tokens created finished
        · simp [cpuHolds, quiet.cpuDispatchConnection, quiet.cpuMessages]
        · simpa [quiet.queueExec, Kernel.startingPids, Kernel.starting, quiet.sleepThreads]
            using placed.exec
        · exact quiet.semCpu
    | admits _ _ admits =>
        apply placed.toMirrored.congr tokens created finished
        · simp [cpuHolds, admits.cpuDispatchConnection, admits.cpuMessages]
        · simpa [admits.queueExec, Kernel.startingPids, Kernel.starting, admits.sleepThreads]
            using placed.exec
        · exact admits.semCpu
    | dispatches _ _ dispatches => exact placed.dispatches dispatches tokens created finished
    | executes request cpuRegister programCounter header process rest head result =>
        subst result
        apply placed.toMirrored.congr tokens created finished
        · simp only [cpuHolds, head, List.map_append, List.map_cons, List.map_nil,
            List.cons_append, ← List.append_assoc]
          exact List.perm_append_singleton _ _
        · exact placed.exec
        · rfl
    | sleepStarts index thread at_index starting result =>
        have first := starting_set at_index starting (keeps thread at_index starting)
        have exec := placed.exec
        rw [Kernel.startingPids, Kernel.starting, first] at exec
        subst result
        apply placed.toMirrored.congr tokens created finished
        · exact List.Perm.refl _
        · simp only [List.map_tail, exec]
          rfl
        · rfl
    | sleepEnds index thread at_index sleeping result =>
        subst result
        apply placed.toMirrored.congr tokens created finished
        · simp [cpuHolds, Kernel.sleepThreadStep, sleeping, Kernel.queuePush]
        · have starting : (system.kernel.sleepThreadStep thread index).startingPids =
              system.kernel.startingPids := by
            simp only [Kernel.startingPids, Kernel.starting, Kernel.sleepThreadStep, sleeping,
              Kernel.queuePush, Kernel.semPost_fields, Kernel.setQueue_fields,
              starting_eraseIdx at_index sleeping]
          rw [starting, ← placed.exec]
          simp [Kernel.sleepThreadStep, sleeping, Kernel.queuePush]
        · simp [Kernel.sleepThreadStep, sleeping, Kernel.queuePush]
  · cases step_cases taken with
    | creates path quantum clientSocket result =>
        subst result
        exact placed.creates keeps
    | finishes pid kernel finished result =>
        subst result
        exact placed.finishProcess keeps finished (.inl rfl)
    | handles message rest kernel head effect result =>
        subst result
        exact placed.handles head keeps effect
    | plans event _ planning => exact absurd planning.onlyMoves onlyMoves
    | _ => exact absurd trivial onlyMoves

/-- Every step keeps the states of the queued PCBs. -/
theorem StepEffect.statesMatch {event : Event} (effect : StepEffect config system next event)
    (shape : system.kernel.Shape config) (states : system.kernel.StatesMatch) :
    next.kernel.StatesMatch := by
  cases effect with
  | creates path quantum clientSocket result =>
      subst result
      exact states.receivePcbAndCreate path quantum clientSocket
  | finishes _ _ finished result =>
      subst result
      exact states.finishProcess finished
  | modifies newDegree result =>
      subst result
      obtain ⟨new, ready, exec, blocked, _⟩ :=
        system.kernel.modifyMultiprogrammingDegree_fields newDegree
      exact states.congr new ready exec blocked
  | plans _ quiet =>
      exact states.congr quiet.queueNew quiet.queueReady quiet.queueExec quiet.listOfQueueBlocked
  | admits process rest admits =>
      apply states.pushReady (Pcb.setState_state process .ready)
      · rw [admits.queueNew, admits.head]
        exact List.subset_cons_self process rest
      · exact admits.queueReady
      · rw [admits.queueExec]
        exact List.Subset.refl _
      · exact admits.listOfQueueBlocked
  | dispatches _ _ dispatches =>
      exact states.dispatch dispatches.perm dispatches.queueNew dispatches.queueReady
        dispatches.queueExec dispatches.listOfQueueBlocked
  | executes _ _ _ _ _ _ _ result =>
      subst result
      exact states.congr rfl rfl rfl rfl
  | handles _ _ _ _ effect result =>
      subst result
      exact states.dispatchEffect shape effect
  | sleepStarts _ _ _ _ result =>
      subst result
      refine ⟨states.stateNew, states.stateReady, ?_, states.stateBlocked⟩
      exact fun process member => states.stateExec process (List.mem_of_mem_tail member)
  | sleepEnds _ thread _ sleeping result =>
      subst result
      have woken : ({ thread.process with
          state := .ready, programCounter := thread.process.programCounter + 1 } : Pcb).state =
            .ready := rfl
      apply states.pushReady woken
      · simp [Kernel.sleepThreadStep, sleeping, Kernel.queuePush]
      · simp [Kernel.sleepThreadStep, sleeping, Kernel.queuePush]
      · simp [Kernel.sleepThreadStep, sleeping, Kernel.queuePush]
      · simp [Kernel.sleepThreadStep, sleeping, Kernel.queuePush]

theorem Placed.init (config : KernelConfig) : Placed config (System.init config) where
  toKnowsPids := .init config
  toStatesMatch := .init config
  present := by simp [System.init, Kernel.init, Kernel.Live, Kernel.created]
  absent := by
    intro pid _
    simp [System.init, Kernel.init, Kernel.stays, weighAll_replicate_nil]
  finished := by simp [System.init, Kernel.init, Kernel.finished]
  exec := rfl
  cpu := rfl
  once := by
    intro pid
    rw [(KnowsPids.init config).tokens_eq_zero (by simp [System.init, Kernel.init, Kernel.created])]
    exact Nat.zero_le 1

/-- Every step that the guard allows keeps the processes in their places. -/
theorem Placed.step {event : Event} (placed : Placed config system)
    (keeps : system.KeepsPlaces event) (taken : system.step config event = some next) :
    Placed config next where
  toKnowsPids := placed.toKnowsPids.step taken
  toStatesMatch := (step_cases taken).statesMatch placed.shape placed.toStatesMatch
  toMirrored := placed.mirrored_step keeps taken
  once := by
    apply tokens_step placed.toKnowsPids placed.once keeps.createsFresh ?_ taken
    rintro rfl message atHead
    exact placed.blocksItself keeps atHead

end System

/-- No process is lost or doubled: in every run that keeps the places, and in which a sleep thread reads its
    arguments while they are what `block_process` stored, each process that was created and is not finished
    is in exactly one place in every state, and every step that takes an entry off `queue_exec` takes that
    of its own process. -/
theorem run_keeps_places (config : KernelConfig) (events : List (FramedEvent Event))
    (keeps : Meets (Framed.step (System.step config))
      (fun framed event =>
        framed.ReadsOwnArguments event ∧ framed.During System.KeepsPlaces event)
      (.start (System.init config)) events) :
    Throughout (Framed.step (System.step config))
        (fun framed => ∀ pid, framed.inner.kernel.Live pid → framed.inner.kernel.places pid = 1)
        (.start (System.init config)) events ∧
      Meets (Framed.step (System.step config)) (Framed.During System.PopsOwn)
        (.start (System.init config)) events := by
  have preserved : ∀ {system event next}, System.Placed config system →
      system.KeepsPlaces event → system.step config event = some next →
      System.Placed config next := fun placed keeps taken => placed.step keeps taken
  constructor
  · have placed := throughout_of_guarded_run (Framed.invariant_step preserved)
      (.init config) keeps
    apply placed.imp
    intro framed isPlaced pid live
    exact System.Placed.places_eq_one isPlaced live
  · refine meets_of_guarded_run (Framed.invariant_step preserved) ?_ (.init config) keeps
    intro framed event placed guarded
    cases event with
    | inner event => exact System.Placed.popsOwn placed guarded.2
    | readArguments _ => trivial
    | reuseFrame _ => trivial

/-- A process that is executed goes to sleep with its first instruction. -/
def sleepFirst : List Event :=
  [.cpuExecute (.sleep 5) [0, 0, 0, 0] 0, .handleDispatch]

/-- The thread of the first process takes it off `queue_exec`; the second process is executed, gets the
    resource and sleeps, too. -/
def secondSleeps : List Event :=
  [.sleepThread 0] ++ dispatchNext ++
    [.cpuExecute (.wait "REC1") [0, 0, 0, 0] 0, .handleDispatch,
      .cpuExecute (.sleep 5) [0, 0, 0, 0] 1, .handleDispatch]

/-- Both wake up, and the console finishes the second process while the first one is executed. -/
def bothWakeUp : List Event :=
  [.sleepThread 1, .sleepThread 0, .sleepThread 0] ++ dispatchNext ++
    [.finishProcess 1, .cpuExecute .finish [0, 0, 0, 0] 1, .handleDispatch]

/-- Two processes sleep, and each thread reads its arguments before the other one is created. -/
def sleepInTurn : List (FramedEvent Event) :=
  (dispatchFirst ++ sleepFirst).map .inner ++ [.readArguments 0, .reuseFrame none] ++
    secondSleeps.map .inner ++ [.readArguments 1] ++ bothWakeUp.map .inner

theorem run_keeps_places_witness :
    (∃ final, run (Framed.step (System.step fifoConfig)) (.start (System.init fifoConfig))
        sleepInTurn = some final) ∧
      Throughout (Framed.step (System.step fifoConfig))
        (fun framed => ∀ pid, framed.inner.kernel.Live pid → framed.inner.kernel.places pid = 1)
        (.start (System.init fifoConfig)) sleepInTurn ∧
      Meets (Framed.step (System.step fifoConfig)) (Framed.During System.PopsOwn)
        (.start (System.init fifoConfig)) sleepInTurn :=
  ⟨⟨_, rfl⟩, run_keeps_places fifoConfig sleepInTurn (by decide +kernel)⟩

/-- Two processes go to sleep one after the other, before the thread of the first one takes it off
    `queue_exec`. -/
def bothGoToSleep : List (FramedEvent Event) :=
  (dispatchFirst ++ sleepFirst).map .inner ++ [.readArguments 0] ++
    (dispatchNext ++ sleepFirst).map .inner ++ [.readArguments 1]

/-- The thread of the second process is the first to take an entry off `queue_exec`: it takes that of the
    first process. -/
theorem run_sleepers_swapped :
    ∃ framed next,
      run (Framed.step (System.step fifoConfig)) (.start (System.init fifoConfig)) bothGoToSleep =
        some framed ∧
      framed.inner.step fifoConfig (.sleepThread 1) = some next ∧
      ¬ framed.During System.PopsOwn (.inner (.sleepThread 1)) ∧
      next.kernel.Live 0 ∧ next.kernel.places 0 = 0 ∧
      next.kernel.Live 1 ∧ next.kernel.places 1 = 2 := by
  refine ⟨_, _, rfl, rfl, ?_, by decide, by decide, by decide, by decide⟩
  intro own
  exact absurd (own _ rfl rfl) (by decide)

/-- Both threads read their arguments after the second process went to sleep. -/
def bothReadLate : List (FramedEvent Event) :=
  (dispatchFirst ++ sleepFirst ++ dispatchNext ++ sleepFirst).map .inner ++
    [.readArguments 0, .readArguments 1, .inner (.sleepThread 0), .inner (.sleepThread 1)]

/-- A thread that reads its arguments late: both threads find those of the second process, and in the end
    the first process is nowhere. -/
theorem run_reads_next_arguments :
    ∃ final, run (Framed.step (System.step fifoConfig)) (.start (System.init fifoConfig)) bothReadLate =
        some final ∧
      final.inner.kernel.Live 0 ∧ final.inner.kernel.places 0 = 0 ∧
      final.inner.kernel.Live 1 ∧ final.inner.kernel.places 1 = 2 :=
  ⟨_, rfl, by decide, by decide, by decide, by decide⟩

end OsSimulator
