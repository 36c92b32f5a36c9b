/-
Module: OsSimulator.Proofs.Slots
Purpose: When the degree of multiprogramming bounds the admitted processes, whatever the threads of the
  kernel are interleaved with.  A slot is at `sem_multiprogramming_degree`, with the long-term planner
  until it pops `queue_new`, or with a process until its `finish_process` gives it back.
Main exports: Booked, Booked.unfinished, Booked.AdmitsBelowDegree, Booked.KeepsSlots,
  run_admits_within_degree, run_admits_above_lowered_degree
-/
import OsSimulator.Concurrent.FramedWorld
import OsSimulator.Lib.Budgets
import OsSimulator.Proofs.Grants
import OsSimulator.Proofs.QueueTokens

namespace OsSimulator

open Threads Transition

/-- The world and what has happened in it: the pids that were created, the processes that were admitted,
    those for which a `finish_process` has stored `EXIT`, those whose slot a `finish_process` has given
    back, the one for which each thread stored `EXIT` last, and the degree last set. -/
structure Booked where
  framed : FramedWorld
  created : List UInt32
  admitted : List UInt32
  finished : List UInt32
  released : List UInt32
  finishing : Nat → Option UInt32
  degree : Int

/-- What a thread has in hand of the degree: the long-term planner the slot it has taken, until it takes a
    process off `queue_new`. -/
def slotBudget : Budget Role Operation where
  initial _ := 0
  gain _
    | .wait semaphore => if semaphore = .multiprogrammingDegree then 1 else 0
    | .pop id => if id = .new then -1 else 0
    | _ => 0

namespace Booked

/-- The world without the sleep threads' arguments. -/
abbrev world (book : Booked) : World := book.framed.world

/-- The beginning. -/
def init (config : KernelConfig) : Booked where
  framed := FramedWorld.init config
  created := []
  admitted := []
  finished := []
  released := []
  finishing _ := none
  degree := config.multiprogrammingDegree

/-- What the operation that the thread at `index` performs adds to the books. -/
def record (book : Booked) (index : Nat) : Operation → Booked
  | .allocate pcb =>
      match book.world.roleAt index with
      | some (.console _) => { book with created := pcb.pid :: book.created }
      | _ => book
  | .pop .new =>
      match book.world.memory.queueNew with
      | [] => book
      | process :: _ =>
          { book with admitted := (book.world.memory.pcb process).pid :: book.admitted }
  | .setState process .exit =>
      let pid := (book.world.memory.pcb process).pid
      { book with
        finished := pid :: book.finished
        finishing := fun other => if other = index then some pid else book.finishing other }
  | .post .multiprogrammingDegree =>
      { book with released := (book.finishing index).toList ++ book.released }
  | .init .multiprogrammingDegree value => { book with degree := value }
  | _ => book

/-- What a step of the world adds to the books.  A negative degree is set, but changes nothing else. -/
def after (book : Booked) : WorldEvent → Booked
  | .advance index =>
      match book.world.pool.nextOp index with
      | some op => book.record index op
      | none => book
  | .command _ (.modifyMultiprogrammingDegree newDegree) =>
      if newDegree < 0 then { book with degree := newDegree.toInt } else book
  | _ => book

/-- A step of the world, and what is added to the books. -/
def step (config : KernelConfig) (book : Booked) (event : FramedWorldEvent) : Option Booked :=
  (book.framed.step config event).map fun next =>
    match event with
    | .world inner => { book.after inner with framed := next }
    | .readArguments _ | .reuseFrame _ => { book with framed := next }

/-- What is said of the steps of the world. -/
def During (guard : Booked → WorldEvent → Prop) (book : Booked) : FramedWorldEvent → Prop
  | .world event => guard book event
  | _ => True

instance (guard : Booked → WorldEvent → Prop) [∀ book event, Decidable (guard book event)]
    (book : Booked) : ∀ event, Decidable (book.During guard event)
  | .world event => inferInstanceAs (Decidable (guard book event))
  | .readArguments _ | .reuseFrame _ => isTrue trivial

/-- The processes that were admitted and have not finished. -/
def unfinished (book : Booked) : List UInt32 :=
  book.admitted.filter fun pid => decide (pid ∉ book.finished)

/-- The processes that hold a slot: they were admitted, and it was not given back. -/
def holders (book : Booked) : List UInt32 :=
  book.admitted.filter fun pid => decide (pid ∉ book.released)

/-- The slots in the hands of the threads. -/
def inHand (book : Booked) : Int := book.world.pool.total (Thread.inHand slotBudget)

/-- If the step takes a process off `queue_new`, to admit it, fewer processes than the degree last set are
    admitted and unfinished. -/
def AdmitsBelowDegree (book : Booked) : WorldEvent → Prop
  | .advance index =>
      book.world.pool.nextOp index = some (.pop .new) → (book.unfinished.length : Int) < book.degree
  | _ => True

/-- The operation is allowed: a pid is fresh; a slot that is given back is one that the process holds; and
    when the degree is set, no process and no thread has a slot. -/
def Allows (book : Booked) (index : Nat) : Operation → Prop
  | .allocate pcb => ∀ command, book.world.roleAt index = some (.console command) →
      pcb.pid ∉ book.created
  | .post semaphore => semaphore = .multiprogrammingDegree →
      ∃ pid ∈ book.finishing index, pid ∈ book.holders
  | .init semaphore _ => semaphore = .multiprogrammingDegree → book.holders = [] ∧ book.inHand = 0
  | _ => True

/-- The step is allowed; and where the degree is set to a negative value, there is no slot at all. -/
def KeepsSlots (book : Booked) : WorldEvent → Prop
  | .advance index => ∀ op ∈ book.world.pool.nextOp index, book.Allows index op
  | .command _ (.modifyMultiprogrammingDegree newDegree) =>
      newDegree < 0 → book.holders = [] ∧ book.inHand = 0 ∧
        book.world.memory.sem .multiprogrammingDegree = 0
  | _ => True

/-- The thread at `index` serves a console. -/
def servesConsole (book : Booked) (index : Nat) : Bool :=
  match book.world.roleAt index with
  | some (.console _) => true
  | _ => false

theorem allows_allocate (book : Booked) (index : Nat) (pcb : Pcb) :
    (book.servesConsole index → pcb.pid ∉ book.created) ↔ book.Allows index (.allocate pcb) := by
  unfold servesConsole
  cases role : book.world.roleAt index with
  | none => simp [Allows, role]
  | some serves => cases serves <;> simp [Allows, role]

instance (book : Booked) (index : Nat) : ∀ op, Decidable (book.Allows index op)
  | .allocate pcb => decidable_of_iff _ (allows_allocate book index pcb)
  | .post semaphore =>
      inferInstanceAs (Decidable (semaphore = .multiprogrammingDegree →
        ∃ pid ∈ book.finishing index, pid ∈ book.holders))
  | .init semaphore _ =>
      inferInstanceAs (Decidable (semaphore = .multiprogrammingDegree →
        book.holders = [] ∧ book.inHand = 0))
  | .wait _ | .read | .readState _ | .nextId | .push .. | .pop _ | .find .. | .remove .. | .sort
  | .setState .. | .advanceCounter _ | .addResource .. | .removeResource .. | .modifyInstance ..
  | .sendToCpu .. | .sendInterrupt | .sendToMemory _ | .createThread .. | .nullPointer => isTrue trivial

instance (book : Booked) : ∀ event, Decidable (book.KeepsSlots event)
  | .advance index =>
      inferInstanceAs (Decidable (∀ op ∈ book.world.pool.nextOp index, book.Allows index op))
  | .command _ (.modifyMultiprogrammingDegree newDegree) =>
      inferInstanceAs (Decidable (newDegree < 0 → book.holders = [] ∧ book.inHand = 0 ∧
        book.world.memory.sem .multiprogrammingDegree = 0))
  | .command _ (.createProcess ..) | .command _ (.finishProcess _) | .command _ .startPlanning
  | .command _ .stopPlanning | .command _ .showAllProcesses | .iterate _ | .connect | .receive _
  | .startSleeper | .cpuExecute .. | .cpuReadInterrupt => isTrue trivial

/-- The books of the slots. -/
structure Slots (book : Booked) : Prop where
  affords : book.world.pool.Affords slotBudget
  finishing : ∀ index, ∀ pid ∈ book.finishing index, pid ∈ book.finished
  released : ∀ pid ∈ book.released, pid ∈ book.finished
  bound : book.world.memory.sem .multiprogrammingDegree + book.inHand + book.holders.length ≤
    book.degree.toNat

end Booked

/-! ### Every program affords its operations -/

/-- The operation takes no slot and admits nothing. -/
@[simp] def Operation.TakesNoSlot (op : Operation) : Prop :=
  op ≠ .wait .multiprogrammingDegree ∧ op ≠ .pop .new

theorem slotBudget_free {role : Role} {op : Operation} (free : op.TakesNoSlot) :
    slotBudget.gain role op = 0 := by
  cases op <;> simp_all [slotBudget]

namespace Code

/-- The code takes no slot and admits nothing. -/
abbrev TakesNoSlot {α : Type} (code : Code α) : Prop := code.Every Operation.TakesNoSlot

variable {α β : Type}

@[simp] theorem NoGrant.takesNoSlot {code : Code α} (free : code.NoGrant) : code.TakesNoSlot := by
  apply Program.Every.imp _ free
  intro op freeOp
  cases op <;> simp_all

theorem takesNoSlot_look_bind {value : Memory → α} {after : α → Code β}
    (rest : ∀ result, (after result).TakesNoSlot) : (look value >>= after).TakesNoSlot :=
  ⟨by simp, fun memory => rest (value memory)⟩

theorem takesNoSlot_updateQueueSemaphores (state : ProcessState) :
    (updateQueueSemaphores state).TakesNoSlot := by
  cases state <;> simp [updateQueueSemaphores, semWait, semPost]

/-- Finishing gives slots back only. -/
theorem takesNoSlot_finishProcess (pid : UInt32) : (finishProcess pid).TakesNoSlot := by
  apply Program.Every.bind (NoGrant.takesNoSlot noGrant_buildAllQueuesInList)
  intro queues
  apply Program.Every.bind (NoGrant.takesNoSlot (noGrant_searchQueues pid queues))
  intro found
  cases found with
  | none => trivial
  | some place => simp [finishFound, takesNoSlot_updateQueueSemaphores]

theorem takesNoSlot_handleWaitInterruption (process : PcbPointer) (resource : String) :
    (handleWaitInterruption process resource).TakesNoSlot := by
  apply takesNoSlot_look_bind
  intro valid
  split
  · apply takesNoSlot_look_bind
    intro available
    split
    · simp
    · apply takesNoSlot_look_bind
      intro index
      apply Program.Every.bind (NoGrant.takesNoSlot (noGrant_popLocked (by decide)))
      intro element
      apply Program.Every.bind (NoGrant.takesNoSlot (noGrant_dereference element))
      intro blocked
      simp [semPost]
  · apply takesNoSlot_look_bind
    exact takesNoSlot_finishProcess

theorem takesNoSlot_handleSignalInterruption (process : PcbPointer) (resource : String) :
    (handleSignalInterruption process resource).TakesNoSlot := by
  apply takesNoSlot_look_bind
  intro valid
  split
  · apply takesNoSlot_look_bind
    intro held
    split
    · simp
    · apply takesNoSlot_look_bind
      exact takesNoSlot_finishProcess
  · apply takesNoSlot_look_bind
    exact takesNoSlot_finishProcess

theorem takesNoSlot_handleDispatchConnection (message : Message) :
    (handleDispatchConnection message).TakesNoSlot := by
  apply Program.Every.bind (NoGrant.takesNoSlot (noGrant_semWait rfl))
  intro _
  apply Program.Every.bind (NoGrant.takesNoSlot (noGrant_semPost rfl))
  intro _
  apply Program.Every.bind (by simp [allocate])
  intro process
  cases message.request with
  | finish => exact takesNoSlot_finishProcess _
  | interrupt =>
      apply Program.Every.bind (NoGrant.takesNoSlot (noGrant_popLocked (by decide)))
      intro _
      simp [semPost]
  | wait resource => exact takesNoSlot_handleWaitInterruption process resource
  | signal resource => exact takesNoSlot_handleSignalInterruption process resource
  | sleep time => simp [handleSleepInterruption, semPost]

theorem takesNoSlot_handlerConnection (command : Command) :
    (handlerConnection command).TakesNoSlot := by
  cases command with
  | createProcess path quantum clientSocket =>
      apply Program.Every.bind (NoGrant.takesNoSlot (noGrant_receivePcbAndCreate path quantum _))
      intro process
      exact NoGrant.takesNoSlot (noGrant_moveProcessToNew process)
  | finishProcess pid => exact takesNoSlot_finishProcess pid
  | startPlanning | stopPlanning => simp [handlerConnection, semWait, semPost]
  | modifyMultiprogrammingDegree newDegree =>
      rw [handlerConnection, modifyMultiprogrammingDegree]
      split
      · simp
      · trivial
  | showAllProcesses =>
      apply Program.Every.bind (NoGrant.takesNoSlot noGrant_buildAllQueuesInList)
      intro queues
      trivial

/-- What is dispatched was admitted before. -/
theorem takesNoSlot_shortTermPlanner (config : KernelConfig) :
    (shortTermPlanner config).TakesNoSlot := by
  have moved : moveProcessToExec.TakesNoSlot := by
    apply Program.Every.bind (NoGrant.takesNoSlot (noGrant_popLocked (by decide)))
    intro element
    apply Program.Every.bind (NoGrant.takesNoSlot (noGrant_dereference element))
    intro process
    simp [dispatchProcessToCpu, semWait, semPost]
  rcases shortTermPlanner_cases config with fifo | roundRobin | priorities | unknown
  · rw [fifo]
    simp [planingWithFifo, semWait, semPost, moved]
  · rw [roundRobin]
    simp [planningWithRoundRobin, semWait, semPost, moved]
  · rw [priorities]
    simp [planningWithPriorities, semWait, semPost, moved]
  · rw [unknown]
    trivial

variable {role : Role} {tokens : Int}

theorem TakesNoSlot.slotFree {code : Code α} (free : code.TakesNoSlot) :
    code.Every fun op => slotBudget.gain role op = 0 :=
  Program.Every.imp (fun _ => slotBudget_free) free

theorem TakesNoSlot.slotAffords {code : Code α} (free : code.TakesNoSlot) (nonneg : 0 ≤ tokens) :
    code.Affords (slotBudget.gain role) (fun _ _ => True) tokens :=
  Program.Every.affords free.slotFree nonneg fun _ => trivial

/-- Code that takes no slot can be skipped. -/
theorem slotAffords_skip {code : Code α} {rest : α → Code β} {ending : Int → β → Prop}
    (free : code.TakesNoSlot) (nonneg : 0 ≤ tokens)
    (later : ∀ result, (rest result).Affords (slotBudget.gain role) ending tokens) :
    (code >>= rest).Affords (slotBudget.gain role) ending tokens :=
  Program.Every.affords_bind free.slotFree nonneg later

/-- What is taken off `queue_new` is paid for with the slot in hand. -/
theorem slotAffords_popLocked_new {ending : Int → Option PcbPointer → Prop}
    (ends : ∀ result, ending 0 result) :
    (popLocked .new).Affords (slotBudget.gain role) ending 1 := by
  apply slotAffords_skip (NoGrant.takesNoSlot (noGrant_semWait_mutex .new)) (by decide)
  intro _
  have left : 1 + slotBudget.gain role (.pop .new) = 0 := rfl
  rw [Program.affords_bind, Program.affords_observe, left]
  refine ⟨le_refl 0, fun memory => ?_⟩
  apply slotAffords_skip (NoGrant.takesNoSlot (noGrant_semPost_mutex .new)) (le_refl 0)
  intro _
  exact ends _

/-- The long-term planner takes a slot, and pays with it for the process that it admits. -/
theorem slotAffords_longTermPlanner :
    longTermPlanner.Affords (slotBudget.gain .longTermPlanner) (fun _ _ => True) 0 := by
  apply slotAffords_skip (NoGrant.takesNoSlot (noGrant_semWait rfl)) (le_refl 0)
  intro _
  rw [Program.affords_bind]
  refine (Program.affords_perform _).mpr ⟨by decide, ?_⟩
  apply slotAffords_skip (NoGrant.takesNoSlot (noGrant_semWait rfl)) (by decide)
  intro _
  rw [Program.affords_bind, moveProcessToReady, Program.affords_bind]
  apply slotAffords_popLocked_new
  intro element
  apply slotAffords_skip (NoGrant.takesNoSlot (noGrant_dereference element)) (le_refl 0)
  intro process
  have moved : Code.TakesNoSlot (do
      Program.perform (.setState process .ready)
      pushLocked .ready process) := by
    simp
  refine Program.Every.affords moved.slotFree (le_refl 0) fun _ => ?_
  exact TakesNoSlot.slotAffords (by simp [semPost]) (le_refl 0)

end Code

/-- Every program affords its operations. -/
theorem slotBudget_programs (config : KernelConfig) (role : Role) :
    0 ≤ slotBudget.initial role ∧ (role.code config).Affords (slotBudget.gain role)
      (fun _ _ => True) (slotBudget.initial role) := by
  refine ⟨le_refl 0, ?_⟩
  cases role with
  | longTermPlanner => exact Code.slotAffords_longTermPlanner
  | shortTermPlanner =>
      exact Code.TakesNoSlot.slotAffords (Code.takesNoSlot_shortTermPlanner config) (le_refl 0)
  | dispatchHandler message =>
      cases message with
      | none => trivial
      | some message =>
          exact Code.TakesNoSlot.slotAffords (Code.takesNoSlot_handleDispatchConnection message)
            (le_refl 0)
  | console command =>
      cases command with
      | none => trivial
      | some command =>
          exact Code.TakesNoSlot.slotAffords (Code.takesNoSlot_handlerConnection command) (le_refl 0)
  | sleeper process sleepTime =>
      exact Code.TakesNoSlot.slotAffords
        (Code.NoGrant.takesNoSlot (Code.noGrant_threadSleepProcess process)) (le_refl 0)

/-! ### The books of the slots -/

namespace Booked

variable {config : KernelConfig} {book next : Booked} {index : Nat}

theorem Slots.init (config : KernelConfig) : (Booked.init config).Slots := by
  have starts := Pool.affords_start (slotBudget_programs config) (Memory.init config)
    [.longTermPlanner, .shortTermPlanner, .dispatchHandler none]
  have nothing : (Booked.init config).inHand ≤ 0 := starts.2
  refine ⟨starts.1, ?_, ?_, ?_⟩
  · rintro index pid ⟨⟩
  · intro pid member
    exact absurd member List.not_mem_nil
  · change (config.multiprogrammingDegree : Int) + _ + 0 ≤ (config.multiprogrammingDegree : Int).toNat
    omega

/-- Semaphores other than that of the degree do not enter the books. -/
theorem record_other {semaphore : Semaphore} (other : semaphore ≠ .multiprogrammingDegree)
    (value : Nat) : book.record index (.post semaphore) = book ∧
      book.record index (.init semaphore value) = book := by
  cases semaphore <;> first | exact ⟨rfl, rfl⟩ | exact absurd rfl other

/-- A slot that is given back leaves one holder less. -/
theorem holders_release {pid : UInt32} (finishing : book.finishing index = some pid)
    (holds : pid ∈ book.holders) :
    (book.record index (.post .multiprogrammingDegree)).holders.length + 1 ≤ book.holders.length := by
  have fewer : (book.record index (.post .multiprogrammingDegree)).holders =
      book.holders.filter fun other => decide (other ≠ pid) := by
    rw [holders, holders, List.filter_filter]
    apply List.filter_congr
    intro other _
    simp [record, finishing]
  rw [fewer]
  apply List.length_filter_lt_length_iff_exists.mpr
  exact ⟨pid, holds, by simp⟩

/-- An admission leaves at most one holder more. -/
theorem holders_admit : (book.record index (.pop .new)).holders.length ≤ book.holders.length + 1 := by
  simp only [record]
  split
  · exact Nat.le_succ _
  · simp only [holders, List.filter_cons]
    split
    · exact le_refl _
    · exact Nat.le_succ _

/-- What the semaphore, the thread and the holders have together does not grow, unless the degree is
    set. -/
theorem slots_perform {op : Operation} {after : Memory} {role : Role} (allowed : book.Allows index op)
    (notSet : ∀ value, op ≠ .init .multiprogrammingDegree value)
    (performed : op.perform config book.world.memory = some after) :
    (after.sem .multiprogrammingDegree : Int) + slotBudget.gain role op +
        (book.record index op).holders.length ≤
      book.world.memory.sem .multiprogrammingDegree + book.holders.length ∧
    (book.record index op).degree = book.degree := by
  have sem := Operation.sem_perform .multiprogrammingDegree notSet performed
  cases op with
  | wait semaphore =>
      refine ⟨?_, rfl⟩
      change _ + _ + (book.holders.length : Int) ≤ _
      simp only [Operation.takes] at sem
      simp only [slotBudget]
      omega
  | post semaphore =>
      by_cases degree : semaphore = .multiprogrammingDegree
      · subst degree
        obtain ⟨pid, finishing, holds⟩ := allowed rfl
        have fewer := holders_release finishing holds
        simp only [Operation.takes, if_true] at sem
        refine ⟨?_, rfl⟩
        simp only [slotBudget]
        omega
      · rw [(record_other degree 0).1]
        simp only [Operation.takes, degree, if_false] at sem
        refine ⟨?_, rfl⟩
        simp only [slotBudget]
        omega
  | init semaphore value =>
      have degree : semaphore ≠ .multiprogrammingDegree := by
        rintro rfl
        exact notSet value rfl
      rw [(record_other degree value).2]
      simp only [Operation.takes] at sem
      refine ⟨?_, rfl⟩
      simp only [slotBudget]
      omega
  | pop id =>
      simp only [Operation.takes] at sem
      cases id with
      | new =>
          have more : (book.record index (.pop .new)).holders.length ≤ book.holders.length + 1 :=
            holders_admit
          refine ⟨?_, ?_⟩
          · simp only [slotBudget, if_true]
            omega
          · simp only [record]
            split <;> rfl
      | _ =>
          refine ⟨?_, rfl⟩
          change _ + 0 + (book.holders.length : Int) ≤ _
          omega
  | setState process state =>
      simp only [Operation.takes] at sem
      have same : (book.record index (.setState process state)).holders = book.holders ∧
          (book.record index (.setState process state)).degree = book.degree := by
        cases state <;> exact ⟨rfl, rfl⟩
      rw [same.1]
      refine ⟨?_, same.2⟩
      simp only [slotBudget]
      omega
  | allocate pcb =>
      simp only [Operation.takes] at sem
      have same : (book.record index (.allocate pcb)).holders = book.holders ∧
          (book.record index (.allocate pcb)).degree = book.degree := by
        simp only [record]
        split <;> exact ⟨rfl, rfl⟩
      rw [same.1]
      refine ⟨?_, same.2⟩
      simp only [slotBudget]
      omega
  | _ =>
      simp only [Operation.takes] at sem
      refine ⟨?_, rfl⟩
      change _ + 0 + (book.holders.length : Int) ≤ _
      omega

/-- What is finished stays finished, and the processes that are being finished are among them. -/
theorem finished_record (slots : book.Slots) (op : Operation) :
    (∀ other, ∀ pid ∈ (book.record index op).finishing other,
        pid ∈ (book.record index op).finished) ∧
      ∀ pid ∈ (book.record index op).released, pid ∈ (book.record index op).finished := by
  have kept : (∀ other, ∀ pid ∈ book.finishing other, pid ∈ book.finished) ∧
      ∀ pid ∈ book.released, pid ∈ book.finished := ⟨slots.finishing, slots.released⟩
  cases op with
  | post semaphore =>
      by_cases degree : semaphore = .multiprogrammingDegree
      · subst degree
        refine ⟨slots.finishing, fun pid member => ?_⟩
        rcases List.mem_append.mp member with now | before
        · exact slots.finishing index pid (Option.mem_toList.mp now)
        · exact slots.released pid before
      · rw [(record_other degree 0).1]
        exact kept
  | init semaphore value =>
      by_cases degree : semaphore = .multiprogrammingDegree
      · subst degree
        exact kept
      · rw [(record_other degree value).2]
        exact kept
  | setState process state =>
      cases state with
      | exit =>
          refine ⟨fun other pid finishes => ?_, fun pid member =>
            List.mem_cons_of_mem _ (slots.released pid member)⟩
          simp only [record] at finishes ⊢
          split at finishes
          · obtain rfl := Option.some.inj finishes
            exact List.mem_cons_self
          · exact List.mem_cons_of_mem _ (slots.finishing other pid finishes)
      | _ => exact kept
  | pop id =>
      cases id with
      | new =>
          simp only [record]
          split <;> exact kept
      | _ => exact kept
  | allocate pcb =>
      simp only [record]
      split <;> exact kept
  | _ => exact kept

/-- A step in which no thread performs anything and no thread gets a slot. -/
theorem Slots.idle {framed : FramedWorld} (slots : book.Slots)
    (affords : framed.world.pool.Affords slotBudget)
    (same : framed.world.memory.sem = book.world.memory.sem)
    (atMost : framed.world.pool.total (Thread.inHand slotBudget) ≤ book.inHand) :
    ({ book with framed := framed } : Booked).Slots := by
  refine ⟨affords, slots.finishing, slots.released, ?_⟩
  have bound := slots.bound
  change (framed.world.memory.sem .multiprogrammingDegree : Int) + framed.world.pool.total _ +
    (book.holders.length : Int) ≤ _
  rw [same]
  change _ ≤ (book.degree.toNat : Int)
  omega

/-- The step of a thread. -/
theorem Slots.advance {pool : KernelPool} {args : Option (PcbPointer × Int32)} (slots : book.Slots)
    (keeps : book.KeepsSlots (.advance index))
    (advanced : book.world.pool.advance (Operation.perform config) index = some pool) :
    ∃ op, book.world.pool.nextOp index = some op ∧
      ({ book.record index op with
        framed := { world := { book.world with pool := pool }, args := args } } : Booked).Slots := by
  obtain ⟨thread, op, at_index, threadNext, performed, affords, atMost, _⟩ :=
    slots.affords.advance advanced
  have nextOp : book.world.pool.nextOp index = some op := by
    rw [Pool.nextOp, at_index]
    exact threadNext
  have allowed := keeps op nextOp
  refine ⟨op, nextOp, affords, (finished_record slots op).1, (finished_record slots op).2, ?_⟩
  have bound := slots.bound
  change (pool.state.sem .multiprogrammingDegree : Int) + pool.total _ +
    ((book.record index op).holders.length : Int) ≤ ((book.record index op).degree.toNat : Int)
  change _ ≤ book.inHand + _ at atMost
  by_cases sets : ∃ value, op = .init .multiprogrammingDegree value
  · obtain ⟨value, rfl⟩ := sets
    obtain ⟨noHolder, noSlot⟩ := allowed rfl
    have stored : pool.state.sem .multiprogrammingDegree = value := by
      rw [← Option.some.inj performed]
      rfl
    have sameHolders : (book.record index (.init .multiprogrammingDegree value)).holders = [] :=
      noHolder
    have degree : (book.record index (.init .multiprogrammingDegree value)).degree = value := rfl
    have free : slotBudget.gain thread.role (.init .multiprogrammingDegree value) = 0 := rfl
    rw [stored, sameHolders, degree, List.length_nil]
    omega
  · have kept : (_ : Int) + slotBudget.gain thread.role op + _ ≤ _ ∧ _ :=
      slots_perform allowed (fun value same => sets ⟨value, same⟩) performed
    rw [kept.2]
    have atMostBefore := kept.1
    change _ ≤ (book.world.pool.state.sem .multiprogrammingDegree : Int) + _ at atMostBefore
    change (book.world.pool.state.sem .multiprogrammingDegree : Int) + _ + _ ≤ _ at bound
    omega

/-- A step of the world. -/
theorem Slots.step_world {inner : WorldEvent} {framed : FramedWorld} (slots : book.Slots)
    (keeps : book.KeepsSlots inner) (taken : book.world.step config inner = some framed.world) :
    ({ book.after inner with framed := framed } : Booked).Slots := by
  obtain ⟨world, args⟩ := framed
  have programs := slotBudget_programs config
  cases World.step_cases taken with
  | @advances index pool advanced =>
      obtain ⟨op, nextOp, after⟩ := slots.advance keeps advanced
      simp only [Booked.after, nextOp]
      exact after
  | @iterates index thread role at_index idle same planner =>
      obtain ⟨affords, atMost⟩ := slots.affords.restart at_index (programs role).1 (programs role).2
      exact slots.idle affords rfl (atMost.trans_eq (add_zero _))
  | @commands index thread request old at_index idle console =>
      obtain ⟨affords, atMost⟩ := slots.affords.restart at_index
        (programs (.console (some request))).1 (programs (.console (some request))).2
      have noMore := atMost.trans_eq (add_zero _)
      cases request with
      | modifyMultiprogrammingDegree newDegree =>
          simp only [Booked.after]
          split
          · rename_i negative
            obtain ⟨noHolder, noSlot, noToken⟩ := keeps negative
            refine ⟨affords, slots.finishing, slots.released, ?_⟩
            have nothing := noMore.trans_eq noSlot
            refine le_trans (add_le_add_left (add_le_add_right nothing _) _) ?_
            change (book.world.memory.sem .multiprogrammingDegree : Int) + 0 +
              (book.holders.length : Int) ≤ _
            rw [noToken, noHolder, List.length_nil]
            exact Int.natCast_nonneg _
          · exact slots.idle affords rfl noMore
      | _ => exact slots.idle affords rfl noMore
  | @receives index thread message rest old at_index idle handler head =>
      obtain ⟨affords, atMost⟩ := slots.affords.restart at_index
        (programs (.dispatchHandler (some message))).1 (programs (.dispatchHandler (some message))).2
      exact slots.idle affords rfl (atMost.trans_eq (add_zero _))
  | connects =>
      obtain ⟨affords, atMost⟩ := slots.affords.spawn (programs (.console none)).1
        (programs (.console none)).2
      exact slots.idle affords rfl (atMost.trans_eq (add_zero _))
  | @startsSleeper process sleepTime rest head =>
      have same : ({ book.world.pool with
          state := { book.world.memory with createdThreads := rest } } :
        KernelPool).Affords slotBudget := slots.affords
      obtain ⟨affords, atMost⟩ := same.spawn (programs (.sleeper process sleepTime)).1
        (programs (.sleeper process sleepTime)).2
      exact slots.idle affords rfl (atMost.trans_eq (add_zero _))
  | executes head => exact slots.idle slots.affords rfl (le_refl _)
  | readsInterrupt => exact slots.idle slots.affords rfl (le_refl _)

/-- The step lemma: what a sleep thread finds as its arguments makes no difference to the slots. -/
theorem Slots.step {event : FramedWorldEvent} (slots : book.Slots)
    (keeps : book.During KeepsSlots event) (stepped : book.step config event = some next) :
    next.Slots := by
  obtain ⟨framed, taken, rfl⟩ := Option.map_eq_some_iff.mp stepped
  rcases FramedWorld.step_cases taken with
    ⟨inner, rfl, moved⟩ | ⟨index, args, rfl, _, moved⟩ | ⟨contents, rfl, same⟩
  · exact slots.step_world keeps moved
  · let given : Booked :=
      { book with
        framed := { book.framed with
          world := book.world.withCreatedThreads
            (args :: book.world.memory.createdThreads.eraseIdx index) } }
    have givenSlots : given.Slots := ⟨slots.affords, slots.finishing, slots.released, slots.bound⟩
    refine givenSlots.step_world ?_ moved
    trivial
  · have noMore : framed.world.pool.total (Thread.inHand slotBudget) ≤ book.inHand := by
      rw [same]
      exact le_refl _
    exact slots.idle (same ▸ slots.affords) (by rw [same]) noMore

/-- Who is unfinished holds a slot. -/
theorem Slots.unfinished_le (slots : book.Slots) : book.unfinished.length ≤ book.holders.length := by
  apply List.Sublist.length_le
  apply List.monotone_filter_right
  intro pid notFinished
  have unfinished : pid ∉ book.finished := by simpa using notFinished
  simpa using fun released => unfinished (slots.released pid released)

/-- Who admits a process has a slot in hand. -/
theorem Slots.admitsBelowDegree (slots : book.Slots) (event : WorldEvent) :
    book.AdmitsBelowDegree event := by
  cases event with
  | advance index =>
      intro admits
      obtain ⟨thread, at_index, nextOp⟩ := Option.bind_eq_some_iff.mp admits
      have member := List.mem_of_getElem? at_index
      have paid := (slots.affords thread member).pays nextOp
      have costs : slotBudget.gain thread.role (.pop .new) = -1 := rfl
      have atMost := Pool.le_total (fun other inside => (slots.affords other inside).nonneg) member
      have bound := slots.bound
      have unfinished := slots.unfinished_le
      rw [inHand] at bound
      omega
  | _ => trivial

end Booked

end OsSimulator
