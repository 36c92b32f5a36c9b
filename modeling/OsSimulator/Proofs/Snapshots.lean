/-
Module: OsSimulator.Proofs.Snapshots
Purpose: The shared memory as the kernel of `Kernel.State` sees it: queues of PCBs instead of queues of
  pointers, with what a thread that is half-way has for itself; and what single operations and critical
  sections do to both.
Main exports: Snapshot, Memory.occurrences, Memory.Shows, Code.Simulates, Memory.Shows.take,
  Memory.Shows.push
-/
import OsSimulator.Lib.Sequential
import OsSimulator.Lib.Weigh
import OsSimulator.Proofs.LockOrder

namespace OsSimulator

open Threads

/-- What an event of the trace has written to the connection with memory. -/
def KernelEvent.chunks : KernelEvent → List Chunk
  | .sentToMemory header pcb => [.header header, .length pcb, .payload pcb]
  | _ => []

/-- The kernel, and what its threads have for themselves: the mutexes they hold, the PCBs that are in no
    queue, and the sleep threads that have not begun to run. -/
structure Snapshot where
  kernel : Kernel
  held : List Mutex
  owned : List (PcbPointer × Pcb)
  createdThreads : List (PcbPointer × Int32)
  interruptHeaders : Nat

/-- A weight of one for a pointer. -/
def pointerWeight (process other : PcbPointer) : Nat := if other = process then 1 else 0

namespace Memory

/-- How often a pointer is in the queues. -/
def occurrences (memory : Memory) (process : PcbPointer) : Nat :=
  weigh (pointerWeight process) memory.queueNew + weigh (pointerWeight process) memory.queueReady +
    weigh (pointerWeight process) memory.queueExec +
    weighAll (pointerWeight process) memory.listOfQueueBlocked

/-- The memory holds what the snapshot says.  No pointer is in two places, and none dangles. -/
structure Shows (memory : Memory) (snapshot : Snapshot) : Prop where
  queue : ∀ id, (memory.queue id).map memory.pcb = snapshot.kernel.queue id
  blockedQueues : memory.listOfQueueBlocked.length = snapshot.kernel.listOfQueueBlocked.length
  allResources : memory.allResources = snapshot.kernel.allResources
  allResourcesInstances : memory.allResourcesInstances = snapshot.kernel.allResourcesInstances
  sem : ∀ semaphore, semaphore.mutex? = none → memory.sem semaphore = snapshot.kernel.sem semaphore
  locks : ∀ mutex : Mutex, memory.sem mutex.semaphore = if mutex ∈ snapshot.held then 0 else 1
  kernelLocks : ∀ mutex : Mutex, snapshot.kernel.sem mutex.semaphore = 1
  idToAssign : memory.idToAssign = snapshot.kernel.idToAssign
  cpuDispatchConnection : memory.cpuDispatchConnection = snapshot.kernel.cpuDispatchConnection
  memoryConnection :
    memory.memoryConnection = snapshot.kernel.trace.reverse.flatMap KernelEvent.chunks
  owned : ∀ entry ∈ snapshot.owned, memory.pcb entry.1 = entry.2
  distinct : ∀ process, memory.occurrences process +
      weigh (pointerWeight process) (snapshot.owned.map Prod.fst) ≤
    if process < memory.pcbs.length then 1 else 0
  createdThreads : memory.createdThreads = snapshot.createdThreads
  interruptHeaders : memory.interruptHeaders = snapshot.interruptHeaders

end Memory

/-- The code, run alone on a memory that shows the snapshot, ends as `ending` says. -/
abbrev Code.Simulates {α : Type} (config : KernelConfig) (code : Code α) (snapshot : Snapshot)
    (ending : α → Snapshot → Prop) : Prop :=
  Program.Simulates (Operation.perform config) Memory.Shows code snapshot ending

/-! ### Queues -/

/-- The queue is one of the kernel's when it has so many blocked queues. -/
def QueueId.Within (count : Nat) : QueueId → Prop
  | .new | .ready | .exec => True
  | .blocked index => index < count

instance (count : Nat) : DecidablePred (QueueId.Within count) := fun id => by
  cases id <;> unfold QueueId.Within <;> infer_instance

theorem Kernel.queue_setQueue (kernel : Kernel) (elements : List Pcb) (id other : QueueId) :
    (kernel.setQueue elements id).queue other =
      if id = other ∧ id.Within kernel.listOfQueueBlocked.length then elements
      else kernel.queue other := by
  cases id <;> cases other <;> simp [Kernel.setQueue, Kernel.queue, QueueId.Within]
  rename_i index place
  by_cases same : index = place
  · subst same
    by_cases inside : index < kernel.listOfQueueBlocked.length <;> simp [inside]
  · simp [same]

namespace Memory

variable {memory : Memory}

theorem queue_setQueue (elements : List PcbPointer) (id other : QueueId) :
    (memory.setQueue elements id).queue other =
      if id = other ∧ id.Within memory.listOfQueueBlocked.length then elements
      else memory.queue other := by
  cases id <;> cases other <;> simp [setQueue, queue, QueueId.Within]
  rename_i index place
  by_cases same : index = place
  · subst same
    by_cases inside : index < memory.listOfQueueBlocked.length <;> simp [inside]
  · simp [same]

/-- A queue outside the list stays as it is, and it is empty. -/
theorem setQueue_of_not_within {id : QueueId} (outside : ¬ id.Within memory.listOfQueueBlocked.length)
    (elements : List PcbPointer) : memory.setQueue elements id = memory := by
  cases id with
  | blocked index =>
      have beyond : memory.listOfQueueBlocked.length ≤ index := Nat.not_lt.mp outside
      rw [setQueue, List.set_eq_of_length_le beyond]
  | new | ready | exec => exact absurd trivial outside

theorem queue_of_not_within {id : QueueId} (outside : ¬ id.Within memory.listOfQueueBlocked.length) :
    memory.queue id = [] := by
  cases id with
  | blocked index =>
      have beyond : memory.listOfQueueBlocked.length ≤ index := Nat.not_lt.mp outside
      simp [queue, List.getD_eq_getElem?_getD, beyond]
  | new | ready | exec => exact absurd trivial outside

/-- Storing a queue changes the occurrences by the difference of the two. -/
theorem occurrences_setQueue {id : QueueId} (within : id.Within memory.listOfQueueBlocked.length)
    (elements : List PcbPointer) (process : PcbPointer) :
    (memory.setQueue elements id).occurrences process +
        weigh (pointerWeight process) (memory.queue id) =
      memory.occurrences process + weigh (pointerWeight process) elements := by
  cases id with
  | new | ready | exec =>
      simp only [occurrences, setQueue, queue]
      omega
  | blocked index =>
      have at_index : memory.listOfQueueBlocked[index]? = some (memory.queue (.blocked index)) := by
        have inside : index < memory.listOfQueueBlocked.length := within
        simp [queue, List.getD_eq_getElem?_getD, inside]
      have moved := weighAll_set (pointerWeight process) elements at_index
      simp only [occurrences, setQueue]
      omega

theorem weigh_queue_le (id : QueueId) (process : PcbPointer) :
    weigh (pointerWeight process) (memory.queue id) ≤ memory.occurrences process := by
  by_cases within : id.Within memory.listOfQueueBlocked.length
  · have emptied := occurrences_setQueue within [] process
    rw [weigh_nil] at emptied
    omega
  · rw [queue_of_not_within within, weigh_nil]
    exact Nat.zero_le _

theorem pcb_modifyPcb_self {process : PcbPointer} (allocated : process < memory.pcbs.length)
    (change : Pcb → Pcb) : (memory.modifyPcb process change).pcb process =
      change (memory.pcb process) := by
  simp [modifyPcb, pcb, List.getD_eq_getElem?_getD, allocated]

theorem pcb_modifyPcb_of_ne {process other : PcbPointer} (apart : other ≠ process)
    (change : Pcb → Pcb) : (memory.modifyPcb process change).pcb other = memory.pcb other := by
  simp [modifyPcb, pcb, List.getD_eq_getElem?_getD, Ne.symm apart]

/-- A lock that was free is free again. -/
theorem setSem_setSem_of_eq {semaphore : Semaphore} {before during : Nat}
    (value : memory.sem semaphore = before) :
    (memory.setSem semaphore during).setSem semaphore before = memory := by
  have same : (fun other => if other = semaphore then before else
      if other = semaphore then during else memory.sem other) = memory.sem := by
    funext other
    by_cases here : other = semaphore
    · rw [if_pos here, here, value]
    · rw [if_neg here, if_neg here]
  exact congrArg (fun sem => { memory with sem := sem }) same

theorem pcb_setQueue (elements : List PcbPointer) (id : QueueId) :
    (memory.setQueue elements id).pcb = memory.pcb := by
  cases id <;> rfl

end Memory

theorem Mutex.semaphore_inj {first second : Mutex} :
    first.semaphore = second.semaphore ↔ first = second := by
  cases first <;> cases second <;> simp [Mutex.semaphore]

theorem pointerWeight_self (process : PcbPointer) : pointerWeight process process = 1 := if_pos rfl

theorem weigh_pointerWeight_eq_zero {process : PcbPointer} {list : List PcbPointer} :
    weigh (pointerWeight process) list = 0 ↔ process ∉ list := by
  rw [weigh_eq_zero]
  constructor
  · intro zero member
    exact absurd (zero process member) (by simp [pointerWeight])
  · intro absent other member
    rw [pointerWeight, if_neg]
    rintro rfl
    exact absent member

/-- A pointer that is in the list only once is erased where it is. -/
theorem erase_eq_eraseIdx_of_once {process : PcbPointer} {list : List PcbPointer} {position : Nat}
    (once : weigh (pointerWeight process) list ≤ 1)
    (at_position : list[position]? = some process) :
    list.erase process = list.eraseIdx position := by
  induction list generalizing position with
  | nil => simp at at_position
  | cons head tail ih =>
      rw [weigh_cons] at once
      cases position with
      | zero =>
          obtain rfl : head = process := by simpa using at_position
          simp
      | succ position =>
          have later : tail[position]? = some process := by simpa using at_position
          have occurs : pointerWeight process process ≤ weigh (pointerWeight process) tail :=
            weight_le_weigh (List.mem_of_getElem? later)
          rw [pointerWeight_self] at occurs
          have apart : head ≠ process := by
            rintro rfl
            rw [pointerWeight_self] at once
            omega
          have tail_once : weigh (pointerWeight process) tail ≤ 1 := by omega
          rw [List.erase_cons_tail (by simpa using apart), List.eraseIdx_cons_succ,
            ih tail_once later]

namespace Memory.Shows

variable {memory : Memory} {kernel : Kernel} {held : List Mutex} {owned : List (PcbPointer × Pcb)}
  {created : List (PcbPointer × Int32)} {headers : Nat} {process : PcbPointer} {pcb : Pcb}

theorem init (config : KernelConfig) :
    (Memory.init config).Shows ⟨Kernel.init config, [], [], [], 0⟩ where
  queue id := by
    cases id with
    | blocked index =>
        simp only [Memory.init, Memory.queue, Kernel.init, Kernel.queue,
          List.getD_eq_getElem?_getD, List.getElem?_replicate]
        split <;> rfl
    | new | ready | exec => rfl
  blockedQueues := by simp [Memory.init, Kernel.init]
  allResources := rfl
  allResourcesInstances := rfl
  sem _ _ := rfl
  locks mutex := by cases mutex <;> rfl
  kernelLocks mutex := by cases mutex <;> rfl
  idToAssign := rfl
  cpuDispatchConnection := rfl
  memoryConnection := rfl
  owned _ member := absurd member List.not_mem_nil
  distinct process := by simp [occurrences, Memory.init, weighAll_replicate_nil]
  createdThreads := rfl
  interruptHeaders := rfl

/-- A pointer that a thread owns is allocated, in no queue and owned only once. -/
theorem of_owned (shows : memory.Shows ⟨kernel, held, (process, pcb) :: owned, created, headers⟩) :
    process < memory.pcbs.length ∧ memory.pcb process = pcb ∧
      (∀ id, process ∉ memory.queue id) ∧ process ∉ owned.map Prod.fst := by
  have once := shows.distinct process
  simp only [List.map_cons, weigh_cons, pointerWeight_self] at once
  have allocated : process < memory.pcbs.length := by
    by_contra beyond
    rw [if_neg beyond] at once
    omega
  rw [if_pos allocated] at once
  refine ⟨allocated, shows.owned _ List.mem_cons_self, fun id => ?_, ?_⟩
  · have bound := memory.weigh_queue_le id process
    exact weigh_pointerWeight_eq_zero.mp (by omega)
  · exact weigh_pointerWeight_eq_zero.mp (by omega)

/-- Elements are moved between one queue and the threads. -/
theorem exchange (shows : memory.Shows ⟨kernel, held, owned, created, headers⟩) (id : QueueId)
    {elements : List PcbPointer} {after : List (PcbPointer × Pcb)}
    (moved : ∀ process, weigh (pointerWeight process) elements +
        weigh (pointerWeight process) (after.map Prod.fst) ≤
      weigh (pointerWeight process) (memory.queue id) +
        weigh (pointerWeight process) (owned.map Prod.fst))
    (values : ∀ entry ∈ after, memory.pcb entry.1 = entry.2) :
    (memory.setQueue elements id).Shows
      ⟨kernel.setQueue (elements.map memory.pcb) id, held, after, created, headers⟩ where
  queue other := by
    rw [Memory.queue_setQueue, Kernel.queue_setQueue, pcb_setQueue, shows.blockedQueues]
    split
    · rfl
    · exact shows.queue other
  blockedQueues := by
    cases id <;> simp [setQueue, Kernel.setQueue, shows.blockedQueues]
  allResources := by
    rw [(kernel.setQueue_fields _ id).1, ← shows.allResources]
    cases id <;> rfl
  allResourcesInstances := by
    rw [(kernel.setQueue_fields _ id).2.1, ← shows.allResourcesInstances]
    cases id <;> rfl
  sem semaphore counts := by simpa using shows.sem semaphore counts
  locks mutex := by simpa using shows.locks mutex
  kernelLocks mutex := by simpa using shows.kernelLocks mutex
  idToAssign := by
    rw [(kernel.setQueue_fields _ id).2.2.2.1, ← shows.idToAssign]
    cases id <;> rfl
  cpuDispatchConnection := by
    rw [(kernel.setQueue_fields _ id).2.2.2.2.2.1, ← shows.cpuDispatchConnection]
    cases id <;> rfl
  memoryConnection := by
    rw [(kernel.setQueue_fields _ id).2.2.2.2.2.2, ← shows.memoryConnection]
    cases id <;> rfl
  owned entry member := by
    rw [pcb_setQueue]
    exact values entry member
  distinct process := by
    have once := shows.distinct process
    have change := moved process
    rw [pcbs_setQueue]
    by_cases within : id.Within memory.listOfQueueBlocked.length
    · have stored := occurrences_setQueue within elements process
      simp only at once ⊢
      omega
    · rw [setQueue_of_not_within within]
      rw [queue_of_not_within within, weigh_nil] at change
      simp only at once ⊢
      omega
  createdThreads := by
    rw [← shows.createdThreads]
    cases id <;> rfl
  interruptHeaders := by
    rw [← shows.interruptHeaders]
    cases id <;> rfl

/-- An element is taken out of a queue. -/
theorem take (shows : memory.Shows ⟨kernel, held, owned, created, headers⟩) {id : QueueId}
    {position : Nat} (at_position : (memory.queue id)[position]? = some process) :
    (memory.setQueue ((memory.queue id).eraseIdx position) id).Shows
      ⟨kernel.setQueue ((kernel.queue id).eraseIdx position) id, held,
        (process, memory.pcb process) :: owned, created, headers⟩ := by
  have erased : ((memory.queue id).eraseIdx position).map memory.pcb =
      (kernel.queue id).eraseIdx position := by
    rw [← shows.queue id, List.eraseIdx_map]
  rw [← erased]
  refine shows.exchange id (fun other => ?_) fun entry member => ?_
  · have less := weigh_eraseIdx (pointerWeight other) at_position
    simp only [List.map_cons, weigh_cons]
    omega
  · rcases List.mem_cons.mp member with rfl | old
    · rfl
    · exact shows.owned entry old

theorem queue_length (shows : memory.Shows ⟨kernel, held, owned, created, headers⟩) (id : QueueId) :
    (memory.queue id).length = (kernel.queue id).length := by
  rw [← shows.queue id, List.length_map]

/-- No pointer in a queue dangles. -/
theorem allocated_of_mem (shows : memory.Shows ⟨kernel, held, owned, created, headers⟩)
    {id : QueueId} (member : process ∈ memory.queue id) : process < memory.pcbs.length := by
  by_contra beyond
  have once := shows.distinct process
  rw [if_neg beyond] at once
  have bound := memory.weigh_queue_le id process
  have occurs : weigh (pointerWeight process) (memory.queue id) ≠ 0 := fun zero =>
    weigh_pointerWeight_eq_zero.mp zero member
  omega

/-- No queue holds a pointer twice. -/
theorem queue_once (shows : memory.Shows ⟨kernel, held, owned, created, headers⟩) (id : QueueId)
    (process : PcbPointer) : weigh (pointerWeight process) (memory.queue id) ≤ 1 := by
  have once := shows.distinct process
  have bound := memory.weigh_queue_le id process
  split at once <;> omega

/-- An element is added to a queue. -/
theorem push (shows : memory.Shows ⟨kernel, held, (process, pcb) :: owned, created, headers⟩)
    (id : QueueId) : (memory.setQueue (memory.queue id ++ [process]) id).Shows
      ⟨kernel.queuePush id pcb, held, owned, created, headers⟩ := by
  have extended : (memory.queue id ++ [process]).map memory.pcb = kernel.queue id ++ [pcb] := by
    rw [List.map_append, shows.queue id, List.map_singleton, shows.of_owned.2.1]
  rw [Kernel.queuePush, ← extended]
  refine shows.exchange id (fun other => ?_) fun entry member =>
    shows.owned entry (List.mem_cons_of_mem _ member)
  simp only [weigh_append, List.map_cons, weigh_cons, weigh_nil]
  omega

/-- A queue is sorted. -/
theorem sorted (shows : memory.Shows ⟨kernel, held, owned, created, headers⟩) (id : QueueId)
    {elements : List PcbPointer} (perm : elements.Perm (memory.queue id)) :
    (memory.setQueue elements id).Shows
      ⟨kernel.setQueue (elements.map memory.pcb) id, held, owned, created, headers⟩ :=
  shows.exchange id (fun other => by rw [weigh_perm _ perm]) shows.owned

/-- What a thread owns may be forgotten, or be listed in another order. -/
theorem reown (shows : memory.Shows ⟨kernel, held, owned, created, headers⟩)
    {after : List (PcbPointer × Pcb)} (fewer : List.Subperm after owned) :
    memory.Shows ⟨kernel, held, after, created, headers⟩ :=
  { shows with
    owned := fun entry member => shows.owned entry (fewer.subset member)
    distinct := fun process => by
      have once := shows.distinct process
      obtain ⟨list, perm, sublist⟩ := fewer
      have same := weigh_perm (pointerWeight process) (perm.map Prod.fst)
      have less : weigh (pointerWeight process) (list.map Prod.fst) ≤
          weigh (pointerWeight process) (owned.map Prod.fst) :=
        ((sublist.map Prod.fst).map _).sum_le_sum fun _ _ => Nat.zero_le _
      simp only at once ⊢
      omega }

/-- A thread writes to a PCB it owns. -/
theorem modifyPcb (shows : memory.Shows ⟨kernel, held, (process, pcb) :: owned, created, headers⟩)
    (change : Pcb → Pcb) : (memory.modifyPcb process change).Shows
      ⟨kernel, held, (process, change pcb) :: owned, created, headers⟩ := by
  obtain ⟨allocated, value, absent, once⟩ := shows.of_owned
  exact { shows with
    queue := fun id => by
      rw [queue_modifyPcb, ← shows.queue id]
      refine List.map_congr_left fun other member => pcb_modifyPcb_of_ne ?_ change
      rintro rfl
      exact absent id member
    owned := fun entry member => by
      rcases List.mem_cons.mp member with rfl | old
      · rw [pcb_modifyPcb_self allocated, value]
      · rw [pcb_modifyPcb_of_ne, shows.owned entry (List.mem_cons_of_mem _ old)]
        rintro same
        exact once (same ▸ List.mem_map_of_mem old)
    distinct := fun other => by
      have same : (memory.modifyPcb process change).pcbs.length = memory.pcbs.length :=
        List.length_modify ..
      rw [same]
      exact shows.distinct other }

/-- A PCB is allocated. -/
theorem allocate (shows : memory.Shows ⟨kernel, held, owned, created, headers⟩) (pcb : Pcb) :
    { memory with pcbs := memory.pcbs ++ [pcb] }.Shows
      ⟨kernel, held, (memory.pcbs.length, pcb) :: owned, created, headers⟩ := by
  have old : ∀ process, process < memory.pcbs.length →
      Memory.pcb { memory with pcbs := memory.pcbs ++ [pcb] } process = memory.pcb process := by
    intro process allocated
    simp [Memory.pcb, List.getD_eq_getElem?_getD, List.getElem?_append_left allocated]
  have inside : ∀ process, 0 < memory.occurrences process +
      weigh (pointerWeight process) (owned.map Prod.fst) → process < memory.pcbs.length := by
    intro process occurs
    by_contra beyond
    have once := shows.distinct process
    rw [if_neg beyond] at once
    simp only at once
    omega
  exact { shows with
    queue := fun id => by
      rw [← shows.queue id]
      refine List.map_congr_left fun process member => old process (inside process ?_)
      have bound := memory.weigh_queue_le id process
      have occurs : weigh (pointerWeight process) (memory.queue id) ≠ 0 := fun zero =>
        weigh_pointerWeight_eq_zero.mp zero member
      omega
    owned := fun entry member => by
      rcases List.mem_cons.mp member with rfl | member
      · simp [Memory.pcb, List.getD_eq_getElem?_getD]
      · rw [old entry.1 (inside entry.1 ?_), shows.owned entry member]
        have occurs : weigh (pointerWeight entry.1) (owned.map Prod.fst) ≠ 0 := fun zero =>
          weigh_pointerWeight_eq_zero.mp zero (List.mem_map_of_mem member)
        omega
    distinct := fun process => by
      have once := shows.distinct process
      change memory.occurrences process + weigh (pointerWeight process)
        (memory.pcbs.length :: owned.map Prod.fst) ≤ _
      simp only [weigh_cons, List.length_append, List.length_singleton] at once ⊢
      by_cases fresh : memory.pcbs.length = process
      · subst fresh
        rw [if_neg (Nat.lt_irrefl _)] at once
        rw [pointerWeight_self, if_pos (Nat.lt_succ_self _)]
        omega
      · have other : pointerWeight process memory.pcbs.length = 0 := if_neg fresh
        rw [other]
        by_cases allocated : process < memory.pcbs.length
        · rw [if_pos allocated] at once
          rw [if_pos (Nat.lt_succ_of_lt allocated)]
          omega
        · rw [if_neg allocated] at once
          omega }

/-- A semaphore that counts gets another value. -/
theorem setSem (shows : memory.Shows ⟨kernel, held, owned, created, headers⟩) {semaphore : Semaphore}
    (counts : semaphore.mutex? = none) (value : Nat) : (memory.setSem semaphore value).Shows
      ⟨kernel.semInit semaphore value, held, owned, created, headers⟩ := by
  have apart : ∀ mutex : Mutex, mutex.semaphore ≠ semaphore := by
    rintro mutex rfl
    exact absurd (Semaphore.mutex?_eq_some.mpr rfl) (by rw [counts]; simp)
  exact { shows with
    queue := fun id => by rw [queue_setSem]; exact shows.queue id
    sem := fun other counts => by
      rw [setSem_sem, Kernel.semInit_sem, shows.sem other counts]
    locks := fun mutex => by
      rw [setSem_sem, if_neg (apart mutex)]
      exact shows.locks mutex
    kernelLocks := fun mutex => by
      rw [Kernel.semInit_sem, if_neg (apart mutex)]
      exact shows.kernelLocks mutex }

/-- A mutex that is free is taken. -/
theorem acquire (shows : memory.Shows ⟨kernel, held, owned, created, headers⟩) {mutex : Mutex} :
    (memory.setSem mutex.semaphore 0).Shows
      ⟨kernel, mutex :: held, owned, created, headers⟩ :=
  { shows with
    queue := fun id => by rw [queue_setSem]; exact shows.queue id
    sem := fun other counts => by
      rw [setSem_sem, if_neg, shows.sem other counts]
      rintro rfl
      exact absurd (Semaphore.mutex?_eq_some.mpr rfl) (by rw [counts]; simp)
    locks := fun other => by
      have same := shows.locks other
      rw [setSem_sem]
      by_cases here : other = mutex
      · subst here
        simp
      · rw [if_neg (fun equal => here (Mutex.semaphore_inj.mp equal)), same]
        simp [here] }

/-- The mutex that was taken last is released. -/
theorem release {mutex : Mutex} (free : mutex ∉ held)
    (shows : memory.Shows ⟨kernel, mutex :: held, owned, created, headers⟩) :
    (memory.setSem mutex.semaphore 1).Shows ⟨kernel, held, owned, created, headers⟩ :=
  { shows with
    queue := fun id => by rw [queue_setSem]; exact shows.queue id
    sem := fun other counts => by
      rw [setSem_sem, if_neg, shows.sem other counts]
      rintro rfl
      exact absurd (Semaphore.mutex?_eq_some.mpr rfl) (by rw [counts]; simp)
    locks := fun other => by
      have same := shows.locks other
      rw [setSem_sem]
      by_cases here : other = mutex
      · subst here
        simp [free]
      · rw [if_neg (fun equal => here (Mutex.semaphore_inj.mp equal)), same]
        simp [here] }

/-- Lines that are no messages to memory. -/
theorem logs (shows : memory.Shows ⟨kernel, held, owned, created, headers⟩)
    {lines : List KernelEvent} (silent : ∀ line ∈ lines, line.chunks = []) :
    memory.Shows
      ⟨{ kernel with trace := lines ++ kernel.trace }, held, owned, created, headers⟩ :=
  { shows with
    queue := fun id => by
      have same : Kernel.queue { kernel with trace := lines ++ kernel.trace } id =
          kernel.queue id := by cases id <;> rfl
      rw [same]
      exact shows.queue id
    memoryConnection := by
      have nothing : lines.reverse.flatMap KernelEvent.chunks = [] :=
        List.flatMap_eq_nil_iff.mpr fun line member => silent line (List.mem_reverse.mp member)
      simp [shows.memoryConnection, nothing] }

theorem log (shows : memory.Shows ⟨kernel, held, owned, created, headers⟩) (event : KernelEvent)
    (silent : event.chunks = []) :
    memory.Shows ⟨kernel.log event, held, owned, created, headers⟩ := by
  have lines : ∀ line ∈ [event], line.chunks = [] := fun line member => by
    rw [List.mem_singleton.mp member, silent]
  exact shows.logs lines

/-- The memory knows of no sleep thread that runs. -/
theorem sleepThreads (shows : memory.Shows ⟨kernel, held, owned, created, headers⟩)
    (threads : List SleepThread) :
    memory.Shows ⟨{ kernel with sleepThreads := threads }, held, owned, created, headers⟩ :=
  { shows with
    queue := fun id => by
      have same : Kernel.queue { kernel with sleepThreads := threads } id = kernel.queue id := by
        cases id <;> rfl
      rw [same]
      exact shows.queue id }

/-- The CPU reads from the connection. -/
theorem receive (shows : memory.Shows ⟨kernel, held, owned, created, headers⟩)
    (rest : List (OperationCode × Pcb)) :
    { memory with cpuDispatchConnection := rest }.Shows
      ⟨{ kernel with cpuDispatchConnection := rest }, held, owned, created, headers⟩ :=
  { shows with
    queue := fun id => by
      have same : Kernel.queue { kernel with cpuDispatchConnection := rest } id =
          kernel.queue id := by cases id <;> rfl
      rw [same]
      exact shows.queue id
    cpuDispatchConnection := rfl }

theorem createThread (shows : memory.Shows ⟨kernel, held, owned, created, headers⟩)
    (thread : PcbPointer × Int32) :
    { memory with createdThreads := memory.createdThreads ++ [thread] }.Shows
      ⟨kernel, held, owned, created ++ [thread], headers⟩ :=
  { shows with createdThreads := congrArg (· ++ [thread]) shows.createdThreads }

theorem sendInterrupt (shows : memory.Shows ⟨kernel, held, owned, created, headers⟩) :
    { memory with interruptHeaders := memory.interruptHeaders + 1 }.Shows
      ⟨kernel, held, owned, created, headers + 1⟩ :=
  { shows with interruptHeaders := congrArg (· + 1) shows.interruptHeaders }

theorem nextId (shows : memory.Shows ⟨kernel, held, owned, created, headers⟩) :
    { memory with idToAssign := memory.idToAssign + 1 }.Shows
      ⟨{ kernel with idToAssign := kernel.idToAssign + 1 }, held, owned, created, headers⟩ :=
  { shows with
    queue := fun id => by
      have same : Kernel.queue { kernel with idToAssign := kernel.idToAssign + 1 } id =
          kernel.queue id := by cases id <;> rfl
      rw [same]
      exact shows.queue id
    idToAssign := congrArg (· + 1) shows.idToAssign }

/-- The whole of a message to memory. -/
theorem sendToMemory (shows : memory.Shows ⟨kernel, held, owned, created, headers⟩)
    (header : OperationCode) (pcb : Pcb) :
    { memory with memoryConnection :=
        memory.memoryConnection ++ [Chunk.header header, .length pcb, .payload pcb] }.Shows
      ⟨kernel.sendToMemory header pcb, held, owned, created, headers⟩ :=
  { shows with
    queue := fun id => by
      rw [Kernel.sendToMemory, Kernel.queue_log]
      exact shows.queue id
    memoryConnection := by
      simp [Kernel.sendToMemory, shows.memoryConnection, KernelEvent.chunks] }

/-- A message to the CPU. -/
theorem sendToCpu (shows : memory.Shows ⟨kernel, held, owned, created, headers⟩)
    (header : OperationCode) (pcb : Pcb) :
    { memory with cpuDispatchConnection := memory.cpuDispatchConnection ++ [(header, pcb)] }.Shows
      ⟨kernel.sendToCpu header pcb, held, owned, created, headers⟩ :=
  { shows with
    queue := fun id => by
      have same : (kernel.sendToCpu header pcb).queue id = kernel.queue id := by cases id <;> rfl
      rw [same]
      exact shows.queue id
    cpuDispatchConnection := congrArg (· ++ [(header, pcb)]) shows.cpuDispatchConnection
    memoryConnection := by
      simp [shows.memoryConnection, KernelEvent.chunks] }

/-- The instances get other values. -/
theorem instances (shows : memory.Shows ⟨kernel, held, owned, created, headers⟩)
    (values : List Int) : { memory with allResourcesInstances := values }.Shows
      ⟨{ kernel with allResourcesInstances := values }, held, owned, created, headers⟩ :=
  { shows with
    queue := fun id => by
      have same : Kernel.queue { kernel with allResourcesInstances := values } id =
          kernel.queue id := by cases id <;> rfl
      rw [same]
      exact shows.queue id
    allResourcesInstances := rfl }

/-- `_modify_resource_instance`. -/
theorem modifyInstance (shows : memory.Shows ⟨kernel, held, owned, created, headers⟩)
    (resource : String) (value : Int) (config : KernelConfig) :
    ∃ after, (Operation.modifyInstance resource value).perform config memory = some after ∧
      after.Shows ⟨kernel.modifyResourceInstance resource value, held, owned, created, headers⟩ := by
  have sameIndex : memory.resourceIndex resource = kernel.resourceIndex resource := by
    rw [resourceIndex, Kernel.resourceIndex, shows.allResources]
  rw [Operation.perform, sameIndex, Kernel.modifyResourceInstance]
  cases kernel.resourceIndex resource with
  | none => exact ⟨memory, rfl, shows⟩
  | some index =>
      rw [← shows.allResourcesInstances]
      exact ⟨_, rfl, shows.instances _⟩

end Memory.Shows

end OsSimulator
