/-
Module: OsSimulator.Proofs.WakeOrder
Purpose: Which processes `check_process_in_blocked_and_send_to_ready` moves, and in which order.  The
  inner loop removes from the queue that it indexes: after each process that it moves it passes over
  the next one, so that of several waiting processes it takes every second.
Main exports: everySecond, Kernel.MovesAll, Kernel.checkProcessInBlockedAndSendToReady_moves,
  Kernel.WakesFirst, wakesFirst_iff
-/
import OsSimulator.Proofs.Accounting
import OsSimulator.Proofs.Steps

namespace OsSimulator

/-! ### The inner loop on a list -/

/-- What the inner loop moves, and what it leaves, of the queue from its index on, with so many turns
    to go. -/
def everySecond {α : Type} : Nat → List α → List α × List α
  | 0, queue => ([], queue)
  | _ + 1, [] => ([], [])
  | _ + 1, [process] => ([process], [])
  | turns + 1, process :: passedOver :: rest =>
      let (moved, left) := everySecond turns rest
      (process :: moved, passedOver :: left)

section Lists

variable {α : Type}

@[simp] theorem everySecond_nil (turns : Nat) : everySecond turns ([] : List α) = ([], []) := by
  cases turns <;> rfl

/-- After the process at the index was removed, the loop goes on behind the next one. -/
theorem everySecond_succ (turns : Nat) (process : α) (rest : List α) :
    everySecond (turns + 1) (process :: rest) =
      (process :: (everySecond turns rest.tail).1, rest.take 1 ++ (everySecond turns rest.tail).2) := by
  cases rest with
  | nil => simp [everySecond]
  | cons passedOver rest => rfl

/-- With one turn, or one process, it is the first that is moved. -/
theorem everySecond_of_le_one {turns : Nat} {queue : List α}
    (few : turns ≤ 1 ∨ queue.length ≤ 1) :
    everySecond turns queue = (queue.take turns, queue.drop turns) := by
  cases turns with
  | zero => rfl
  | succ turns =>
      match queue with
      | [] => simp
      | [process] => simp [everySecond]
      | process :: passedOver :: rest =>
          obtain rfl : turns = 0 := by
            simp only [List.length_cons] at few
            omega
          rfl

/-- Otherwise the second process stays, although it should have been moved. -/
theorem few_of_everySecond {turns : Nat} {queue : List α} (distinct : queue.Nodup)
    (first : (everySecond turns queue).2 = queue.drop turns) : turns ≤ 1 ∨ queue.length ≤ 1 := by
  match turns, queue with
  | 0, _ | 1, _ => exact .inl (by omega)
  | _ + 2, [] | _ + 2, [_] => exact .inr (by simp)
  | turns + 2, process :: passedOver :: rest =>
      have stays : passedOver ∈ (everySecond (turns + 2) (process :: passedOver :: rest)).2 :=
        List.mem_cons_self
      rw [first] at stays
      have inRest : passedOver ∈ rest := List.mem_of_mem_drop stays
      rw [List.nodup_cons, List.nodup_cons] at distinct
      exact absurd inRest distinct.2.1

/-- What the loop goes on with once the element at its index was removed. -/
theorem after_removal {position : Nat} {queue rest : List α} {process : α}
    (ahead : queue.drop position = process :: rest) :
    (queue.take position ++ rest).drop (position + 1) = rest.tail ∧
      (queue.take position ++ rest).take (position + 1) = queue.take position ++ rest.take 1 ∧
      (queue.take position ++ rest).length + 1 = queue.length := by
  have lengths := congrArg List.length ahead
  rw [List.length_drop, List.length_cons] at lengths
  have at_position : (queue.take position).length = position := by
    rw [List.length_take]
    omega
  refine ⟨?_, ?_, ?_⟩
  · rw [List.drop_append, at_position, List.drop_eq_nil_of_le (by omega)]
    simp
  · rw [List.take_append, at_position, List.take_of_length_le (by omega)]
    simp
  · rw [List.length_append, at_position]
    omega

end Lists

namespace Kernel

/-! ### One queue -/

/-- The processes `moved` have gone from the blocked queue to the end of `queue_ready`, `left` have
    stayed. -/
structure Moves (index : Nat) (moved left : List Pcb) (before after : Kernel) : Prop where
  queueReady : after.queueReady = before.queueReady ++ moved.map (·.setState .ready)
  listOfQueueBlocked : after.listOfQueueBlocked = before.listOfQueueBlocked.set index left
  allResourcesInstances : after.allResourcesInstances = before.allResourcesInstances
  semBlocked : after.sem .processBlocked + moved.length = before.sem .processBlocked

variable {kernel next : Kernel} {index position fuel : Nat} {available : Int}

theorem queue_of_inside (inside : index < kernel.listOfQueueBlocked.length) :
    kernel.listOfQueueBlocked[index] = kernel.queue (.blocked index) := by
  rw [queue_blocked, List.getD_eq_getElem?_getD, List.getElem?_eq_getElem inside, Option.getD_some]

/-- A queue of which nothing is taken. -/
theorem Moves.refl (inside : index < kernel.listOfQueueBlocked.length) :
    Moves index [] (kernel.queue (.blocked index)) kernel kernel where
  queueReady := (List.append_nil _).symm
  listOfQueueBlocked := by rw [← queue_of_inside inside, List.set_getElem_self]
  allResourcesInstances := rfl
  semBlocked := rfl

theorem Moves.queue {moved left : List Pcb} (moves : Moves index moved left kernel next)
    (inside : index < kernel.listOfQueueBlocked.length) : next.queue (.blocked index) = left := by
  rw [queue_blocked, moves.listOfQueueBlocked, List.getD_eq_getElem?_getD,
    List.getElem?_set_self inside]
  rfl

theorem Moves.queue_ne {moved left : List Pcb} (moves : Moves index moved left kernel next)
    {other : Nat} (different : other ≠ index) :
    next.queue (.blocked other) = kernel.queue (.blocked other) := by
  rw [queue_blocked, queue_blocked, moves.listOfQueueBlocked, List.getD_eq_getElem?_getD,
    List.getElem?_set_ne different.symm, List.getD_eq_getElem?_getD]

theorem Moves.length {moved left : List Pcb} (moves : Moves index moved left kernel next) :
    next.listOfQueueBlocked.length = kernel.listOfQueueBlocked.length := by
  rw [moves.listOfQueueBlocked, List.length_set]

/-- A token is all that `move_process_from_block_to_ready` needs for a process of the queue. -/
theorem moveProcessFromBlockToReady_isSome {process : Pcb}
    (found : (kernel.queue (.blocked index))[position]? = some process)
    (token : 0 < kernel.sem .processBlocked) :
    ∃ next, kernel.moveProcessFromBlockToReady position index = some next := by
  simp [moveProcessFromBlockToReady, found, semWait, queuePush, token]

/-- One turn of the inner loop moves the process at its index. -/
theorem turn_moves {process : Pcb} {rest : List Pcb}
    (ahead : (kernel.queue (.blocked index)).drop position = process :: rest)
    (moved : kernel.moveProcessFromBlockToReady position index = some next) :
    Moves index [process] ((kernel.queue (.blocked index)).take position ++ rest) kernel next := by
  obtain ⟨found, at_index, wakes, _, blocked⟩ := moveProcessFromBlockToReady_wakes moved
  obtain rfl : found = process := by
    have head := congrArg List.head? ahead
    rw [List.head?_drop, at_index] at head
    exact Option.some.inj head
  have erased : (kernel.queue (.blocked index)).eraseIdx position =
      (kernel.queue (.blocked index)).take position ++ rest := by
    rw [List.eraseIdx_eq_take_drop_succ, ← List.tail_drop, ahead, List.tail_cons]
  exact
    { queueReady := wakes.queueReady
      listOfQueueBlocked := by rw [blocked, erased]
      allResourcesInstances := wakes.allResourcesInstances
      semBlocked := wakes.semBlocked }

theorem Moves.trans {moved more left rest : List Pcb} {last : Kernel}
    (one : Moves index moved left kernel next) (two : Moves index more rest next last) :
    Moves index (moved ++ more) rest kernel last where
  queueReady := by rw [two.queueReady, one.queueReady, List.map_append, List.append_assoc]
  listOfQueueBlocked := by rw [two.listOfQueueBlocked, one.listOfQueueBlocked, List.set_set]
  allResourcesInstances := two.allResourcesInstances.trans one.allResourcesInstances
  semBlocked := by
    have first := one.semBlocked
    have second := two.semBlocked
    rw [List.length_append]
    omega

/-- The condition of the inner loop: there are turns to go, and processes from the index on. -/
theorem lt_getMinimun_iff {queue : List Pcb} :
    (position : Int) < getMinimun available queue.length ↔
      0 < (available - position).toNat ∧ queue.drop position ≠ [] := by
  rw [getMinimun, ne_eq, List.drop_eq_nil_iff]
  split <;> omega

theorem turns_of_lt {turns : Nat} (turnsLeft : 0 < (available - position).toNat)
    (turns_eq : (available - position).toNat = turns) :
    ∃ fewer, turns = fewer + 1 ∧ (available - (position + 1 : Nat)).toNat = fewer :=
  ⟨turns - 1, by omega, by omega⟩

/-- The inner loop moves every second process from its index on. -/
theorem wakeLoop_moves {turns : Nat} (inside : index < kernel.listOfQueueBlocked.length)
    (turns_eq : (available - position).toNat = turns)
    (enough : (kernel.queue (.blocked index)).length ≤ position + fuel)
    (ran : kernel.wakeLoop index available fuel position = some next) :
    Moves index (everySecond turns ((kernel.queue (.blocked index)).drop position)).1
      ((kernel.queue (.blocked index)).take position ++
        (everySecond turns ((kernel.queue (.blocked index)).drop position)).2) kernel next := by
  induction fuel generalizing kernel position turns with
  | zero =>
      obtain rfl := Option.some.inj ran
      rw [Nat.add_zero] at enough
      rw [List.drop_eq_nil_of_le enough, everySecond_nil, List.append_nil,
        List.take_of_length_le enough]
      exact .refl inside
  | succ fuel ih =>
      rw [wakeLoop] at ran
      split at ran
      · rename_i goesOn
        obtain ⟨turnsLeft, nonempty⟩ := lt_getMinimun_iff.mp goesOn
        obtain ⟨process, rest, ahead⟩ := List.exists_cons_of_ne_nil nonempty
        obtain ⟨fewer, rfl, fewer_eq⟩ := turns_of_lt turnsLeft turns_eq
        obtain ⟨middle, moved, ranRest⟩ := Option.bind_eq_some_iff.mp ran
        obtain ⟨dropped, taken, shorter⟩ := after_removal ahead
        have one := turn_moves ahead moved
        have two := ih (one.length ▸ inside) fewer_eq (by rw [one.queue inside]; omega) ranRest
        rw [one.queue inside, dropped, taken] at two
        rw [ahead, everySecond_succ, ← List.append_assoc]
        exact one.trans two
      · rename_i stops
        obtain rfl := Option.some.inj ran
        have nothing : everySecond turns ((kernel.queue (.blocked index)).drop position) =
            ([], (kernel.queue (.blocked index)).drop position) := by
          rw [lt_getMinimun_iff, not_and_or, not_not, turns_eq] at stops
          rcases stops with noTurns | empty
          · obtain rfl : turns = 0 := by omega
            rfl
          · rw [empty, everySecond_nil]
        rw [nothing, List.take_append_drop]
        exact .refl inside

/-- With a token for every process that it moves, the inner loop comes to its end. -/
theorem wakeLoop_isSome {turns : Nat} (inside : index < kernel.listOfQueueBlocked.length)
    (turns_eq : (available - position).toNat = turns)
    (tokens : (everySecond turns ((kernel.queue (.blocked index)).drop position)).1.length ≤
      kernel.sem .processBlocked) :
    ∃ next, kernel.wakeLoop index available fuel position = some next := by
  induction fuel generalizing kernel position turns with
  | zero => exact ⟨kernel, rfl⟩
  | succ fuel ih =>
      rw [wakeLoop]
      split
      · rename_i goesOn
        obtain ⟨turnsLeft, nonempty⟩ := lt_getMinimun_iff.mp goesOn
        obtain ⟨process, rest, ahead⟩ := List.exists_cons_of_ne_nil nonempty
        obtain ⟨fewer, rfl, fewer_eq⟩ := turns_of_lt turnsLeft turns_eq
        rw [ahead, everySecond_succ, List.length_cons] at tokens
        have found : (kernel.queue (.blocked index))[position]? = some process := by
          rw [← List.head?_drop, ahead]
          rfl
        obtain ⟨middle, moved⟩ := moveProcessFromBlockToReady_isSome found (by omega)
        have one := turn_moves ahead moved
        have left := one.semBlocked
        rw [List.length_singleton] at left
        rw [moved, Option.bind_some]
        apply ih (one.length ▸ inside) fewer_eq
        rw [one.queue inside, (after_removal ahead).1]
        omega
      · exact ⟨kernel, rfl⟩

/-! ### All queues -/

/-- What one turn of the outer loop moves and leaves. -/
def split (kernel : Kernel) (index : Nat) : List Pcb × List Pcb :=
  everySecond (kernel.allResourcesInstances.getD index 0).toNat (kernel.queue (.blocked index))

theorem wakeQueue_moves (inside : index < kernel.listOfQueueBlocked.length)
    (ran : kernel.wakeQueue index = some next) :
    Moves index (kernel.split index).1 (kernel.split index).2 kernel next := by
  rw [wakeQueue] at ran
  split at ran
  · exact wakeLoop_moves inside (congrArg Int.toNat (Int.sub_zero _)) (by omega) ran
  · rename_i nothing
    obtain rfl := Option.some.inj ran
    have same : kernel.split index = ([], kernel.queue (.blocked index)) := by
      rw [Kernel.split]
      rcases not_and_or.mp nothing with empty | none_
      · rw [List.length_eq_zero_iff.mp (Nat.eq_zero_of_not_pos empty), everySecond_nil]
      · rw [Int.toNat_of_nonpos (not_lt.mp none_)]
        rfl
    rw [same]
    exact .refl inside

theorem wakeQueue_isSome (inside : index < kernel.listOfQueueBlocked.length)
    (tokens : (kernel.split index).1.length ≤ kernel.sem .processBlocked) :
    ∃ next, kernel.wakeQueue index = some next := by
  rw [wakeQueue]
  split
  · exact wakeLoop_isSome inside (congrArg Int.toNat (Int.sub_zero _)) tokens
  · exact ⟨kernel, rfl⟩

/-- The queues at these indices have been split. -/
structure MovesAll (indices : List Nat) (before after : Kernel) : Prop where
  queueReady : after.queueReady = before.queueReady ++
    indices.flatMap fun index => (before.split index).1.map (·.setState .ready)
  queue : ∀ index, after.queue (.blocked index) =
    if index ∈ indices then (before.split index).2 else before.queue (.blocked index)
  length : after.listOfQueueBlocked.length = before.listOfQueueBlocked.length
  semBlocked : after.sem .processBlocked +
    (indices.map fun index => (before.split index).1.length).sum = before.sem .processBlocked

/-- One turn leaves the other queues, and what is moved of them. -/
theorem Moves.split_ne {moved left : List Pcb} (moves : Moves index moved left kernel next)
    {other : Nat} (different : other ≠ index) : next.split other = kernel.split other := by
  rw [Kernel.split, Kernel.split, moves.queue_ne different, moves.allResourcesInstances]

theorem wakeQueues_moves {indices : List Nat} (distinct : indices.Nodup)
    (inside : ∀ index ∈ indices, index < kernel.listOfQueueBlocked.length)
    (ran : indices.foldlM wakeQueue kernel = some next) : MovesAll indices kernel next := by
  induction indices generalizing kernel with
  | nil =>
      obtain rfl := Option.some.inj ran
      exact ⟨by simp, by simp, rfl, by simp⟩
  | cons index indices ih =>
      rw [List.foldlM_cons] at ran
      obtain ⟨middle, ranOne, ranRest⟩ := Option.bind_eq_some_iff.mp ran
      rw [List.nodup_cons] at distinct
      have here := inside index List.mem_cons_self
      have one := wakeQueue_moves here ranOne
      have rest := ih distinct.2
        (fun other member => one.length ▸ inside other (List.mem_cons_of_mem _ member)) ranRest
      have same : ∀ other ∈ indices, middle.split other = kernel.split other := fun other member =>
        one.split_ne fun isIndex => distinct.1 (isIndex ▸ member)
      refine ⟨?_, fun other => ?_, rest.length.trans one.length, ?_⟩
      · rw [rest.queueReady, one.queueReady, List.flatMap_cons, List.append_assoc]
        congr 2
        apply List.flatMap_congr
        intro other member
        rw [same other member]
      · rw [rest.queue]
        by_cases isIndex : other = index
        · subst isIndex
          rw [if_neg distinct.1, if_pos List.mem_cons_self, one.queue here]
        · rw [one.queue_ne isIndex, one.split_ne isIndex]
          simp [isIndex]
      · have left := one.semBlocked
        have leftRest := rest.semBlocked
        rw [List.map_congr_left fun other member => by rw [same other member]] at leftRest
        rw [List.map_cons, List.sum_cons]
        omega

theorem wakeQueues_isSome {indices : List Nat} (distinct : indices.Nodup)
    (inside : ∀ index ∈ indices, index < kernel.listOfQueueBlocked.length)
    (tokens : (indices.map fun index => (kernel.split index).1.length).sum ≤
      kernel.sem .processBlocked) :
    ∃ next, indices.foldlM wakeQueue kernel = some next := by
  induction indices generalizing kernel with
  | nil => exact ⟨kernel, rfl⟩
  | cons index indices ih =>
      rw [List.map_cons, List.sum_cons] at tokens
      rw [List.nodup_cons] at distinct
      have here := inside index List.mem_cons_self
      obtain ⟨middle, ranOne⟩ := wakeQueue_isSome here (by omega)
      have one := wakeQueue_moves here ranOne
      have left := one.semBlocked
      have same : ∀ other ∈ indices, middle.split other = kernel.split other := fun other member =>
        one.split_ne fun isIndex => distinct.1 (isIndex ▸ member)
      obtain ⟨next, ranRest⟩ := ih distinct.2
        (fun other member => one.length ▸ inside other (List.mem_cons_of_mem _ member)) (by
          rw [List.map_congr_left fun other member => by rw [same other member]]
          omega)
      exact ⟨next, by rw [List.foldlM_cons]; exact Option.bind_eq_some_iff.mpr ⟨middle, ranOne, ranRest⟩⟩

/-- What `check_process_in_blocked_and_send_to_ready` moves and leaves, over all resources. -/
theorem checkProcessInBlockedAndSendToReady_moves
    (ran : kernel.checkProcessInBlockedAndSendToReady = some next) :
    MovesAll (List.range kernel.listOfQueueBlocked.length) kernel next :=
  wakeQueues_moves List.nodup_range (fun _ => List.mem_range.mp) ran

/-- How many of the processes that wait for a resource there are instances for. -/
def servable (kernel : Kernel) (index : Nat) : Nat :=
  min (kernel.allResourcesInstances.getD index 0).toNat (kernel.queue (.blocked index)).length

/-- For each resource the first processes of its queue, as many as there are instances for, have gone
    to the end of `queue_ready` in state `READY`, and the others have stayed. -/
def WakesFirst (kernel next : Kernel) : Prop :=
  next.queueReady = kernel.queueReady ++
      (List.range kernel.listOfQueueBlocked.length).flatMap (fun index =>
        ((kernel.queue (.blocked index)).take (kernel.servable index)).map (·.setState .ready)) ∧
    ∀ index < kernel.listOfQueueBlocked.length,
      next.queue (.blocked index) = (kernel.queue (.blocked index)).drop (kernel.servable index)

theorem take_servable (kernel : Kernel) (index : Nat) :
    (kernel.queue (.blocked index)).take (kernel.servable index) =
      (kernel.queue (.blocked index)).take (kernel.allResourcesInstances.getD index 0).toNat := by
  rw [servable]
  rcases Nat.le_total (kernel.allResourcesInstances.getD index 0).toNat
    (kernel.queue (.blocked index)).length with fewer | more
  · rw [Nat.min_eq_left fewer]
  · rw [Nat.min_eq_right more, List.take_length, List.take_of_length_le more]

theorem drop_servable (kernel : Kernel) (index : Nat) :
    (kernel.queue (.blocked index)).drop (kernel.servable index) =
      (kernel.queue (.blocked index)).drop (kernel.allResourcesInstances.getD index 0).toNat := by
  rw [servable]
  rcases Nat.le_total (kernel.allResourcesInstances.getD index 0).toNat
    (kernel.queue (.blocked index)).length with fewer | more
  · rw [Nat.min_eq_left fewer]
  · rw [Nat.min_eq_right more, List.drop_length, List.drop_eq_nil_of_le more]

/-- Where one instance or one process is all there is, the loop moves the first ones. -/
theorem split_of_few {index : Nat} (few : kernel.allResourcesInstances.getD index 0 ≤ 1 ∨
      (kernel.queue (.blocked index)).length ≤ 1) :
    kernel.split index = ((kernel.queue (.blocked index)).take (kernel.servable index),
      (kernel.queue (.blocked index)).drop (kernel.servable index)) := by
  rw [take_servable, drop_servable]
  exact everySecond_of_le_one (few.imp_left fun one => by omega)

section Few

variable (few : ∀ index < kernel.listOfQueueBlocked.length,
  kernel.allResourcesInstances.getD index 0 ≤ 1 ∨ (kernel.queue (.blocked index)).length ≤ 1)

include few

theorem map_length_split_of_few :
    ((List.range kernel.listOfQueueBlocked.length).map fun index =>
      (kernel.split index).1.length) =
        (List.range kernel.listOfQueueBlocked.length).map kernel.servable := by
  apply List.map_congr_left
  intro index member
  rw [split_of_few (few index (List.mem_range.mp member)), List.length_take]
  exact Nat.min_eq_left (Nat.min_le_right ..)

theorem MovesAll.wakesFirst
    (moves : MovesAll (List.range kernel.listOfQueueBlocked.length) kernel next) :
    kernel.WakesFirst next := by
  refine ⟨?_, fun index inside => ?_⟩
  · rw [moves.queueReady]
    congr 1
    apply List.flatMap_congr
    intro index member
    rw [split_of_few (few index (List.mem_range.mp member))]
  · rw [moves.queue, if_pos (List.mem_range.mpr inside), split_of_few (few index inside)]

end Few

/-- Where the first ones were moved, the loop had no second process to pass over. -/
theorem MovesAll.few_of_wakesFirst
    (moves : MovesAll (List.range kernel.listOfQueueBlocked.length) kernel next)
    (distinct : ∀ queue ∈ kernel.listOfQueueBlocked, queue.Nodup)
    (wakes : kernel.WakesFirst next) (inside : index < kernel.listOfQueueBlocked.length) :
    kernel.allResourcesInstances.getD index 0 ≤ 1 ∨
      (kernel.queue (.blocked index)).length ≤ 1 := by
  have left := moves.queue index
  rw [if_pos (List.mem_range.mpr inside), wakes.2 index inside, drop_servable] at left
  have nodup : (kernel.queue (.blocked index)).Nodup := by
    rw [← queue_of_inside inside]
    exact distinct _ (List.getElem_mem inside)
  exact (few_of_everySecond nodup left.symm).imp_left fun one => by omega

end Kernel

/-- The right processes are woken if and only if every resource with more than one available instance
    has at most one process waiting, and there is a token for each process to be moved. -/
theorem wakesFirst_iff (kernel : Kernel)
    (distinct : ∀ queue ∈ kernel.listOfQueueBlocked, queue.Nodup) :
    (∃ next, kernel.checkProcessInBlockedAndSendToReady = some next ∧ kernel.WakesFirst next) ↔
      (∀ index < kernel.listOfQueueBlocked.length,
          kernel.allResourcesInstances.getD index 0 ≤ 1 ∨
            (kernel.queue (.blocked index)).length ≤ 1) ∧
        ((List.range kernel.listOfQueueBlocked.length).map kernel.servable).sum ≤
          kernel.sem .processBlocked := by
  constructor
  · rintro ⟨next, ran, wakes⟩
    have moves := Kernel.checkProcessInBlockedAndSendToReady_moves ran
    have few := fun index (inside : index < kernel.listOfQueueBlocked.length) =>
      moves.few_of_wakesFirst distinct wakes inside
    refine ⟨few, ?_⟩
    have taken := moves.semBlocked
    rw [Kernel.map_length_split_of_few few] at taken
    omega
  · rintro ⟨few, tokens⟩
    rw [← Kernel.map_length_split_of_few few] at tokens
    obtain ⟨next, ran⟩ :=
      Kernel.wakeQueues_isSome List.nodup_range (fun _ => List.mem_range.mp) tokens
    exact ⟨next, ran, (Kernel.checkProcessInBlockedAndSendToReady_moves ran).wakesFirst few⟩

/-- A kernel with so many instances of one resource, and processes that wait for it. -/
def oneResource (instances : Int) (waiting : List UInt32) : Kernel :=
  { Kernel.init fifoConfig with
    listOfQueueBlocked :=
      [waiting.map fun pid => (createPcb pid "PLANI_1" 0 0).setState .blocked]
    allResources := ["REC1"]
    allResourcesInstances := [instances]
    sem := fun _ => waiting.length }

/-- Three processes wait for the one instance of a resource, and one process for the two instances of
    another one. -/
def threeAndOne : Kernel :=
  { Kernel.init fifoConfig with
    listOfQueueBlocked :=
      [[1, 2, 3].map fun pid => (createPcb pid "PLANI_1" 0 0).setState .blocked,
        [4].map fun pid => (createPcb pid "PLANI_1" 0 0).setState .blocked]
    allResources := ["REC1", "REC2"]
    allResourcesInstances := [1, 2]
    sem := fun _ => 4 }

theorem wakesFirst_iff_threeAndOne :
    ∃ next, threeAndOne.checkProcessInBlockedAndSendToReady = some next ∧
      threeAndOne.WakesFirst next :=
  (wakesFirst_iff threeAndOne (by decide)).mpr (by decide)

/-- Of two processes that wait for a resource with two instances only the first one is woken. -/
theorem wakes_first_of_two :
    ¬ ∃ next, (oneResource 2 [1, 2]).checkProcessInBlockedAndSendToReady = some next ∧
      (oneResource 2 [1, 2]).WakesFirst next := by
  rintro ⟨next, ran, _, stay⟩
  have left : ((oneResource 2 [1, 2]).checkProcessInBlockedAndSendToReady.map fun kernel =>
      (kernel.queue (.blocked 0)).map Pcb.pid) = some [2] := by decide
  rw [ran, Option.map_some, stay 0 (by decide)] at left
  exact absurd left (by decide)

end OsSimulator
