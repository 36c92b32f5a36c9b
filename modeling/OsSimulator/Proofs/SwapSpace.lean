/-
Module: OsSimulator.Proofs.SwapSpace
Purpose: The swap space of the filesystem.  `reserve_swap` returns the list that `handle_swap` emptied, so
  that the blocks it takes belong to nobody; `write_swap` and `handle_swap` truncate the file, so that
  only one block of it is not zero, and `read_swap` gives its caller nothing.
Main exports: TakesFirst, ReservesFirst, AccountsForBlocks, reservations_iff, SwapOperation,
  SwapHistory.step, SwapHistory.KeepsSwap, SwapHistory.LosesNothing, swapFile_iff
-/
import OsSimulator.Filesystem.Swap
import OsSimulator.Lib.Transition

namespace OsSimulator

open Bytes Files

/-! ### Reservations -/

/-- `list_take_and_remove` returns and removes the first elements. -/
def TakesFirst (listTakeAndRemove : List Nat → Nat → List Nat × List Nat) : Prop :=
  ∀ list count, count ≤ list.length → listTakeAndRemove list count = (list.take count, list.drop count)

/-- The reservation returns the first free blocks, and the others stay free. -/
def ReservesFirst (listTakeAndRemove : List Nat → Nat → List Nat × List Nat) (blockSize : Nat)
    (space : SwapSpace) (reserveQuantity : Nat) : Prop :=
  ∃ after, reserveSwap listTakeAndRemove blockSize reserveQuantity space =
      some (space.freeSwapBlocks.take reserveQuantity, after) ∧
    after.freeSwapBlocks = space.freeSwapBlocks.drop reserveQuantity

/-- After the reservations every block of the swap space is free or in one of the lists, and nowhere
    twice. -/
def AccountsForBlocks (listTakeAndRemove : List Nat → Nat → List Nat × List Nat) (blockSize : Nat)
    (totalQuantityBlocks swapQuantityBlocks : Nat) (quantities : List Nat) : Prop :=
  ∃ lists after, reserveAll listTakeAndRemove blockSize quantities
      (openFat totalQuantityBlocks swapQuantityBlocks) = some (lists, after) ∧
    ∀ block < swapQuantityBlocks, (after.freeSwapBlocks ++ lists.flatten).count block = 1

variable {listTakeAndRemove : List Nat → Nat → List Nat × List Nat} {blockSize : Nat}
  {space after : SwapSpace} {swapBlocks rest : List Nat} {blocksFile cleared : List UInt8}

/-- The loop takes every block out of the list. -/
theorem handleSwapLoop_empties
    (ended : handleSwapLoop blockSize swapBlocks.length swapBlocks blocksFile = some (cleared, rest)) :
    rest = [] := by
  induction swapBlocks generalizing blocksFile with
  | nil =>
      obtain ⟨_, rfl⟩ := Prod.mk.inj (Option.some.inj ended)
      rfl
  | cons swap swapBlocks ih =>
      obtain ⟨written, _, ended⟩ := Option.bind_eq_some_iff.mp ended
      exact ih ended

/-- What a reservation returns is empty, and the blocks are not free any more. -/
theorem reserveSwap_spec (takes : TakesFirst listTakeAndRemove) {reserveQuantity : Nat}
    (within : reserveQuantity ≤ space.freeSwapBlocks.length)
    (reserved : reserveSwap listTakeAndRemove blockSize reserveQuantity space =
      some (swapBlocks, after)) :
    swapBlocks = [] ∧ after.freeSwapBlocks = space.freeSwapBlocks.drop reserveQuantity := by
  rw [reserveSwap, takes _ _ within] at reserved
  obtain ⟨⟨cleared, left⟩, ended, reserved⟩ := Option.bind_eq_some_iff.mp reserved
  obtain ⟨rfl, rfl⟩ := Prod.mk.inj (Option.some.inj reserved)
  exact ⟨handleSwapLoop_empties ended, rfl⟩

/-- A reservation of no block truncates the file. -/
theorem reserveSwap_zero (takes : TakesFirst listTakeAndRemove) (blockSize : Nat)
    (space : SwapSpace) :
    reserveSwap listTakeAndRemove blockSize 0 space = some ([], { space with blocksFile := [] }) := by
  rw [reserveSwap, takes _ _ (Nat.zero_le _)]
  rfl

theorem reservesFirst_iff (takes : TakesFirst listTakeAndRemove) {reserveQuantity : Nat}
    (within : reserveQuantity ≤ space.freeSwapBlocks.length) :
    ReservesFirst listTakeAndRemove blockSize space reserveQuantity ↔ reserveQuantity = 0 := by
  constructor
  · rintro ⟨after, reserved, _⟩
    have length := congrArg List.length (reserveSwap_spec takes within reserved).1
    rw [List.length_take, List.length_nil] at length
    omega
  · rintro rfl
    exact ⟨_, reserveSwap_zero takes blockSize space, rfl⟩

/-- Reservations return nothing, and use up the free blocks. -/
theorem reserveAll_spec (takes : TakesFirst listTakeAndRemove) {quantities : List Nat}
    {lists : List (List Nat)} (within : quantities.sum ≤ space.freeSwapBlocks.length)
    (reserved : reserveAll listTakeAndRemove blockSize quantities space = some (lists, after)) :
    lists.flatten = [] ∧ after.freeSwapBlocks = space.freeSwapBlocks.drop quantities.sum := by
  induction quantities generalizing space lists with
  | nil =>
      obtain ⟨rfl, rfl⟩ := Prod.mk.inj (Option.some.inj reserved)
      exact ⟨rfl, rfl⟩
  | cons quantity quantities ih =>
      rw [List.sum_cons] at within ⊢
      obtain ⟨⟨swapBlocks, between⟩, first, reserved⟩ := Option.bind_eq_some_iff.mp reserved
      obtain ⟨⟨others, last⟩, more, reserved⟩ := Option.bind_eq_some_iff.mp reserved
      obtain ⟨rfl, rfl⟩ := Prod.mk.inj (Option.some.inj reserved)
      obtain ⟨empty, left⟩ := reserveSwap_spec takes (by omega) first
      obtain ⟨noOthers, leftLast⟩ := ih (by rw [left, List.length_drop]; omega) more
      rw [List.flatten_cons, empty, noOthers, leftLast, left, List.drop_drop]
      exact ⟨rfl, rfl⟩

theorem reserveAll_zeros (takes : TakesFirst listTakeAndRemove) (blockSize : Nat)
    {quantities : List Nat} (zeros : ∀ quantity ∈ quantities, quantity = 0) (space : SwapSpace) :
    ∃ lists after, reserveAll listTakeAndRemove blockSize quantities space = some (lists, after) := by
  induction quantities generalizing space with
  | nil => exact ⟨[], space, rfl⟩
  | cons quantity quantities ih =>
      rw [List.forall_mem_cons] at zeros
      obtain ⟨rfl, zeros⟩ := zeros
      obtain ⟨lists, after, more⟩ := ih zeros { space with blocksFile := [] }
      refine ⟨[] :: lists, after, ?_⟩
      rw [reserveAll, reserveSwap_zero takes]
      simp only [Option.bind_eq_bind, Option.bind_some, more, Option.pure_def]

theorem accountsForBlocks_iff (takes : TakesFirst listTakeAndRemove) (blockSize : Nat)
    (totalQuantityBlocks : Nat) {swapQuantityBlocks : Nat} {quantities : List Nat}
    (within : quantities.sum ≤ swapQuantityBlocks) :
    AccountsForBlocks listTakeAndRemove blockSize totalQuantityBlocks swapQuantityBlocks quantities ↔
      ∀ quantity ∈ quantities, quantity = 0 := by
  have initial : (openFat totalQuantityBlocks swapQuantityBlocks).freeSwapBlocks =
      List.range' 0 swapQuantityBlocks := by
    rw [openFat, initializeFreeBlocks, List.nil_append, Nat.sub_zero]
  have enough : quantities.sum ≤
      (openFat totalQuantityBlocks swapQuantityBlocks).freeSwapBlocks.length := by
    rw [initial, List.length_range']
    exact within
  constructor
  · rintro ⟨lists, after, reserved, accounted⟩ quantity member
    obtain ⟨noLists, left⟩ := reserveAll_spec takes enough reserved
    by_contra some
    have positive : 0 < quantities.sum :=
      List.sum_pos_iff_exists_pos_nat.mpr ⟨quantity, member, Nat.pos_of_ne_zero some⟩
    have first := accounted 0 (Nat.lt_of_lt_of_le positive within)
    rw [noLists, List.append_nil, left, initial, List.drop_range', List.count_eq_zero.mpr] at first
    · cases first
    · rw [List.mem_range'_1]
      omega
  · intro zeros
    obtain ⟨lists, after, reserved⟩ := reserveAll_zeros takes blockSize zeros
      (openFat totalQuantityBlocks swapQuantityBlocks)
    refine ⟨lists, after, reserved, fun block below => ?_⟩
    obtain ⟨noLists, left⟩ := reserveAll_spec takes enough reserved
    have none : quantities.sum = 0 := List.sum_eq_zero_iff_forall_eq_nat.mpr zeros
    rw [noLists, List.append_nil, left, none, List.drop_zero, initial,
      List.Nodup.count List.nodup_range', if_pos]
    rw [List.mem_range'_1]
    omega

/-- A reservation is right, and after reservations all blocks are accounted for, if and only if no block
    is reserved. -/
theorem reservations_iff (listTakeAndRemove : List Nat → Nat → List Nat × List Nat)
    (takes : TakesFirst listTakeAndRemove) (blockSize : Nat) :
    (∀ space reserveQuantity, reserveQuantity ≤ space.freeSwapBlocks.length →
      (ReservesFirst listTakeAndRemove blockSize space reserveQuantity ↔ reserveQuantity = 0)) ∧
    ∀ totalQuantityBlocks swapQuantityBlocks quantities, quantities.sum ≤ swapQuantityBlocks →
      (AccountsForBlocks listTakeAndRemove blockSize totalQuantityBlocks swapQuantityBlocks quantities ↔
        ∀ quantity ∈ quantities, quantity = 0) :=
  ⟨fun _ _ within => reservesFirst_iff takes within,
    fun totalQuantityBlocks _ _ within =>
      accountsForBlocks_iff takes blockSize totalQuantityBlocks within⟩

theorem reservations_iff_takeDrop :
    (∀ space reserveQuantity, reserveQuantity ≤ space.freeSwapBlocks.length →
      (ReservesFirst (fun list count => (list.take count, list.drop count)) 2 space reserveQuantity ↔
        reserveQuantity = 0)) ∧
    ∀ totalQuantityBlocks swapQuantityBlocks quantities, quantities.sum ≤ swapQuantityBlocks →
      (AccountsForBlocks (fun list count => (list.take count, list.drop count)) 2 totalQuantityBlocks
          swapQuantityBlocks quantities ↔
        ∀ quantity ∈ quantities, quantity = 0) :=
  reservations_iff (fun list count => (list.take count, list.drop count)) (fun _ _ _ => rfl) 2

/-- The first of three blocks. -/
theorem first_block_lost :
    ¬ ReservesFirst (fun list count => (list.take count, list.drop count)) 2
      { freeSwapBlocks := [0, 1, 2], blocksFile := [] } 1 := by
  rintro ⟨after, reserved, _⟩
  have nothing : reserveSwap (fun list count => (list.take count, list.drop count)) 2 1
      { freeSwapBlocks := [0, 1, 2], blocksFile := [] } =
        some ([], { freeSwapBlocks := [1, 2], blocksFile := [0, 0] }) := by decide
  rw [nothing] at reserved
  cases reserved

/-! ### The file of blocks -/

/-- What is done to a block: its value is written, blocks are cleared, or it is read by a caller whose
    variable holds this value. -/
inductive SwapOperation where
  | write (block : Nat) (value : UInt32)
  | clear (blocks : List Nat)
  | read (block : Nat) (value : UInt32)
deriving DecidableEq, Repr

/-- The file, and what was last written to each block, where a block that was cleared holds zero. -/
structure SwapHistory where
  blocksFile : List UInt8
  expected : Nat → Option UInt32

namespace SwapHistory

/-- One operation. -/
def step (blockSize : Nat) (history : SwapHistory) : SwapOperation → Option SwapHistory
  | .write block value => do
      let blocksFile ← writeSwap blockSize (block * blockSize) value history.blocksFile
      return { blocksFile := blocksFile
               expected := fun other => if other = block then some value else history.expected other }
  | .clear blocks => do
      let (blocksFile, _) ← handleSwap blockSize blocks history.blocksFile
      return { blocksFile := blocksFile
               expected := fun other => if other ∈ blocks then some 0 else history.expected other }
  | .read block value => do
      let _ ← readSwap blockSize (block * blockSize) value history.blocksFile
      return history

/-- A write or a clear leaves all other blocks, and a read delivers what was last written to the block. -/
def KeepsSwap (blockSize : Nat) (history : SwapHistory) : SwapOperation → Prop
  | .write written value =>
      ∃ blocksFile, writeSwap blockSize (written * blockSize) value history.blocksFile =
          some blocksFile ∧
        ∀ other ≠ written, block blockSize blocksFile other = block blockSize history.blocksFile other
  | .clear blocks =>
      ∃ blocksFile rest, handleSwap blockSize blocks history.blocksFile = some (blocksFile, rest) ∧
        ∀ other ∉ blocks, block blockSize blocksFile other = block blockSize history.blocksFile other
  | .read number value =>
      ∃ delivered, readSwap blockSize (number * blockSize) value history.blocksFile =
          some delivered ∧
        ∀ last ∈ history.expected number, delivered = last

/-- The block is not larger than the object it is written from or read to; all other blocks are zeros
    before a write or a clear, and the variable of the caller has its value before a read. -/
def LosesNothing (blockSize : Nat) (history : SwapHistory) : SwapOperation → Prop
  | .write written _ =>
      blockSize ≤ 4 ∧
        ∀ other ≠ written,
          block blockSize history.blocksFile other = List.replicate blockSize 0
  | .clear blocks =>
      (blocks = [] ∨ blockSize ≤ 2) ∧
        ∀ other ∉ blocks, block blockSize history.blocksFile other = List.replicate blockSize 0
  | .read number value => blockSize ≤ 4 ∧ ∀ last ∈ history.expected number, value = last

variable {history : SwapHistory} {blocks : List Nat} {written number : Nat} {value : UInt32}

theorem writeSwap_of_le (fits : blockSize ≤ 4) (pointer : Nat) (value : UInt32)
    (blocksFile : List UInt8) :
    writeSwap blockSize pointer value blocksFile =
      some (write [] pointer ((ofWord value).take blockSize)) := by
  rw [writeSwap, fwrite, if_pos (by rw [length_ofWord]; exact fits)]
  rfl

theorem le_of_writeSwap {pointer : Nat} (ended : writeSwap blockSize pointer value blocksFile = some cleared) :
    blockSize ≤ 4 := by
  unfold writeSwap fwrite at ended
  split at ended
  · next fits =>
      rwa [length_ofWord] at fits
  · cases ended

theorem keepsSwap_write_iff :
    KeepsSwap blockSize history (.write written value) ↔
      LosesNothing blockSize history (.write written value) := by
  have others (fits : blockSize ≤ 4) (other : Nat) (different : other ≠ written) :
      block blockSize (write [] (written * blockSize) ((ofWord value).take blockSize)) other =
        List.replicate blockSize 0 := by
    rw [block_write_of_ne (by rw [List.length_take]; omega) different, block_nil]
  constructor
  · rintro ⟨after, ended, kept⟩
    have fits := le_of_writeSwap ended
    rw [writeSwap_of_le fits] at ended
    obtain rfl := Option.some.inj ended
    refine ⟨fits, fun other different => ?_⟩
    rw [← kept other different, others fits other different]
  · rintro ⟨fits, zeros⟩
    refine ⟨_, writeSwap_of_le fits _ _ _, fun other different => ?_⟩
    rw [zeros other different, others fits other different]

/-- The loop leaves the blocks that are not in its list. -/
theorem handleSwapLoop_spec (fits : blockSize ≤ 2) (blocks : List Nat) (blocksFile : List UInt8) :
    ∃ after, handleSwapLoop blockSize blocks.length blocks blocksFile = some (after, []) ∧
      ∀ other ∉ blocks, block blockSize after other = block blockSize blocksFile other := by
  induction blocks generalizing blocksFile with
  | nil => exact ⟨blocksFile, rfl, fun _ _ => rfl⟩
  | cons swap blocks ih =>
      obtain ⟨after, ended, kept⟩ :=
        ih (write blocksFile (swap * blockSize) (([0, 0] : List UInt8).take blockSize))
      refine ⟨after, ?_, fun other apart => ?_⟩
      · rw [List.length_cons, handleSwapLoop, fwrite, if_pos (by exact fits)]
        exact ended
      · rw [List.mem_cons, not_or] at apart
        rw [kept other apart.2, block_write_of_ne (by rw [List.length_take]; omega) apart.1]

theorem le_of_handleSwap {after : List UInt8} (nonempty : blocks ≠ [])
    (ended : handleSwap blockSize blocks blocksFile = some (after, rest)) : blockSize ≤ 2 := by
  obtain ⟨swap, others, rfl⟩ := List.exists_cons_of_ne_nil nonempty
  obtain ⟨written, first, _⟩ := Option.bind_eq_some_iff.mp ended
  unfold fwrite at first
  split at first
  · assumption
  · cases first

theorem handleSwap_spec (fits : blocks = [] ∨ blockSize ≤ 2) (blocksFile : List UInt8) :
    ∃ after, handleSwap blockSize blocks blocksFile = some (after, []) ∧
      ∀ other ∉ blocks, block blockSize after other = List.replicate blockSize 0 := by
  rcases fits with rfl | fits
  · exact ⟨[], rfl, fun other _ => block_nil blockSize other⟩
  · obtain ⟨after, ended, kept⟩ := handleSwapLoop_spec fits blocks []
    refine ⟨after, ended, fun other apart => ?_⟩
    rw [kept other apart, block_nil]

theorem keepsSwap_clear_iff :
    KeepsSwap blockSize history (.clear blocks) ↔ LosesNothing blockSize history (.clear blocks) := by
  constructor
  · rintro ⟨after, rest, ended, kept⟩
    have fits : blocks = [] ∨ blockSize ≤ 2 :=
      or_iff_not_imp_left.mpr fun nonempty => le_of_handleSwap nonempty ended
    obtain ⟨truncated, ended', zeros⟩ := handleSwap_spec fits history.blocksFile
    rw [ended] at ended'
    obtain ⟨rfl, _⟩ := Prod.mk.inj (Option.some.inj ended')
    refine ⟨fits, fun other apart => ?_⟩
    rw [← kept other apart, zeros other apart]
  · rintro ⟨fits, before⟩
    obtain ⟨truncated, ended, zeros⟩ := handleSwap_spec fits history.blocksFile
    refine ⟨truncated, [], ended, fun other apart => ?_⟩
    rw [zeros other apart, before other apart]

/-- The caller's variable keeps its value. -/
theorem readSwap_eq_some_iff {pointer : Nat} {delivered : UInt32} :
    readSwap blockSize pointer value blocksFile = some delivered ↔
      blockSize ≤ 4 ∧ delivered = value := by
  rw [readSwap, fread, length_ofWord]
  by_cases fits : blockSize ≤ 4
  · simp [fits, eq_comm]
  · simp [fits]

theorem keepsSwap_read_iff :
    KeepsSwap blockSize history (.read number value) ↔
      LosesNothing blockSize history (.read number value) := by
  simp only [KeepsSwap, LosesNothing, readSwap_eq_some_iff]
  constructor
  · rintro ⟨_, ⟨fits, rfl⟩, delivers⟩
    exact ⟨fits, delivers⟩
  · rintro ⟨fits, delivers⟩
    exact ⟨value, ⟨fits, rfl⟩, delivers⟩

theorem keepsSwap_iff (operation : SwapOperation) :
    KeepsSwap blockSize history operation ↔ LosesNothing blockSize history operation := by
  cases operation with
  | write => exact keepsSwap_write_iff
  | clear => exact keepsSwap_clear_iff
  | read => exact keepsSwap_read_iff

end SwapHistory

/-- The operations of a run all keep the swap file if and only if none of them has something to lose. -/
theorem swapFile_iff (blockSize : Nat) (history : SwapHistory) (operations : List SwapOperation) :
    Transition.Meets (SwapHistory.step blockSize) (SwapHistory.KeepsSwap blockSize) history
        operations ↔
      Transition.Meets (SwapHistory.step blockSize) (SwapHistory.LosesNothing blockSize) history
        operations := by
  have same : SwapHistory.KeepsSwap blockSize = SwapHistory.LosesNothing blockSize := by
    funext history operation
    exact propext (SwapHistory.keepsSwap_iff operation)
  rw [same]

/-- The second of two writes to a new file. -/
theorem first_write_lost :
    ¬ Transition.Meets (SwapHistory.step 4) (SwapHistory.KeepsSwap 4)
      { blocksFile := [], expected := fun _ => none } [.write 0 7, .write 1 9] := by
  rintro ⟨_, ⟨_, ended, kept⟩, _⟩
  obtain rfl := Option.some.inj ended
  have lost := kept 0 (by decide)
  revert lost
  decide

end OsSimulator
