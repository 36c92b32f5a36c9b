/-
Module: OsSimulator.Proofs.MainMemory
Purpose: When `read_memory` and `write_memory` behave as a memory.  `write_memory` takes the address of
  the variable `main_memory` for the address of the block: at address 0 it overwrites the pointer, and
  anywhere else it leaves the variable.
Main exports: MainMemory.BehavesAsMemory, MainMemory.writeMemory_eq_some_iff, behavesAsMemory_iff,
  handleWriteMemory_clears_pointer
-/
import OsSimulator.Lib.Transition
import OsSimulator.Memory.MainMemory

namespace OsSimulator

open Bytes Transition

/-- The four bytes of the call are in a memory of this size. -/
def MemoryAccess.InMemory (memorySize : Nat) (call : MemoryAccess) : Prop :=
  0 ≤ call.address.toInt ∧ call.address.toInt + 4 ≤ memorySize

instance (memorySize : Nat) (call : MemoryAccess) : Decidable (call.InMemory memorySize) :=
  inferInstanceAs (Decidable (_ ∧ _))

/-- The call writes to one of the four bytes at the address. -/
def MemoryAccess.Overlaps (address : Int32) : MemoryAccess → Prop
  | .read _ => False
  | .write other _ => other.toInt < address.toInt + 4 ∧ address.toInt < other.toInt + 4

namespace MainMemory

/-- All calls complete, what was last written to an address is what is read from it, a write changes
    the four bytes at its address in the block only, and the pointer is never changed. -/
structure BehavesAsMemory (start : MainMemory) (calls : List MemoryAccess) : Prop where
  completes : ∃ final, run access start calls = some final
  returnsLast : ∀ before address value between memory,
    before ++ .write address value :: between <+: calls →
    run access start (before ++ .write address value :: between) = some memory →
    (∀ call ∈ between, ¬ call.Overlaps address) → memory.readMemory address = some value
  changesFour : ∀ before address value earlier later,
    before ++ [.write address value] <+: calls → run access start before = some earlier →
    earlier.writeMemory address value = some later →
    ∀ position : Nat, ¬ (address.toInt ≤ position ∧ position < address.toInt + 4) →
      later.contents[position]? = earlier.contents[position]?
  keepsPointer : ∀ before memory, before <+: calls → run access start before = some memory →
    memory.mainMemory = start.mainMemory

/-! ### One call -/

variable {memory later : MainMemory} {address : Int32} {value : UInt32}

@[simp] theorem length_ofPointer (pointer : UInt64) : (ofPointer pointer).length = 8 := rfl

theorem toAddress_ofPointer (pointer : UInt64) : toAddress (ofPointer pointer) = pointer.toNat := by
  have low : (ofPointer pointer).take 4 = ofWord (.ofNat pointer.toNat) := rfl
  have high : (ofPointer pointer).drop 4 = ofWord (.ofNat (pointer.toNat / 2 ^ 32)) := rfl
  have bound := pointer.toNat_lt
  rw [toAddress, low, high, toWord_ofWord, toWord_ofWord, UInt32.toNat_ofNat',
    UInt32.toNat_ofNat']
  omega

/-- A write completes at address 0 only, and what it changes is the lower half of the pointer. -/
theorem writeMemory_eq_some_iff (eight : memory.mainMemory.length = 8) :
    memory.writeMemory address value = some later ↔
      address = 0 ∧ later = { memory with
        mainMemory := ofWord value ++ memory.mainMemory.drop 4 } := by
  have atStart : overwrite memory.mainMemory 0 (ofWord value) =
      ofWord value ++ memory.mainMemory.drop 4 := rfl
  unfold writeMemory
  dsimp only
  constructor
  · intro written
    split at written
    · rename_i inside
      rw [eight] at inside
      obtain rfl : address = 0 := Int32.toInt_inj.mp (show address.toInt = 0 by omega)
      exact ⟨rfl, (Option.some.inj written).symm⟩
    · cases written
  · rintro ⟨rfl, rfl⟩
    rw [if_pos (by rw [eight]; decide)]
    rfl

theorem writeMemory_contents (written : memory.writeMemory address value = some later) :
    later.contents = memory.contents ∧ later.base = memory.base ∧
      (memory.mainMemory.length = 8 → later.mainMemory.length = 8) := by
  refine ⟨?_, ?_, fun eight => ?_⟩
  · unfold writeMemory at written
    grind
  · unfold writeMemory at written
    grind
  · obtain ⟨rfl, rfl⟩ := (writeMemory_eq_some_iff eight).mp written
    rw [List.length_append, length_ofWord, List.length_drop, eight]

/-- While the pointer is what it was, a read finds its four bytes in the block. -/
theorem readMemory_reserved (base : UInt64) {contents : List UInt8}
    (inMemory : 0 ≤ address.toInt ∧ address.toInt + 4 ≤ contents.length) :
    (reserveMemory base contents).readMemory address =
      some (toWord ((contents.drop address.toInt.toNat).take 4)) := by
  have position : toAddress (ofPointer base) + address.toInt - base.toNat = address.toInt := by
    rw [toAddress_ofPointer]
    omega
  unfold readMemory reserveMemory
  dsimp only
  rw [position, if_pos inMemory]

/-- Every `WRITE_MEMORY` that completes clears the lower half of the pointer, and nothing else. -/
theorem handleWriteMemory_clears_pointer {payload : Buffer} (eight : memory.mainMemory.length = 8)
    (handled : handleWriteMemory payload memory = some later) :
    later = { memory with mainMemory := [0, 0, 0, 0] ++ memory.mainMemory.drop 4 } := by
  obtain ⟨⟨pcb, payload⟩, _, handled⟩ := Option.bind_eq_some_iff.mp handled
  obtain ⟨⟨address, payload⟩, _, written⟩ := Option.bind_eq_some_iff.mp handled
  exact ((writeMemory_eq_some_iff eight).mp written).2

/-! ### Sequences of calls -/

/-- The call leaves the memory as it is: a read, or a write at address 0 of what is both the lower half
    of the pointer and the first word of the block. -/
def ChangesNothing (base : UInt64) (contents : List UInt8) (call : MemoryAccess) : Prop :=
  ∀ address value, call = .write address value →
    address = 0 ∧ value = .ofNat base.toNat ∧ toWord (contents.take 4) = value

variable {base : UInt64} {contents : List UInt8}

theorem access_of_changesNothing {call : MemoryAccess}
    (inMemory : call.InMemory contents.length) (nothing : ChangesNothing base contents call) :
    (reserveMemory base contents).access call = some (reserveMemory base contents) := by
  cases call with
  | read address =>
      have inBlock : 0 ≤ address.toInt ∧ address.toInt + 4 ≤ contents.length := inMemory
      rw [access, readMemory_reserved base inBlock, Option.map_some]
  | write address value =>
      obtain ⟨rfl, rfl, _⟩ := nothing address value rfl
      have eight : (reserveMemory base contents).mainMemory.length = 8 := length_ofPointer base
      exact (writeMemory_eq_some_iff eight).mpr ⟨rfl, rfl⟩

theorem run_of_changesNothing {calls : List MemoryAccess}
    (inMemory : ∀ call ∈ calls, call.InMemory contents.length)
    (nothing : ∀ call ∈ calls, ChangesNothing base contents call) :
    run access (reserveMemory base contents) calls = some (reserveMemory base contents) := by
  induction calls with
  | nil => rfl
  | cons call calls ih =>
      rw [run_cons, access_of_changesNothing (inMemory call List.mem_cons_self)
        (nothing call List.mem_cons_self), Option.bind_some]
      exact ih (fun other member => inMemory other (List.mem_cons_of_mem _ member))
        (fun other member => nothing other (List.mem_cons_of_mem _ member))

/-- What calls leave alone: the block. -/
theorem run_keeps_block {start : MainMemory} {calls : List MemoryAccess}
    (ran : run access start calls = some memory) :
    memory.contents = start.contents ∧ memory.base = start.base := by
  induction calls generalizing start with
  | nil =>
      obtain rfl := Option.some.inj ran
      exact ⟨rfl, rfl⟩
  | cons call calls ih =>
      rw [run_cons] at ran
      obtain ⟨next, called, rest⟩ := Option.bind_eq_some_iff.mp ran
      have later := ih rest
      cases call with
      | read address =>
          obtain ⟨_, _, rfl⟩ := Option.map_eq_some_iff.mp called
          exact later
      | write address value =>
          obtain ⟨sameContents, sameBase, _⟩ := writeMemory_contents called
          exact ⟨later.1.trans sameContents, later.2.trans sameBase⟩

/-- A write that leaves the pointer as it was is one at address 0, of the pointer's lower half. -/
theorem write_of_keepsPointer {pointer : UInt64} (before : memory.mainMemory = ofPointer pointer)
    (after : later.mainMemory = ofPointer pointer)
    (written : memory.writeMemory address value = some later) :
    address = 0 ∧ value = .ofNat pointer.toNat := by
  have eight : memory.mainMemory.length = 8 := by
    rw [before]
    exact length_ofPointer pointer
  obtain ⟨rfl, isLater⟩ := (writeMemory_eq_some_iff eight).mp written
  have lower : ofWord value = ofWord (.ofNat pointer.toNat) := by
    rw [isLater] at after
    exact congrArg (List.take 4) after
  exact ⟨rfl, by rw [← toWord_ofWord value, lower, toWord_ofWord]⟩

/-- The states around a write of the sequence. -/
theorem BehavesAsMemory.around {start : MainMemory} {before after : List MemoryAccess}
    (behaves : BehavesAsMemory start (before ++ .write address value :: after)) :
    ∃ earlier later, run access start before = some earlier ∧
      earlier.writeMemory address value = some later ∧
      run access start (before ++ [.write address value]) = some later := by
  obtain ⟨final, ran⟩ := behaves.completes
  rw [run_append] at ran
  obtain ⟨earlier, ranBefore, rest⟩ := Option.bind_eq_some_iff.mp ran
  rw [run_cons] at rest
  obtain ⟨later, written, _⟩ := Option.bind_eq_some_iff.mp rest
  refine ⟨earlier, later, ranBefore, written, ?_⟩
  rw [run_append, ranBefore, Option.bind_some, run_cons, written]
  rfl

/-- Where the calls behave as those of a memory, no write changes anything. -/
theorem BehavesAsMemory.changesNothing {calls : List MemoryAccess}
    (behaves : BehavesAsMemory (reserveMemory base contents) calls)
    (inMemory : ∀ call ∈ calls, call.InMemory contents.length) (call : MemoryAccess)
    (member : call ∈ calls) : ChangesNothing base contents call := by
  rintro address value rfl
  obtain ⟨before, after, rfl⟩ := List.append_of_mem member
  have upTo : before ++ [.write address value] <+: before ++ .write address value :: after :=
    ⟨after, by rw [List.append_assoc, List.singleton_append]⟩
  obtain ⟨earlier, later, ranBefore, written, ranUpTo⟩ := behaves.around
  have pointerAfter := behaves.keepsPointer _ later upTo ranUpTo
  obtain ⟨rfl, same⟩ := write_of_keepsPointer
    (behaves.keepsPointer before earlier ⟨_, rfl⟩ ranBefore) pointerAfter written
  have unchanged : later = reserveMemory base contents := by
    obtain ⟨sameContents, sameBase⟩ := run_keeps_block ranUpTo
    exact MainMemory.ext pointerAfter sameBase sameContents
  have inBlock : 0 ≤ (0 : Int32).toInt ∧ (0 : Int32).toInt + 4 ≤ contents.length :=
    inMemory _ member
  have read := behaves.returnsLast before 0 value [] later upTo ranUpTo (by simp)
  rw [unchanged, readMemory_reserved base inBlock] at read
  exact ⟨rfl, same, Option.some.inj read⟩

/-- Calls that change nothing behave as those of a memory. -/
theorem BehavesAsMemory.of_changesNothing {calls : List MemoryAccess}
    (inMemory : ∀ call ∈ calls, call.InMemory contents.length)
    (nothing : ∀ call ∈ calls, ChangesNothing base contents call) :
    BehavesAsMemory (reserveMemory base contents) calls := by
  have same : ∀ before, before <+: calls →
      run access (reserveMemory base contents) before = some (reserveMemory base contents) :=
    fun before isPrefix => run_of_changesNothing
      (fun call member => inMemory call (isPrefix.subset member))
      (fun call member => nothing call (isPrefix.subset member))
  refine ⟨⟨_, same calls List.prefix_rfl⟩, ?_, ?_, ?_⟩
  · intro before address value between memory isPrefix ran _
    rw [same _ isPrefix] at ran
    obtain rfl := Option.some.inj ran
    have member : MemoryAccess.write address value ∈ calls := isPrefix.subset (by simp)
    obtain ⟨rfl, -, stored⟩ := nothing _ member address value rfl
    have inBlock : 0 ≤ (0 : Int32).toInt ∧ (0 : Int32).toInt + 4 ≤ contents.length :=
      inMemory _ member
    rw [readMemory_reserved base inBlock, ← stored]
    rfl
  · intro before address value earlier later _ _ written position _
    rw [(writeMemory_contents written).1]
  · intro before memory isPrefix ran
    rw [same before isPrefix] at ran
    rw [← Option.some.inj ran]

end MainMemory

open MainMemory

/-- Whatever block was reserved: read_memory and write_memory behave as a memory if and only if every
    write of the sequence changes nothing. -/
theorem behavesAsMemory_iff (base : UInt64) (contents : List UInt8) (calls : List MemoryAccess)
    (inMemory : ∀ call ∈ calls, call.InMemory contents.length) :
    BehavesAsMemory (reserveMemory base contents) calls ↔
      ∀ address value, .write address value ∈ calls →
        address = 0 ∧ value = .ofNat base.toNat ∧ toWord (contents.take 4) = value := by
  constructor
  · intro behaves address value member
    exact behaves.changesNothing inMemory _ member address value rfl
  · intro nothing
    apply BehavesAsMemory.of_changesNothing inMemory
    rintro call member address value rfl
    exact nothing address value member

/-- What is written is half of the pointer, and is in the block already. -/
theorem behavesAsMemory_iff_half :
    BehavesAsMemory (reserveMemory 0x500000007 [7, 0, 0, 0]) [.write 0 7, .read 0] ↔
      ∀ address value, .write address value ∈ [MemoryAccess.write 0 7, .read 0] →
        address = 0 ∧ value = 7 ∧ toWord [7, 0, 0, 0] = value :=
  behavesAsMemory_iff 0x500000007 [7, 0, 0, 0] [.write 0 7, .read 0] (by decide)

/-- A write of 7 to the beginning of eight bytes of memory: the pointer is changed. -/
theorem write_changes_pointer :
    ¬ BehavesAsMemory (reserveMemory 0x500001000 [0, 0, 0, 0, 0, 0, 0, 0]) [.write 0 7] := by
  intro behaves
  have written : run access (reserveMemory 0x500001000 [0, 0, 0, 0, 0, 0, 0, 0]) [.write 0 7] =
      some { reserveMemory 0x500001000 [0, 0, 0, 0, 0, 0, 0, 0] with
        mainMemory := ofPointer 0x500000007 } := by decide
  exact absurd (behaves.keepsPointer _ _ List.prefix_rfl written) (by decide)

end OsSimulator
