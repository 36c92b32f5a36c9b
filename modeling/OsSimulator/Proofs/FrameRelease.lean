/-
Module: OsSimulator.Proofs.FrameRelease
Purpose: When `delete_from_frame_list` takes the entries of a frame, and nothing else, out of
  `frames_used_list`.  It removes at the index that is the number of the frame, so that the only entry of
  the frame has to be there.
Main exports: PagedMemory.usesFrame, PagedMemory.ReleasesFrame, releasesFrame_iff
-/
import OsSimulator.Proofs.Frames

namespace OsSimulator

namespace PagedMemory

/-- The entry is for the frame. -/
def usesFrame (framePages : Cells FramePage) (frame : Int32) (pointer : Nat) : Bool :=
  (framePages.read pointer).any fun framePage => framePage.frame == frame

/-- The entries of the frame are removed, all others stay in their order, and nothing outside of the list
    is read or removed. -/
def ReleasesFrame (memory : PagedMemory) (frame : Int32) : Prop :=
  memory.deleteFromFrameList frame = some
    { memory with framesUsedList :=
        memory.framesUsedList.filter fun pointer => !usesFrame memory.framePages frame pointer }

variable {framePages : Cells FramePage} {frame : Int32} {list result : List Nat} {pointer : Nat}
  {turns index : Nat}

/-! ### One turn -/

theorem listRemove_eq_some_iff {α : Type} {list rest : List α} {index : Int32} {element : α} :
    listRemove list index = some (element, rest) ↔
      listGet list index = some element ∧ rest = list.eraseIdx index.toInt.toNat := by
  simp [listRemove, eq_comm]

theorem deleteLoop_end (beyond : list.length ≤ index) :
    deleteLoop framePages frame turns index list = some list := by
  cases turns with
  | zero => rfl
  | succ turns => rw [deleteLoop, List.getElem?_eq_none beyond]

theorem deleteLoop_other (atIndex : list[index]? = some pointer)
    (allocated : ∃ framePage, framePages.read pointer = some framePage)
    (other : usesFrame framePages frame pointer = false) :
    deleteLoop framePages frame (turns + 1) index list =
      deleteLoop framePages frame turns (index + 1) list := by
  obtain ⟨framePage, stored⟩ := allocated
  have another : ¬ framePage.frame = frame := by simpa [usesFrame, stored] using other
  simp only [deleteLoop, atIndex, stored, Option.bind_eq_bind, Option.bind_some, if_neg another]

theorem deleteLoop_same (atIndex : list[index]? = some pointer)
    (same : usesFrame framePages frame pointer = true) :
    deleteLoop framePages frame (turns + 1) index list =
      (listRemove list frame).bind fun removed =>
        deleteLoop framePages frame turns (index + 1) removed.2 := by
  cases stored : framePages.read pointer with
  | none => simp [usesFrame, stored] at same
  | some framePage =>
      have isFrame : framePage.frame = frame := by simpa [usesFrame, stored] using same
      simp only [deleteLoop, atIndex, stored, Option.bind_eq_bind, Option.bind_some, if_pos isFrame]

/-! ### The loop -/

/-- The turns that the loop takes from an index on, and the list that it leaves. -/
inductive Deletes (framePages : Cells FramePage) (frame : Int32) : Nat → List Nat → List Nat → Prop where
  | ended {index : Nat} {list : List Nat} (beyond : list.length ≤ index) : Deletes framePages frame index list list
  | other {index pointer : Nat} {list result : List Nat} (atIndex : list[index]? = some pointer)
      (uses : usesFrame framePages frame pointer = false)
      (rest : Deletes framePages frame (index + 1) list result) :
      Deletes framePages frame index list result
  | same {index pointer removed : Nat} {list result : List Nat}
      (atIndex : list[index]? = some pointer)
      (uses : usesFrame framePages frame pointer = true)
      (found : listGet list frame = some removed)
      (rest : Deletes framePages frame (index + 1) (list.eraseIdx frame.toInt.toNat) result) :
      Deletes framePages frame index list result

theorem deletes_of_deleteLoop (ended : deleteLoop framePages frame turns index list = some result)
    (enough : list.length ≤ index + turns)
    (allocated : ∀ pointer ∈ list, ∃ framePage, framePages.read pointer = some framePage) :
    Deletes framePages frame index list result := by
  induction turns generalizing index list with
  | zero =>
      obtain rfl := Option.some.inj ended
      exact .ended enough
  | succ turns ih =>
      cases atIndex : list[index]? with
      | none =>
          have beyond := List.getElem?_eq_none_iff.mp atIndex
          rw [deleteLoop_end beyond] at ended
          obtain rfl := Option.some.inj ended
          exact .ended beyond
      | some pointer =>
          cases uses : usesFrame framePages frame pointer with
          | false =>
              rw [deleteLoop_other atIndex (allocated pointer (List.mem_of_getElem? atIndex)) uses]
                at ended
              exact .other atIndex uses (ih ended (by omega) allocated)
          | true =>
              rw [deleteLoop_same atIndex uses] at ended
              obtain ⟨⟨removed, rest⟩, remove, ended⟩ := Option.bind_eq_some_iff.mp ended
              obtain ⟨found, rfl⟩ := listRemove_eq_some_iff.mp remove
              have part := List.eraseIdx_sublist list frame.toInt.toNat
              have shorter := part.length_le
              exact .same atIndex uses found
                (ih ended (by omega) fun pointer member =>
                  allocated pointer (part.subset member))

theorem Deletes.deleteLoop (deletes : Deletes framePages frame index list result)
    (enough : list.length ≤ index + turns)
    (allocated : ∀ pointer ∈ list, ∃ framePage, framePages.read pointer = some framePage) :
    deleteLoop framePages frame turns index list = some result := by
  induction deletes generalizing turns with
  | ended beyond => exact deleteLoop_end beyond
  | @other index pointer list result atIndex uses _ ih =>
      have inside := (List.getElem?_eq_some_iff.mp atIndex).1
      obtain ⟨fewer, rfl⟩ : ∃ fewer, turns = fewer + 1 := ⟨turns - 1, by omega⟩
      rw [deleteLoop_other atIndex (allocated pointer (List.mem_of_getElem? atIndex)) uses]
      exact ih (by omega) allocated
  | @same index pointer removed list result atIndex uses found _ ih =>
      have inside := (List.getElem?_eq_some_iff.mp atIndex).1
      have part := List.eraseIdx_sublist list frame.toInt.toNat
      have shorter := part.length_le
      obtain ⟨fewer, rfl⟩ : ∃ fewer, turns = fewer + 1 := ⟨turns - 1, by omega⟩
      rw [deleteLoop_same atIndex uses, listRemove, found]
      exact ih (by omega) fun pointer member => allocated pointer (part.subset member)

namespace Deletes

theorem sublist (deletes : Deletes framePages frame index list result) : result.Sublist list := by
  induction deletes with
  | ended beyond => exact List.Sublist.refl _
  | other _ _ _ ih => exact ih
  | same _ _ _ _ ih => exact ih.trans (List.eraseIdx_sublist ..)

/-- No more entries are removed than there are entries of the frame from the index on. -/
theorem length_le (deletes : Deletes framePages frame index list result) :
    list.length ≤ result.length + (list.drop index).countP (usesFrame framePages frame) := by
  have ahead : ∀ {list : List Nat} {index pointer : Nat}, list[index]? = some pointer →
      list.drop index = pointer :: list.drop (index + 1) := by
    intro list index pointer atIndex
    obtain ⟨inside, isPointer⟩ := List.getElem?_eq_some_iff.mp atIndex
    rw [List.drop_eq_getElem_cons inside, isPointer]
  induction deletes with
  | ended beyond => omega
  | other atIndex uses _ ih =>
      rw [ahead atIndex, List.countP_cons_of_neg (by simp [uses])]
      exact ih
  | @same index pointer removed list result atIndex uses found _ ih =>
      have part := List.eraseIdx_sublist list frame.toInt.toNat
      have fewer : _ ≤ (list.drop (index + 1)).countP (usesFrame framePages frame) :=
        (part.drop (index + 1)).countP_le
      have shorter := List.length_eraseIdx_of_lt (exists_listGet_iff.mp ⟨removed, found⟩).2
      rw [ahead atIndex, List.countP_cons_of_pos uses]
      omega

end Deletes

/-! ### The entries of the frame -/

section Erase

variable (keep : Nat → Bool) {place : Nat}

theorem filter_around (atPlace : list[place]? = some pointer) :
    list.filter keep = (list.take place).filter keep ++
        ([pointer].filter keep ++ (list.drop (place + 1)).filter keep) ∧
      (list.eraseIdx place).filter keep =
        (list.take place).filter keep ++ (list.drop (place + 1)).filter keep := by
  obtain ⟨inside, isPointer⟩ := List.getElem?_eq_some_iff.mp atPlace
  have split : list = list.take place ++ ([pointer] ++ list.drop (place + 1)) := by
    rw [← isPointer, List.singleton_append, ← List.drop_eq_getElem_cons inside,
      List.take_append_drop]
  rw [List.eraseIdx_eq_take_drop_succ, ← List.filter_append, ← List.filter_append,
    ← List.filter_append, ← split]
  exact ⟨rfl, rfl⟩

theorem filter_eraseIdx_of_neg (atPlace : list[place]? = some pointer) (gone : keep pointer = false) :
    (list.eraseIdx place).filter keep = list.filter keep := by
  obtain ⟨whole, erased⟩ := filter_around keep atPlace
  rw [whole, erased, List.filter_cons_of_neg (by simp [gone])]
  rfl

theorem length_filter_eraseIdx_of_pos (atPlace : list[place]? = some pointer)
    (kept : keep pointer = true) :
    ((list.eraseIdx place).filter keep).length + 1 = (list.filter keep).length := by
  obtain ⟨whole, erased⟩ := filter_around keep atPlace
  rw [whole, erased, List.filter_cons_of_pos kept]
  simp only [List.length_append, List.filter_nil, List.length_singleton]
  omega

/-- Where everything that is kept is still in the list, what was erased is not to be kept. -/
theorem eq_false_of_still (atPlace : list[place]? = some pointer)
    (still : (list.filter keep).Sublist (list.eraseIdx place)) : keep pointer = false := by
  by_contra kept
  have lost := length_filter_eraseIdx_of_pos keep atPlace (by simpa using kept)
  have enough := (still.filter keep).length_le
  rw [List.filter_filter] at enough
  simp only [Bool.and_self] at enough
  change (list.filter keep).length ≤ _ at enough
  omega

end Erase

/-- Every entry of the frame is at the index that is the frame's number. -/
def OnlyAtNumber (framePages : Cells FramePage) (frame : Int32) (list : List Nat) : Prop :=
  ∀ (place pointer : Nat), list[place]? = some pointer →
    usesFrame framePages frame pointer = true → (place : Int) = frame.toInt

/-- The loop takes out the entry at the frame's number. -/
theorem OnlyAtNumber.deletes (only : OnlyAtNumber framePages frame list)
    (passed : ∀ (place pointer : Nat), place < index → list[place]? = some pointer →
      usesFrame framePages frame pointer = false) :
    Deletes framePages frame index list
      (list.filter fun pointer => !usesFrame framePages frame pointer) := by
  obtain ⟨left, isLeft⟩ : ∃ left, list.length ≤ index + left :=
    ⟨list.length, Nat.le_add_left ..⟩
  induction left generalizing index list with
  | zero =>
      have nothing : list.filter (fun pointer => !usesFrame framePages frame pointer) = list := by
        rw [List.filter_eq_self]
        intro pointer member
        obtain ⟨place, atPlace⟩ := List.getElem?_of_mem member
        have inside := (List.getElem?_eq_some_iff.mp atPlace).1
        rw [passed place pointer (by omega) atPlace]
        rfl
      rw [nothing]
      exact .ended (by omega)
  | succ left ih =>
      rcases Nat.lt_or_ge index list.length with inside | beyond
      swap
      · exact ih only passed (Nat.le_add_right_of_le beyond)
      have atIndex : list[index]? = some list[index] := List.getElem?_eq_getElem inside
      cases uses : usesFrame framePages frame list[index] with
      | false =>
          refine .other atIndex uses (ih only (fun place pointer before atPlace => ?_) (by omega))
          rcases Nat.lt_succ_iff_lt_or_eq.mp before with earlier | rfl
          · exact passed place pointer earlier atPlace
          · obtain rfl := Option.some.inj (atIndex.symm.trans atPlace)
            exact uses
      | true =>
          have number := only index _ atIndex uses
          have isIndex : frame.toInt.toNat = index := by omega
          have found : listGet list frame = some list[index] := by
            rw [listGet, if_pos (Int32.le_iff_toInt_le.mpr (by rw [← number]; exact Int.natCast_nonneg _)),
              isIndex, atIndex]
          have gone : ∀ (place pointer : Nat), (list.eraseIdx index)[place]? = some pointer →
              usesFrame framePages frame pointer = false := by
            intro place pointer atPlace
            rw [List.getElem?_eraseIdx] at atPlace
            split at atPlace
            · next before => exact passed place pointer before atPlace
            · next after =>
                by_contra another
                have shifted := only (place + 1) pointer atPlace (by simpa using another)
                omega
          refine .same atIndex uses found ?_
          rw [isIndex, ← filter_eraseIdx_of_neg _ atIndex (by simp [uses])]
          have shorter := List.length_eraseIdx_of_lt inside
          apply ih
          · intro place pointer atPlace uses
            rw [gone place pointer atPlace] at uses
            cases uses
          · exact fun place pointer _ atPlace => gone place pointer atPlace
          · omega

/-- Where the loop takes out the entries of the frame and no others, it has passed over none of them. -/
theorem Deletes.passed (deletes : Deletes framePages frame index list result)
    (exactly : result = list.filter fun pointer => !usesFrame framePages frame pointer)
    (place pointer : Nat) (before : place < index) (atPlace : list[place]? = some pointer) :
    usesFrame framePages frame pointer = false := by
  have enough := deletes.length_le
  have whole := List.length_eq_countP_add_countP (usesFrame framePages frame) (l := list)
  have left : result.length = list.countP fun pointer => !usesFrame framePages frame pointer := by
    rw [exactly, List.countP_eq_length_filter]
  have parts : list.countP (usesFrame framePages frame) =
      (list.take index).countP (usesFrame framePages frame) +
        (list.drop index).countP (usesFrame framePages frame) := by
    rw [← List.countP_append, List.take_append_drop]
  have nothing : (list.take index).countP (usesFrame framePages frame) = 0 := by
    simp only [Bool.not_eq_true, Bool.decide_eq_false] at whole
    omega
  have member : pointer ∈ list.take index := by
    apply List.mem_of_getElem?
    rw [List.getElem?_take_of_lt before]
    exact atPlace
  simpa using List.countP_eq_zero.mp nothing pointer member

/-- Where the loop has taken out the entries of the frame and no others, they were at its number. -/
theorem Deletes.onlyAtNumber (deletes : Deletes framePages frame index list result)
    (exactly : result = list.filter fun pointer => !usesFrame framePages frame pointer) :
    OnlyAtNumber framePages frame list := by
  induction deletes with
  | ended beyond =>
      intro place pointer atPlace uses
      have stays := List.mem_of_getElem? atPlace
      rw [exactly] at stays
      simp [uses] at stays
  | other _ _ _ ih => exact ih exactly
  | @same index pointer removed list result atIndex uses found rest ih =>
      obtain ⟨nonneg, inside⟩ := exists_listGet_iff.mp ⟨removed, found⟩
      have number : (frame.toInt.toNat : Int) = frame.toInt :=
        Int.toNat_of_nonneg (Int32.le_iff_toInt_le.mp nonneg)
      have atNumber : list[frame.toInt.toNat]? = some removed := by
        rw [listGet, if_pos nonneg] at found
        exact found
      generalize frame.toInt.toNat = taken at *
      have gone : usesFrame framePages frame removed = true := by
        simpa using eq_false_of_still (fun pointer => !usesFrame framePages frame pointer) atNumber
          (exactly ▸ rest.sublist)
      have same : (list.eraseIdx taken).filter
          (fun pointer => !usesFrame framePages frame pointer) = result := by
        rw [exactly]
        exact filter_eraseIdx_of_neg _ atNumber (by simp [gone])
      have onlyRest := ih same.symm
      have passed := rest.passed same.symm
      have before : ∀ (place pointer : Nat), place < taken → list[place]? = some pointer →
          usesFrame framePages frame pointer = true → place = taken := by
        intro place pointer isBefore atPlace uses
        rw [← List.getElem?_eraseIdx_of_lt isBefore] at atPlace
        have shifted := onlyRest place pointer atPlace uses
        omega
      intro place pointer atPlace usesPlace
      by_contra elsewhere
      rcases Nat.lt_trichotomy place taken with isBefore | rfl | isAfter
      · have := before place pointer isBefore atPlace usesPlace
        omega
      · exact elsewhere number
      · obtain ⟨later, rfl⟩ : ∃ later, place = later + 1 := ⟨place - 1, by omega⟩
        rw [← List.getElem?_eraseIdx_of_ge (by omega : taken ≤ later)] at atPlace
        have shifted := onlyRest later pointer atPlace usesPlace
        have late : index < later := by
          by_contra early
          rw [passed later pointer (by omega) atPlace] at usesPlace
          cases usesPlace
        have notBehind := before index _ (by omega) atIndex uses
        omega

end PagedMemory

open PagedMemory

/-- `delete_from_frame_list` takes out the entries of the frame, and nothing else, if and only if each of
    them is at the index that is the number of the frame. -/
theorem releasesFrame_iff (memory : PagedMemory) (frame : Int32)
    (allocated : ∀ pointer ∈ memory.framesUsedList,
      ∃ framePage, memory.framePages.read pointer = some framePage) :
    memory.ReleasesFrame frame ↔
      OnlyAtNumber memory.framePages frame memory.framesUsedList := by
  have enough : memory.framesUsedList.length ≤ 0 + memory.framesUsedList.length :=
    Nat.le_add_left ..
  constructor
  · intro releases
    obtain ⟨list, ended, same⟩ := Option.bind_eq_some_iff.mp releases
    have isList : list = memory.framesUsedList.filter fun pointer =>
        !usesFrame memory.framePages frame pointer :=
      congrArg PagedMemory.framesUsedList (Option.some.inj same)
    exact (deletes_of_deleteLoop ended enough allocated).onlyAtNumber isList
  · intro only
    have deletes := only.deletes fun place pointer before _ => absurd before (Nat.not_lt_zero place)
    rw [ReleasesFrame, deleteFromFrameList, deletes.deleteLoop enough allocated]
    rfl

/-- Frames 5 and 1, each with a page. -/
def framesFiveAndOne : PagedMemory where
  pages := []
  pageTables := []
  framePages := [some { frame := 5, modified := 0, pageNumber := 0, pid := 1 },
    some { frame := 1, modified := 0, pageNumber := 1, pid := 1 }]
  pageTableList := []
  framesUsedList := [0, 1]
  replies := []

theorem releasesFrame_iff_one :
    framesFiveAndOne.ReleasesFrame 1 ↔ OnlyAtNumber framesFiveAndOne.framePages 1 [0, 1] := by
  have allocated : ∀ pointer ∈ framesFiveAndOne.framesUsedList,
      (framesFiveAndOne.framePages.read pointer).isSome := by decide
  exact releasesFrame_iff framesFiveAndOne 1 fun pointer member =>
    Option.isSome_iff_exists.mp (allocated pointer member)

/-- With the entries the other way round it is frame 5 that is released in the place of frame 1. -/
theorem one_not_released :
    ¬ ({ framesFiveAndOne with framesUsedList := [1, 0] } : PagedMemory).ReleasesFrame 1 := by
  unfold ReleasesFrame
  decide

end OsSimulator
