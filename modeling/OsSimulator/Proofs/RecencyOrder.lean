/-
Module: OsSimulator.Proofs.RecencyOrder
Purpose: `frames_used_list` is in the order of the last accesses.  An access moves its entry to the end,
  and the load of a page takes the entry whose last access is the oldest.
Main exports: PagedMemory.replacePageLruWithPresence_frames, PagedMemory.replacePageFifo_frames,
  TimedFrames, TimedFrames.Allowed, TimedFrames.KeepsRecency, run_recency
-/
import OsSimulator.Lib.Recency
import OsSimulator.Lib.Transition
import OsSimulator.Memory.FrameList
import OsSimulator.Proofs.Replacement
import Mathlib.Data.List.InsertIdx

namespace OsSimulator

open Recency Transition

/-! ### The search loop -/

namespace FrameList

variable {before skipped after rest list next : FrameList} {framePage : FramePage}
  {pid pageNumber : Int32} {frameSize turns : Nat}

theorem page_eq_iff :
    (pid = framePage.pid ∧ pageNumber = framePage.pageNumber) ↔
      framePage.page = (pid, pageNumber) := by
  rw [FramePage.page, Prod.mk.injEq, eq_comm, @eq_comm _ pageNumber]

theorem getElem?_window : (before ++ framePage :: rest)[before.length]? = some framePage := by
  rw [List.getElem?_append_right (Nat.le_refl _), Nat.sub_self, List.getElem?_cons_zero]

/-- The loop passes over an entry of another page. -/
theorem lruLoop_other (size : (before ++ framePage :: rest).length = frameSize)
    (other : framePage.page ≠ (pid, pageNumber)) :
    lruLoop frameSize pid pageNumber (turns + 1) before.length (before ++ framePage :: rest) =
      lruLoop frameSize pid pageNumber turns (before.length + 1) (before ++ framePage :: rest) := by
  have goesOn : ¬ (pid = framePage.pid ∧ pageNumber = framePage.pageNumber) := fun isPage =>
    other (page_eq_iff.mp isPage)
  rw [lruLoop, getElem?_window]
  simp only [Option.bind_eq_bind, Option.bind_some, if_neg goesOn]
  rw [if_pos size]

/-- The loop ends with the entry of the page, which it takes out of the list. -/
theorem lruLoop_same (size : (before ++ framePage :: rest).length = frameSize)
    (same : framePage.page = (pid, pageNumber)) :
    lruLoop frameSize pid pageNumber (turns + 1) before.length (before ++ framePage :: rest) =
      some (framePage, before ++ rest) := by
  have erased : (before ++ framePage :: rest).eraseIdx before.length = before ++ rest := by
    rw [List.eraseIdx_append_of_length_le (Nat.le_refl _), Nat.sub_self, List.eraseIdx_cons_zero]
  have smaller : (before ++ rest).length ≠ frameSize := by
    rw [← size, List.length_append, List.length_append, List.length_cons]
    omega
  rw [lruLoop, getElem?_window]
  simp only [Option.bind_eq_bind, Option.bind_some, if_pos (page_eq_iff.mpr same), erased]
  rw [if_neg smaller]
  rfl

/-- The loop takes the first entry of the page out of the list, with a turn for each entry that it
    passes over and one more. -/
theorem lruLoop_finds (enough : skipped.length < turns)
    (size : (before ++ (skipped ++ framePage :: after)).length = frameSize)
    (others : ∀ other ∈ skipped, other.page ≠ (pid, pageNumber))
    (same : framePage.page = (pid, pageNumber)) :
    lruLoop frameSize pid pageNumber turns before.length
        (before ++ (skipped ++ framePage :: after)) =
      some (framePage, before ++ (skipped ++ after)) := by
  obtain ⟨fewer, rfl⟩ := Nat.exists_eq_succ_of_ne_zero (Nat.ne_of_gt (Nat.zero_lt_of_lt enough))
  induction skipped generalizing before fewer with
  | nil => exact lruLoop_same size same
  | cons first skipped ih =>
      have regroup : ∀ rest : FrameList,
          before ++ (first :: skipped ++ rest) = (before ++ [first]) ++ (skipped ++ rest) := by
        intro rest
        simp
      have another := others first List.mem_cons_self
      obtain ⟨turns, rfl⟩ : ∃ turns, fewer = turns + 1 :=
        ⟨fewer - 1, by rw [List.length_cons] at enough; omega⟩
      have passed : lruLoop frameSize pid pageNumber (turns + 1 + 1) before.length
          (before ++ (first :: skipped ++ framePage :: after)) =
            lruLoop frameSize pid pageNumber (turns + 1) (before.length + 1)
              (before ++ (first :: skipped ++ framePage :: after)) := lruLoop_other size another
      rw [regroup] at size
      have rest := ih size (fun other member => others other (List.mem_cons_of_mem _ member)) turns
        (Nat.lt_of_succ_lt_succ enough)
      rw [List.length_append, List.length_singleton] at rest
      rw [passed, regroup, regroup, rest]

/-- An access moves the first entry of its page to the end. -/
theorem replacePageLruWithPresence_moves (after : FrameList)
    (others : ∀ other ∈ before, other.page ≠ (pid, pageNumber))
    (same : framePage.page = (pid, pageNumber)) :
    replacePageLruWithPresence pid pageNumber (before ++ framePage :: after) =
      some (before ++ after ++ [framePage]) := by
  have enough : before.length < (before ++ framePage :: after).length := by simp
  have found : lruLoop (before ++ framePage :: after).length pid pageNumber
      (before ++ framePage :: after).length ([] : FrameList).length
      ([] ++ (before ++ framePage :: after)) = some (framePage, [] ++ (before ++ after)) :=
    lruLoop_finds enough rfl others same
  simp only [List.nil_append, List.length_nil] at found
  rw [replacePageLruWithPresence, found]
  rfl

/-- The list up to the first entry of a page. -/
theorem exists_split (member : (pid, pageNumber) ∈ list.map FramePage.page) :
    ∃ before framePage after, list = before ++ framePage :: after ∧
      framePage.page = (pid, pageNumber) ∧ ∀ other ∈ before, other.page ≠ (pid, pageNumber) := by
  obtain ⟨entry, inList, isPage⟩ := List.mem_map.mp member
  have found : (list.find? fun entry => entry.page = (pid, pageNumber)).isSome := by
    rw [List.find?_isSome]
    exact ⟨entry, inList, by simpa using isPage⟩
  obtain ⟨framePage, first⟩ := Option.isSome_iff_exists.mp found
  obtain ⟨same, before, after, split, others⟩ := List.find?_eq_some_iff_append.mp first
  refine ⟨before, framePage, after, split, by simpa using same, fun other inBefore => ?_⟩
  simpa using others other inBefore

end FrameList

/-! ### The list of pointers -/

namespace PagedMemory

variable {memory next : PagedMemory} {list : FrameList} {pid pageNumber : Int32}

/-- The entries that the pointers of `frames_used_list` point to. -/
def HasFrames (memory : PagedMemory) (list : FrameList) : Prop :=
  memory.framesUsedList.map memory.framePages.read = list.map some

theorem findFramePage_eq_some {framePages : Cells FramePage} {pointers : List Nat}
    {index found : Nat} (read : pointers.map framePages.read = list.map some)
    (search : findFramePage framePages pid pageNumber pointers index = some found) :
    ∃ before framePage after, list = before ++ framePage :: after ∧
      found = index + before.length ∧ framePage.page = (pid, pageNumber) ∧
      ∀ other ∈ before, other.page ≠ (pid, pageNumber) := by
  induction pointers generalizing list index with
  | nil => cases search
  | cons pointer pointers ih =>
      obtain ⟨first, rest, rfl, isFirst, isRest⟩ := List.map_eq_cons_iff.mp read.symm
      rw [findFramePage, ← isFirst, Option.bind_some] at search
      split at search
      · next same =>
          obtain rfl := Option.some.inj search
          exact ⟨[], first, rest, rfl, rfl, FrameList.page_eq_iff.mp same, by simp⟩
      · next other =>
          obtain ⟨before, framePage, after, rfl, rfl, same, others⟩ := ih isRest.symm search
          refine ⟨first :: before, framePage, after, rfl, ?_, same, ?_⟩
          · rw [List.length_cons]
            omega
          · intro entry member
            rcases List.mem_cons.mp member with rfl | later
            · exact fun isPage => other (FrameList.page_eq_iff.mpr isPage)
            · exact others entry later

/-- `replace_page_lru_with_presence` on the pointers is the one on the entries, read before the last of
    them is freed. -/
theorem replacePageLruWithPresence_frames (frames : memory.HasFrames list)
    (completed : memory.replacePageLruWithPresence pid pageNumber = some next) :
    ∃ after, list.replacePageLruWithPresence pid pageNumber = some after ∧
      ({ next with framePages := memory.framePages } : PagedMemory).HasFrames after := by
  obtain ⟨index, search, completed⟩ := Option.bind_eq_some_iff.mp completed
  obtain ⟨pointer, atIndex, completed⟩ := Option.bind_eq_some_iff.mp completed
  obtain ⟨freed, _, completed⟩ := Option.bind_eq_some_iff.mp completed
  obtain rfl := Option.some.inj completed
  obtain ⟨before, framePage, after, rfl, isIndex, same, others⟩ :=
    findFramePage_eq_some frames search
  rw [Nat.zero_add] at isIndex
  subst isIndex
  refine ⟨before ++ after ++ [framePage],
    FrameList.replacePageLruWithPresence_moves after others same, ?_⟩
  have erased : (memory.framesUsedList.eraseIdx before.length).map memory.framePages.read =
      (before ++ after).map some := by
    rw [← List.eraseIdx_map, frames, List.map_append, List.map_cons,
      List.eraseIdx_append_of_length_le (by simp), List.length_map, Nat.sub_self,
      List.eraseIdx_cons_zero, ← List.map_append]
  have last : memory.framePages.read pointer = some framePage := by
    have read := congrArg (·[before.length]?) frames
    simpa [atIndex] using read
  rw [HasFrames, List.map_append, List.map_append, erased, List.map_singleton, last]
  rfl

/-- An allocation leaves the entries that are there. -/
theorem map_read_malloc {cells : Cells FramePage} {pointers : List Nat} {fresh : FramePage}
    (read : pointers.map cells.read = list.map some) :
    pointers.map (cells.malloc fresh).1.read = list.map some := by
  rw [← read]
  apply List.map_congr_left
  intro pointer member
  have stored : cells.read pointer ∈ list.map some := read ▸ List.mem_map_of_mem member
  obtain ⟨framePage, _, isEntry⟩ := List.mem_map.mp stored
  rw [← isEntry]
  exact Cells.read_malloc_of_read isEntry.symm

/-- `replace_page_fifo` does to the pointers what it does to the entries, read before the last of them
    is freed, if `list_add` on a page leaves them alone. -/
theorem replacePageFifo_frames {config : MemoryConfig}
    {listAdd : Nat → Int32 → PagedMemory → Option PagedMemory} {newPage : Option Nat}
    (leaves : ∀ {page number before after}, listAdd page number before = some after →
      after.framesUsedList = before.framesUsedList ∧ after.framePages = before.framePages)
    (frames : memory.HasFrames list)
    (completed : memory.replacePageFifoWith config listAdd newPage pid pageNumber = some next) :
    ∃ after loaded, list.replacePageFifo pid pageNumber = some after ∧
      ({ next with framePages := (memory.framePages.malloc loaded).1 } : PagedMemory).HasFrames
        after := by
  obtain ⟨pointer, first, later, isHead, isFirst, updated, added, _⟩ :=
    replacePageFifo_completed completed
  obtain ⟨_, _, _, _, _, _, _, _, _, _, _, _, left⟩ := updateVictim_completed updated
  obtain ⟨sameList, sameCells⟩ := leaves left
  obtain ⟨rest, isFrames⟩ : ∃ rest, memory.framesUsedList = pointer :: rest := by
    apply List.head?_eq_some_iff.mp
    rw [List.head?_eq_getElem?]
    exact isHead
  rw [HasFrames, isFrames, List.map_cons, isFirst] at frames
  obtain ⟨entry, others, rfl, isEntry, isRest⟩ := List.map_eq_cons_iff.mp frames.symm
  obtain rfl := Option.some.inj isEntry
  let loaded : FramePage :=
    { frame := entry.frame, modified := 0, pageNumber := pageNumber, pid := pid }
  refine ⟨others ++ [loaded], loaded, rfl, ?_⟩
  have tail : later.framesUsedList.tail = rest := by
    rw [sameList]
    exact congrArg List.tail isFrames
  have last : (memory.framePages.malloc loaded).1.read later.framePages.length = some loaded := by
    rw [sameCells, Cells.read_malloc, if_pos rfl]
  rw [HasFrames, added, tail, List.map_append, map_read_malloc isRest.symm, List.map_singleton, last,
    List.map_append]
  rfl

end PagedMemory

/-! ### Runs -/

/-- The list, and when each page was last accessed. -/
structure TimedFrames where
  frames : FrameList
  history : History (Int32 × Int32)

namespace TimedFrames

/-- The pages in the list. -/
def pages (state : TimedFrames) : List (Int32 × Int32) := state.frames.map FramePage.page

/-- One access, at a time of its own. -/
def step (state : TimedFrames) (access : FrameAccess) : Option TimedFrames :=
  (state.frames.step access).map fun frames =>
    { frames := frames, history := state.history.access access.page }

/-- Accesses are to pages in the list, and it is other pages that are loaded. -/
def Allowed (state : TimedFrames) : FrameAccess → Prop
  | .access pid pageNumber => (pid, pageNumber) ∈ state.pages
  | .load pid pageNumber => (pid, pageNumber) ∉ state.pages

instance (state : TimedFrames) : ∀ access, Decidable (state.Allowed access)
  | .access pid pageNumber => inferInstanceAs (Decidable ((pid, pageNumber) ∈ state.pages))
  | .load pid pageNumber => inferInstanceAs (Decidable ((pid, pageNumber) ∉ state.pages))

/-- The page of the entry that a load takes. -/
def evicted? (state : TimedFrames) : FrameAccess → Option (Int32 × Int32)
  | .access .. => none
  | .load .. => state.pages.head?

/-- The entry is for another page than those that the access is about. -/
def untouched (state : TimedFrames) (access : FrameAccess) (framePage : FramePage) : Bool :=
  framePage.page ≠ access.page ∧ some framePage.page ≠ state.evicted? access

/-- The list is not empty, has so many entries, all for different pages, and is in the order of the last
    accesses. -/
structure Ordered (size : Nat) (state : TimedFrames) : Prop where
  nonempty : state.frames ≠ []
  length : state.frames.length = size
  distinct : state.pages.Nodup
  inOrder : InOrder state.history state.pages

/-- The access completes, with its page at the end of the list; it leaves the other entries in their
    order, and takes no page but the one whose last access is the oldest. -/
structure KeepsRecency (state : TimedFrames) (access : FrameAccess) : Prop where
  completes : ∃ next, state.step access = some next ∧ next.pages.getLast? = some access.page ∧
    next.frames.filter (state.untouched access) = state.frames.filter (state.untouched access) ∧
    ∀ page, state.evicted? access = some page → page ∉ next.pages
  oldest : ∀ page, state.evicted? access = some page → page ∈ state.pages ∧
    ∀ other ∈ state.pages, other ≠ page →
      state.history.lastAccess page < state.history.lastAccess other

variable {state next : TimedFrames} {access : FrameAccess} {size : Nat}

theorem Ordered.of_inOrder (nonempty : state.frames ≠ []) (length : state.frames.length = size)
    (inOrder : InOrder state.history state.pages) : state.Ordered size where
  nonempty := nonempty
  length := length
  distinct := inOrder.distinct
  inOrder := inOrder

/-- What an allowed access does: entries go out of the list, and one for its page comes to the end. -/
theorem step_cases (ordered : state.Ordered size) (allowed : state.Allowed access) :
    ∃ before taken after last, state.frames = before ++ taken :: after ∧ last.page = access.page ∧
      (∀ other ∈ before ++ after, other.page ≠ access.page) ∧
      (taken.page = access.page ∨ before = [] ∧ state.evicted? access = some taken.page) ∧
      state.step access = some
        { frames := before ++ after ++ [last], history := state.history.access access.page } := by
  cases access with
  | access pid pageNumber =>
      obtain ⟨before, framePage, after, split, same, others⟩ := FrameList.exists_split allowed
      refine ⟨before, framePage, after, framePage, split, same, ?_, .inl same, ?_⟩
      · have distinct := ordered.distinct
        rw [pages, split, List.map_append, List.map_cons] at distinct
        intro other member isPage
        apply (List.nodup_cons.mp (List.perm_middle.nodup_iff.mp distinct)).1
        rw [same, ← List.map_append]
        exact List.mem_map.mpr ⟨other, member, isPage⟩
      · have moved := FrameList.replacePageLruWithPresence_moves after others same
        rw [step, FrameList.step, split, moved]
        rfl
  | load pid pageNumber =>
      obtain ⟨taken, after, split⟩ := List.exists_cons_of_ne_nil ordered.nonempty
      let loaded : FramePage :=
        { frame := taken.frame, modified := 0, pageNumber := pageNumber, pid := pid }
      refine ⟨[], taken, after, loaded, split, rfl, ?_, .inr ⟨rfl, ?_⟩, ?_⟩
      · intro other member isPage
        apply allowed
        rw [pages, split]
        exact List.mem_map.mpr ⟨other, List.mem_cons_of_mem _ member, isPage⟩
      · rw [evicted?, pages, split]
        rfl
      · rw [step, FrameList.step, FrameList.replacePageFifo, split]
        rfl

theorem Ordered.step (ordered : state.Ordered size) (allowed : state.Allowed access)
    (taken : state.step access = some next) : next.Ordered size := by
  obtain ⟨before, gone, after, last, split, isPage, others, _, stepped⟩ :=
    step_cases ordered allowed
  obtain rfl := Option.some.inj (stepped.symm.trans taken)
  have length := ordered.length
  apply Ordered.of_inOrder
  · simp
  · rw [split] at length
    simp only [List.length_append, List.length_cons] at length ⊢
    exact length
  · have part : ((before ++ after).map FramePage.page).Sublist state.pages := by
      rw [pages, split]
      exact ((List.sublist_cons_self gone after).append_left before).map FramePage.page
    have fresh : access.page ∉ (before ++ after).map FramePage.page := by
      intro member
      obtain ⟨other, inRest, same⟩ := List.mem_map.mp member
      exact others other inRest same
    have inOrder := (ordered.inOrder.sublist part).access fresh
    rw [pages, List.map_append, List.map_singleton, isPage]
    exact inOrder

/-- It is a load that takes an entry: the first one, for another page. -/
theorem evicted?_eq_some {page : Int32 × Int32} (evicted : state.evicted? access = some page)
    (allowed : state.Allowed access) :
    access.page ∉ state.pages ∧ ∃ rest, state.pages = page :: rest ∧
      ∀ {next}, state.step access = some next → next.pages = rest ++ [access.page] := by
  cases access with
  | access pid pageNumber => cases evicted
  | load pid pageNumber =>
      obtain ⟨rest, isHead⟩ := List.head?_eq_some_iff.mp evicted
      refine ⟨allowed, rest, isHead, fun {next} taken => ?_⟩
      obtain ⟨frames, loaded, rfl⟩ := Option.map_eq_some_iff.mp taken
      obtain ⟨first, _, isFrames⟩ := Option.bind_eq_some_iff.mp loaded
      obtain rfl := Option.some.inj isFrames
      have tail : state.frames.tail.map FramePage.page = rest := by
        rw [List.map_tail]
        exact congrArg List.tail isHead
      rw [pages, List.map_append, tail]
      rfl

theorem Ordered.keepsRecency (ordered : state.Ordered size) (allowed : state.Allowed access) :
    state.KeepsRecency access := by
  constructor
  · obtain ⟨before, gone, after, last, split, isPage, _, out, stepped⟩ :=
      step_cases ordered allowed
    have lastTouched : state.untouched access last = false := by simp [untouched, isPage]
    have goneTouched : state.untouched access gone = false := by
      rcases out with same | ⟨_, evicted⟩
      · simp [untouched, same]
      · simp [untouched, evicted]
    refine ⟨_, stepped, ?_, ?_, fun page evicted member => ?_⟩
    · simp [pages, isPage]
    · simp [split, goneTouched, lastTouched]
    · obtain ⟨fresh, rest, isHead, loads⟩ := evicted?_eq_some evicted allowed
      have distinct := ordered.distinct
      rw [isHead] at distinct fresh
      rw [loads stepped] at member
      rcases List.mem_append.mp member with inRest | isLast
      · exact (List.nodup_cons.mp distinct).1 inRest
      · obtain rfl := List.mem_singleton.mp isLast
        exact fresh List.mem_cons_self
  · intro page evicted
    obtain ⟨_, rest, isHead, _⟩ := evicted?_eq_some evicted allowed
    have inOrder := ordered.inOrder
    rw [isHead] at inOrder ⊢
    refine ⟨List.mem_cons_self, fun other member different => ?_⟩
    rcases List.mem_cons.mp member with same | later
    · exact absurd same different
    · exact inOrder.head_oldest other later

end TimedFrames

/-- In every run of accesses to pages in the list and loads of other pages, from a list in the order of
    the last accesses, every access completes within as many turns as the list has entries, and the list
    keeps its size and stays in this order; a load takes the entry whose last access is the oldest. -/
theorem run_recency (start : TimedFrames) (nonempty : start.frames ≠ [])
    (inOrder : InOrder start.history start.pages) (accesses : List FrameAccess)
    (allowed : Meets TimedFrames.step TimedFrames.Allowed start accesses) :
    (∃ final, run TimedFrames.step start accesses = some final) ∧
      Throughout TimedFrames.step (TimedFrames.Ordered start.frames.length) start accesses ∧
      Meets TimedFrames.step TimedFrames.KeepsRecency start accesses := by
  have ordered : start.Ordered start.frames.length := .of_inOrder nonempty rfl inOrder
  have keeps : Meets TimedFrames.step TimedFrames.KeepsRecency start accesses :=
    meets_of_guarded_run (fun holds allowed taken => holds.step allowed taken)
      (fun holds allowed => holds.keepsRecency allowed) ordered allowed
  refine ⟨exists_run_of_meets (fun keeps => ?_) keeps, ?_, keeps⟩
  · obtain ⟨next, taken, _⟩ := keeps.completes
    exact ⟨next, taken⟩
  · exact throughout_of_guarded_run (fun holds allowed taken => holds.step allowed taken) ordered
      allowed

/-- Pages 0 and 1 of process 1, of which page 0 was accessed first. -/
def twoFrames : TimedFrames where
  frames :=
    [{ frame := 3, modified := 0, pageNumber := 0, pid := 1 },
      { frame := 5, modified := 0, pageNumber := 1, pid := 1 }]
  history := { lastAccess := fun page => if page = (1, 0) then 1 else 2, now := 2 }

theorem run_recency_twoFrames :
    (∃ final, run TimedFrames.step twoFrames [.access 1 0, .load 2 0] = some final) ∧
      Throughout TimedFrames.step (TimedFrames.Ordered 2) twoFrames [.access 1 0, .load 2 0] ∧
      Meets TimedFrames.step TimedFrames.KeepsRecency twoFrames [.access 1 0, .load 2 0] :=
  run_recency twoFrames (by decide)
    ⟨by decide, fun page _ => by simp only [twoFrames]; split <;> decide⟩
    [.access 1 0, .load 2 0] (by decide)

end OsSimulator
