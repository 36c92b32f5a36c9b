/-
Module: OsSimulator.Proofs.Frames
Purpose: When page tables and frames agree.  No frame is ever given to a page: `replace_page_fifo`
  starts with the first used frame, and there is none.  What completes is RESERVE_SWAP, and a GET_FRAME
  as long as the way to its page table does not meet one that an earlier GET_FRAME has freed.
Main exports: PagedMemory.Agrees, PagedMemory.KeepsBooks, PagedMemory.Unfaulted,
  PagedMemory.ReachesPage, keepsBooks_iff
-/
import OsSimulator.Kernel.HandleConnection
import OsSimulator.Lib.Transition
import OsSimulator.Memory.HandleConnection

namespace OsSimulator

open Transition

/-- Which page of which process a frame is for. -/
structure Mapping where
  pid : Int32
  pageNumber : Int
  frame : Int32
deriving DecidableEq, Repr

namespace PagedMemory

variable (config : MemoryConfig) (stringAt : Int32 → Option String)

/-! ### Agreement -/

/-- The pages of one table that are present. -/
def presentPagesOf (pages : Cells Page) (pageTable : PageTable) : List Mapping :=
  pageTable.pages.zipIdx.filterMap fun (pointer, number) =>
    match pages.read pointer with
    | some page =>
        if page.presence = 1 then
          some { pid := pageTable.pid, pageNumber := number, frame := page.frame }
        else
          none
    | none => none

/-- The pages of the registered processes whose presence is 1. -/
def presentPages (memory : PagedMemory) : List Mapping :=
  memory.pageTableList.flatMap fun pointer =>
    match memory.pageTables.read pointer with
    | some pageTable => presentPagesOf memory.pages pageTable
    | none => []

/-- The entries of `frames_used_list`; `none` for one that has been freed. -/
def usedFrames (memory : PagedMemory) : List (Option Mapping) :=
  memory.framesUsedList.map fun pointer =>
    (memory.framePages.read pointer).map fun framePage =>
      { pid := framePage.pid, pageNumber := framePage.pageNumber.toInt, frame := framePage.frame }

/-- No entry of `frames_used_list` has this frame. -/
def Unused (memory : PagedMemory) (frame : Int32) : Prop :=
  ∀ entry ∈ memory.usedFrames, entry.map Mapping.frame ≠ some frame

/-- The number of a frame of the main memory. -/
def InMainMemory (frame : Int32) : Prop :=
  0 ≤ frame.toInt ∧ frame.toInt ≤ config.frameCount.toInt - 1

/-- The entries of `frames_used_list` are the present pages, one to one; their frames are different
    frames of the main memory, and there are not more of them than frames. -/
structure Agrees (memory : PagedMemory) : Prop where
  corresponds : memory.usedFrames.Perm (memory.presentPages.map some)
  distinct : (memory.usedFrames.map (Option.map Mapping.frame)).Nodup
  inRange : ∀ entry ∈ memory.usedFrames, ∃ mapping,
    entry = some mapping ∧ InMainMemory config mapping.frame
  bounded : (memory.framesUsedList.length : Int) ≤ config.frameCount.toInt

/-- A page fault while some frame is free gives the page a frame that was unused, and takes no page out
    of `frames_used_list`. -/
def FaultUsesFreeFrame (memory : PagedMemory) : MemoryRequest → Prop
  | .pageFault pcb => ∀ next, memory.step config stringAt (.pageFault pcb) = some next →
      (∃ free, InMainMemory config free ∧ memory.Unused free) →
      ∃ frame, memory.Unused frame ∧
        next.usedFrames.Perm
          (some { pid := pcb.pid.toInt32, pageNumber := pcb.tablePages.toInt, frame := frame } ::
            memory.usedFrames)
  | .reserveSwap .. | .getFrame _ | .finishProcess _ => True

/-- From the empty memory every request completes, page tables and frames agree after each of them, and
    page faults use the free frames first. -/
def KeepsBooks (requests : List MemoryRequest) : Prop :=
  (∃ final, run (step config stringAt) initPageTableList requests = some final) ∧
    Throughout (step config stringAt) (Agrees config) initPageTableList requests ∧
    Meets (step config stringAt) (FaultUsesFreeFrame config stringAt) initPageTableList requests

/-! ### What completes -/

/-- Walking through `page_table_list` up to the first table of the process meets no table that has been
    freed, and that table has the page. -/
def ReachesPage (memory : PagedMemory) (pid pageNumber : Int32) : Prop :=
  ∃ before pointer after pageTable, memory.pageTableList = before ++ pointer :: after ∧
    (∀ other ∈ before, ∃ earlier, memory.pageTables.read other = some earlier ∧
      earlier.pid ≠ pid) ∧
    memory.pageTables.read pointer = some pageTable ∧ pageTable.pid = pid ∧
    0 ≤ pageNumber ∧ pageNumber.toInt.toNat < pageTable.pages.length

/-- RESERVE_SWAP, or a GET_FRAME that reaches its page. -/
def OnlySearches (memory : PagedMemory) : MemoryRequest → Prop
  | .reserveSwap .. => True
  | .getFrame pcb => memory.ReachesPage pcb.pid.toInt32 pcb.tablePages
  | .pageFault _ | .finishProcess _ => False

/-- No page has ever been given a frame, and the pages of the tables are allocated. -/
structure Unfaulted (memory : PagedMemory) : Prop where
  noFrames : memory.framesUsedList = []
  absent : ∀ {pointer page}, memory.pages.read pointer = some page → page.presence = 0
  allocated : ∀ {pointer pageTable}, memory.pageTables.read pointer = some pageTable →
    ∀ page ∈ pageTable.pages, ∃ contents, memory.pages.read page = some contents

theorem findTable_eq_some_iff {pageTables : Cells PageTable} {pid : Int32} {list : List Nat}
    {pointer : Nat} :
    findTable pageTables pid list = some pointer ↔
      ∃ before after pageTable, list = before ++ pointer :: after ∧
        (∀ other ∈ before, ∃ earlier, pageTables.read other = some earlier ∧ earlier.pid ≠ pid) ∧
        pageTables.read pointer = some pageTable ∧ pageTable.pid = pid := by
  induction list with
  | nil => simp [findTable]
  | cons head rest ih =>
      rw [findTable, Option.bind_eq_some_iff]
      constructor
      · rintro ⟨pageTable, stored, found⟩
        split at found
        · next same =>
            obtain rfl := Option.some.inj found
            exact ⟨[], rest, pageTable, rfl, by simp, stored, same⟩
        · next another =>
            obtain ⟨before, after, last, rfl, earlier, atLast, same⟩ := ih.mp found
            refine ⟨head :: before, after, last, rfl, ?_, atLast, same⟩
            intro other member
            rcases List.mem_cons.mp member with rfl | older
            · exact ⟨pageTable, stored, another⟩
            · exact earlier other older
      · rintro ⟨before, after, last, listEq, earlier, atLast, same⟩
        cases before with
        | nil =>
            obtain ⟨rfl, rfl⟩ := List.cons.inj listEq
            exact ⟨last, atLast, if_pos same⟩
        | cons first before =>
            obtain ⟨rfl, rfl⟩ := List.cons.inj listEq
            obtain ⟨pageTable, stored, another⟩ := earlier head List.mem_cons_self
            refine ⟨pageTable, stored, ?_⟩
            rw [if_neg another]
            exact ih.mpr ⟨before, after, last, rfl,
              fun other member => earlier other (List.mem_cons_of_mem _ member), atLast, same⟩

theorem exists_listGet_iff {α : Type} {list : List α} {index : Int32} :
    (∃ element, listGet list index = some element) ↔
      0 ≤ index ∧ index.toInt.toNat < list.length := by
  unfold listGet
  by_cases nonneg : 0 ≤ index
  · rw [if_pos nonneg]
    constructor
    · rintro ⟨element, found⟩
      exact ⟨nonneg, (List.getElem?_eq_some_iff.mp found).1⟩
    · rintro ⟨_, inside⟩
      exact ⟨list[index.toInt.toNat], List.getElem?_eq_getElem inside⟩
  · simp [nonneg]

theorem mem_of_listGet {α : Type} {list : List α} {index : Int32} {element : α}
    (found : listGet list index = some element) : element ∈ list := by
  unfold listGet at found
  split at found
  · exact List.mem_of_getElem? found
  · cases found

/-! ### One request -/

/-- The loop of `create_page_table` stores pages that are not present and changes none. -/
theorem createPages_spec (swapBlocks : List UInt32) (pages : Cells Page) :
    (∀ pointer page, pages.read pointer = some page →
        (createPages config swapBlocks pages).1.read pointer = some page) ∧
      (∀ pointer page, (createPages config swapBlocks pages).1.read pointer = some page →
        pages.read pointer = some page ∨ page.presence = 0) ∧
      ∀ pointer ∈ (createPages config swapBlocks pages).2,
        ∃ page, (createPages config swapBlocks pages).1.read pointer = some page := by
  induction swapBlocks generalizing pages with
  | nil => exact ⟨fun _ _ stored => stored, fun _ _ stored => .inl stored, by simp [createPages]⟩
  | cons swapBlock swapBlocks ih =>
      let created := createPage (swapBlock.toInt32 * config.paginationSize)
      obtain ⟨kept, origin, fresh⟩ := ih (pages.malloc created).1
      refine ⟨?_, ?_, ?_⟩
      · intro pointer page stored
        exact kept pointer page (Cells.read_malloc_of_read stored)
      · intro pointer page stored
        rcases origin pointer page stored with older | absent
        · rw [Cells.read_malloc] at older
          split at older
          · obtain rfl := Option.some.inj older
            exact .inr rfl
          · exact .inl older
        · exact .inr absent
      · intro pointer member
        rcases List.mem_cons.mp member with rfl | later
        · refine ⟨created, kept _ _ ?_⟩
          rw [Cells.read_malloc]
          exact if_pos rfl
        · exact fresh pointer later

theorem Unfaulted.reserveSwapMemory {memory : PagedMemory} (unfaulted : memory.Unfaulted)
    (pid : Int32) (swapBlocks : List UInt32) :
    (memory.reserveSwapMemory config pid swapBlocks).Unfaulted := by
  obtain ⟨kept, origin, fresh⟩ := createPages_spec config swapBlocks memory.pages
  constructor
  · exact unfaulted.noFrames
  · intro pointer page stored
    rcases origin pointer page stored with older | absent
    · exact unfaulted.absent older
    · exact absent
  · intro pointer pageTable stored page member
    have read : (memory.pageTables.malloc
        { pages := (createPages config swapBlocks memory.pages).2, pid := pid }).1.read pointer =
          some pageTable := stored
    rw [Cells.read_malloc] at read
    split at read
    · obtain rfl := Option.some.inj read
      exact fresh page member
    · obtain ⟨contents, older⟩ := unfaulted.allocated read page member
      exact ⟨contents, kept page contents older⟩

/-- Before any page fault, `get_frame` answers `PAGE_FAULT` and frees the page table it has found. -/
theorem Unfaulted.getFrame_eq_some_iff {memory next : PagedMemory} (unfaulted : memory.Unfaulted)
    {pcb : Pcb} :
    memory.getFrame config stringAt pcb = some next ↔
      ∃ pointer table tablePages, memory.getTablePagesByPid pcb.pid.toInt32 = some pointer ∧
        memory.pageTables.read pointer = some table ∧
        listGet table.pages pcb.tablePages = some tablePages ∧
        next = { memory.reply .pageFault with
          pageTables := memory.pageTables.set pointer none } := by
  have answered : ∀ {pointer table tablePages}, memory.pageTables.read pointer = some table →
      listGet table.pages pcb.tablePages = some tablePages →
      ∃ page, memory.pages.read tablePages = some page ∧ ¬ page.presence = 1 ∧
        (memory.reply .pageFault).freePageTable pointer =
          some { memory.reply .pageFault with
            pageTables := memory.pageTables.set pointer none } := by
    intro pointer table tablePages stored found
    obtain ⟨page, contents⟩ := unfaulted.allocated stored tablePages (mem_of_listGet found)
    have freed : memory.pageTables.free pointer = some (memory.pageTables.set pointer none) :=
      Cells.free_eq_some_iff.mpr ⟨⟨table, stored⟩, rfl⟩
    refine ⟨page, contents, ?_, ?_⟩
    · rw [unfaulted.absent contents]
      decide
    · simp only [freePageTable, reply, freed, Option.map_some]
  unfold getFrame
  simp only [Option.bind_eq_bind]
  constructor
  · intro completed
    obtain ⟨pointer, located, completed⟩ := Option.bind_eq_some_iff.mp completed
    obtain ⟨table, stored, completed⟩ := Option.bind_eq_some_iff.mp completed
    obtain ⟨tablePages, found, completed⟩ := Option.bind_eq_some_iff.mp completed
    obtain ⟨page, contents, absent, freed⟩ := answered stored found
    rw [contents, Option.bind_some, if_neg absent, Option.bind_some, freed] at completed
    exact ⟨pointer, table, tablePages, located, stored, found, (Option.some.inj completed).symm⟩
  · rintro ⟨pointer, table, tablePages, located, stored, found, rfl⟩
    obtain ⟨page, contents, absent, freed⟩ := answered stored found
    rw [located, Option.bind_some, stored, Option.bind_some, found, Option.bind_some, contents,
      Option.bind_some, if_neg absent, Option.bind_some, freed]

/-- Before any page fault there is no frame to replace: the first page fault reads through the null
    pointer. -/
theorem Unfaulted.handlePageFault_eq_none {memory : PagedMemory} (unfaulted : memory.Unfaulted)
    (pcb : Pcb) : memory.handlePageFault config pcb = none := by
  have nothing : ∀ newPage pid pageNumber,
      memory.replacePageFifo config newPage pid pageNumber = none := by
    intro newPage pid pageNumber
    rw [replacePageFifo, replacePageFifoWith, unfaulted.noFrames]
    rfl
  simp [handlePageFault, nothing]

/-- Nothing is received from a number that is no descriptor, and the attempt does not come back. -/
theorem handleFinishProcess_eq_none (memory : PagedMemory) :
    memory.handleFinishProcess stringAt = none := by
  have waits : receivePayload badDescriptor { stream := [], calls := 0 } = none := rfl
  rw [handleFinishProcess, waits]
  rfl

/-- Before any page fault the requests that complete are those that only search. -/
theorem Unfaulted.step_enabled {memory : PagedMemory} (unfaulted : memory.Unfaulted)
    {request : MemoryRequest} :
    (∃ next, memory.step config stringAt request = some next) ↔ memory.OnlySearches request := by
  cases request with
  | reserveSwap pid swapBlocks => exact ⟨fun _ => trivial, fun _ => ⟨_, rfl⟩⟩
  | getFrame pcb =>
      simp only [PagedMemory.step, unfaulted.getFrame_eq_some_iff config stringAt, OnlySearches,
        ReachesPage, getTablePagesByPid, findTable_eq_some_iff]
      constructor
      · rintro ⟨_, pointer, table, tablePages, ⟨before, after, found, list, earlier, stored, same⟩,
          read, page, _⟩
        obtain rfl : found = table := Option.some.inj (stored.symm.trans read)
        exact ⟨before, pointer, after, found, list, earlier, stored, same,
          exists_listGet_iff.mp ⟨tablePages, page⟩⟩
      · rintro ⟨before, pointer, after, table, list, earlier, stored, same, inside⟩
        obtain ⟨tablePages, page⟩ := exists_listGet_iff.mpr inside
        exact ⟨_, pointer, table, tablePages,
          ⟨before, after, table, list, earlier, stored, same⟩, stored, page, rfl⟩
  | pageFault pcb =>
      simp [PagedMemory.step, unfaulted.handlePageFault_eq_none, OnlySearches]
  | finishProcess pcb =>
      simp [PagedMemory.step, handleFinishProcess_eq_none, OnlySearches]

/-- A request that completes gives no page a frame. -/
theorem Unfaulted.step {memory next : PagedMemory} (unfaulted : memory.Unfaulted)
    {request : MemoryRequest} (completed : memory.step config stringAt request = some next) :
    next.Unfaulted := by
  cases request with
  | reserveSwap pid swapBlocks =>
      obtain rfl := Option.some.inj completed
      exact unfaulted.reserveSwapMemory config pid swapBlocks
  | getFrame pcb =>
      obtain ⟨pointer, table, tablePages, _, stored, _, rfl⟩ :=
        (unfaulted.getFrame_eq_some_iff config stringAt).mp completed
      constructor
      · exact unfaulted.noFrames
      · exact fun read => unfaulted.absent read
      · intro other pageTable read page member
        have freed : memory.pageTables.free pointer =
            some (memory.pageTables.set pointer none) :=
          Cells.free_eq_some_iff.mpr ⟨⟨table, stored⟩, rfl⟩
        rw [Cells.read_free freed] at read
        split at read
        · cases read
        · exact unfaulted.allocated read page member
  | pageFault pcb =>
      rw [PagedMemory.step, unfaulted.handlePageFault_eq_none] at completed
      cases completed
  | finishProcess pcb =>
      rw [PagedMemory.step, handleFinishProcess_eq_none] at completed
      cases completed

theorem unfaulted_initPageTableList : initPageTableList.Unfaulted where
  noFrames := rfl
  absent := by simp [initPageTableList, Cells.read]
  allocated := by simp [initPageTableList, Cells.read]

theorem frameCount_nonneg : 0 ≤ config.frameCount.toInt := by
  have size : 0 ≤ config.memorySize.toInt := Int32.le_iff_toInt_le.mp config.memorySize_nonneg
  have positive : 0 < config.paginationSize.toInt :=
    Int32.lt_iff_toInt_lt.mp config.paginationSize_pos
  have least : config.memorySize ≠ Int32.minValue := by
    rintro isLeast
    rw [isLeast] at size
    exact absurd size (by decide)
  rw [MemoryConfig.frameCount, Int32.toInt_div_of_ne_left _ _ least]
  exact Int.tdiv_nonneg size (Int.le_of_lt positive)

/-- Before any page fault no page is present and no frame is used. -/
theorem Unfaulted.agrees {memory : PagedMemory} (unfaulted : memory.Unfaulted) :
    memory.Agrees config := by
  have unused : memory.usedFrames = [] := by
    rw [usedFrames, unfaulted.noFrames, List.map_nil]
  have absent : ∀ pageTable, presentPagesOf memory.pages pageTable = [] := by
    intro pageTable
    rw [presentPagesOf, List.filterMap_eq_nil_iff]
    rintro ⟨pointer, number⟩ _
    dsimp only
    cases stored : memory.pages.read pointer with
    | none => rfl
    | some page => simp [unfaulted.absent stored]
  have none_present : memory.presentPages = [] := by
    rw [presentPages, List.flatMap_eq_nil_iff]
    intro pointer _
    cases memory.pageTables.read pointer with
    | none => rfl
    | some pageTable => exact absent pageTable
  constructor
  · rw [unused, none_present]
    exact List.Perm.nil
  · simp [unused]
  · simp [unused]
  · rw [unfaulted.noFrames]
    exact frameCount_nonneg config

theorem Unfaulted.faultUsesFreeFrame {memory : PagedMemory} (unfaulted : memory.Unfaulted)
    (request : MemoryRequest) : memory.FaultUsesFreeFrame config stringAt request := by
  cases request with
  | pageFault pcb =>
      intro next completed
      rw [PagedMemory.step, unfaulted.handlePageFault_eq_none] at completed
      cases completed
  | _ => trivial

end PagedMemory

/-- From the empty memory, every request completes and page tables and frames agree exactly when every
    request is a RESERVE_SWAP, or a GET_FRAME that reaches its page before any page table that has been
    freed. -/
theorem keepsBooks_iff (config : MemoryConfig) (stringAt : Int32 → Option String)
    (requests : List MemoryRequest) :
    PagedMemory.KeepsBooks config stringAt requests ↔
      Meets (PagedMemory.step config stringAt) PagedMemory.OnlySearches initPageTableList
        requests := by
  have kept : ∀ {memory : PagedMemory} {request next}, memory.Unfaulted →
      memory.step config stringAt request = some next → next.Unfaulted :=
    fun unfaulted completed => unfaulted.step config stringAt completed
  have unfaulted : Throughout (PagedMemory.step config stringAt) PagedMemory.Unfaulted
      initPageTableList requests :=
    throughout_of_guarded_run (fun holds _ completed => kept holds completed)
      PagedMemory.unfaulted_initPageTableList (meets_of_forall fun _ _ => trivial)
  have completes :
      (∃ final, run (PagedMemory.step config stringAt) initPageTableList requests = some final) ↔
        Meets (PagedMemory.step config stringAt) PagedMemory.OnlySearches initPageTableList
          requests :=
    exists_run_iff_meets PagedMemory.Unfaulted kept
      (fun holds => holds.step_enabled config stringAt) PagedMemory.unfaulted_initPageTableList
  rw [PagedMemory.KeepsBooks, completes]
  constructor
  · exact fun keeps => keeps.1
  · intro searches
    exact ⟨searches, unfaulted.imp fun _ holds => holds.agrees config,
      unfaulted.meets fun _ request holds => holds.faultUsesFreeFrame config stringAt request⟩

/-- The sizes of `memory.config`; `FIFO` is no number, and is read as 0. -/
def shippedMemoryConfig : MemoryConfig where
  memorySize := 1024
  paginationSize := 32
  replacementAlgorithm := 0
  memorySize_nonneg := by decide
  paginationSize_pos := by decide

/-- A process with one page is registered, and its page faults while all 32 frames are free. -/
theorem firstPageFault_crashes :
    ¬ PagedMemory.KeepsBooks shippedMemoryConfig (fun _ => none)
      [.reserveSwap 1 [0], .pageFault (createPcb 1 "A" 0 0)] := by
  rintro ⟨⟨final, completed⟩, _⟩
  have crashed : run (PagedMemory.step shippedMemoryConfig fun _ => none) initPageTableList
      [.reserveSwap 1 [0], .pageFault (createPcb 1 "A" 0 0)] = none := by
    decide +kernel
  rw [crashed] at completed
  cases completed

end OsSimulator
