/-
Module: OsSimulator.Proofs.Replacement
Purpose: What `replace_page_fifo` leaves behind, whatever `list_add` makes of the page that
  `update_victim` gives it for a list: the entry it adds to `frames_used_list` is freed, and the victim
  is not put back into its table.
Main exports: PagedMemory.Victim, PagedMemory.Victim.Replaces,
  PagedMemory.updateVictim_removes, replacePageFifo_never_replaces
-/
import OsSimulator.Proofs.Frames

namespace OsSimulator

namespace PagedMemory

/-- The page in the frame of the first entry of `frames_used_list`. -/
structure Victim (memory : PagedMemory) where
  entry : Nat
  framePage : FramePage
  table : Nat
  pageTable : PageTable
  page : Nat
  contents : Page
  first : memory.framesUsedList.head? = some entry
  used : memory.framePages.read entry = some framePage
  located : memory.getTablePagesByPid framePage.pid = some table
  stored : memory.pageTables.read table = some pageTable
  atNumber : listGet pageTable.pages framePage.pageNumber = some page
  held : memory.pages.read page = some contents

/-- The victim is no longer present, the new page has its frame, the new page's entry has come to the
    end of `frames_used_list`, and nothing else is different. -/
structure Victim.Replaces {before : PagedMemory} (victim : Victim before) (newPage : Nat)
    (pid pageNumber : Int32) (after : PagedMemory) : Prop where
  taken : after.pages.read victim.page = some { victim.contents with presence := 0, modified := 0 }
  given : ∃ absent, before.pages.read newPage = some absent ∧ after.pages.read newPage =
    some { absent with frame := victim.framePage.frame, presence := 1 }
  others : ∀ other, other ≠ victim.page → other ≠ newPage →
    after.pages.read other = before.pages.read other
  pageTableList : after.pageTableList = before.pageTableList
  pageTables : ∀ pointer ∈ before.pageTableList,
    after.pageTables.read pointer = before.pageTables.read pointer
  framesUsedList : ∃ last, after.framesUsedList = before.framesUsedList.tail ++ [last] ∧
    after.framePages.read last = some
      { frame := victim.framePage.frame, modified := 0, pageNumber := pageNumber, pid := pid }
  framePages : ∀ other ∈ before.framesUsedList.tail,
    after.framePages.read other = before.framePages.read other

variable {config : MemoryConfig} {listAdd : Nat → Int32 → PagedMemory → Option PagedMemory}
  {memory next : PagedMemory} {newPage : Option Nat} {pid pageNumber : Int32}

/-- A read whose value nobody uses may fail, but changes nothing. -/
theorem eq_some_of_guarded_read {reads : Prop} [Decidable reads] {read : Option Unit}
    {rest : Option PagedMemory}
    (completed : (if reads then read.bind fun _ => rest else rest) = some next) :
    rest = some next := by
  split at completed
  · obtain ⟨_, _, completed⟩ := Option.bind_eq_some_iff.mp completed
    exact completed
  · exact completed

/-- What `update_victim` has done when it completes: the victim is out of its table. -/
theorem updateVictim_completed {framePage : FramePage}
    (completed : memory.updateVictimWith listAdd framePage = some next) :
    ∃ pointer pageTable page pageTables contents pages,
      memory.getTablePagesByPid framePage.pid = some pointer ∧
      memory.pageTables.read pointer = some pageTable ∧
      listGet pageTable.pages framePage.pageNumber = some page ∧
      memory.pageTables.write pointer { pageTable with
        pages := pageTable.pages.eraseIdx framePage.pageNumber.toInt.toNat } = some pageTables ∧
      memory.pages.read page = some contents ∧
      memory.pages.write page { contents with modified := 0, presence := 0 } = some pages ∧
      listAdd page framePage.pageNumber { memory with pageTables := pageTables, pages := pages } =
        some next := by
  simp only [updateVictimWith, Option.bind_eq_bind] at completed
  obtain ⟨pointer, located, completed⟩ := Option.bind_eq_some_iff.mp completed
  obtain ⟨pageTable, stored, completed⟩ := Option.bind_eq_some_iff.mp completed
  obtain ⟨⟨page, rest⟩, removed, completed⟩ := Option.bind_eq_some_iff.mp completed
  obtain ⟨pageTables, removedTable, completed⟩ := Option.bind_eq_some_iff.mp completed
  obtain ⟨contents, held, completed⟩ := Option.bind_eq_some_iff.mp completed
  obtain ⟨pages, edited, completed⟩ := Option.bind_eq_some_iff.mp completed
  obtain ⟨found, at_number, same⟩ := Option.map_eq_some_iff.mp removed
  obtain ⟨rfl, rfl⟩ := Prod.mk.inj same
  exact ⟨pointer, pageTable, found, pageTables, contents, pages, located, stored, at_number,
    removedTable, held, edited, completed⟩

/-- The page that is replaced is missing in its table, unless `list_add` changes page tables. -/
theorem updateVictim_removes {framePage : FramePage}
    (keeps : ∀ page number (before after : PagedMemory),
      listAdd page number before = some after → after.pageTables = before.pageTables)
    (completed : memory.updateVictimWith listAdd framePage = some next) :
    ∃ pointer before after, memory.getTablePagesByPid framePage.pid = some pointer ∧
      memory.pageTables.read pointer = some before ∧ next.pageTables.read pointer = some after ∧
      after.pages.length + 1 = before.pages.length := by
  obtain ⟨pointer, pageTable, page, pageTables, contents, pages, located, stored, at_number, written,
    _, _, added⟩ := updateVictim_completed completed
  have inside : framePage.pageNumber.toInt.toNat < pageTable.pages.length :=
    (exists_listGet_iff.mp ⟨page, at_number⟩).2
  have without := Cells.read_write_self written
  refine ⟨pointer, pageTable, { pageTable with
    pages := pageTable.pages.eraseIdx framePage.pageNumber.toInt.toNat }, located, stored, ?_, ?_⟩
  · rw [keeps _ _ _ _ added]
    exact without
  · dsimp only
    rw [List.length_eraseIdx_of_lt inside]
    omega

/-- What `replace_page_fifo` has done to `frames_used_list` when it completes. -/
theorem replacePageFifo_completed
    (completed : memory.replacePageFifoWith config listAdd newPage pid pageNumber = some next) :
    ∃ pointer replaced later, listGet memory.framesUsedList 0 = some pointer ∧
      memory.framePages.read pointer = some replaced ∧
      memory.updateVictimWith listAdd replaced = some later ∧
      next.framesUsedList = later.framesUsedList.tail ++ [later.framePages.length] ∧
      (later.framePages.malloc
          { frame := replaced.frame, modified := 0, pageNumber := pageNumber, pid := pid }).1.free
        later.framePages.length = some next.framePages := by
  simp only [replacePageFifoWith, Option.bind_eq_bind] at completed
  obtain ⟨pointer, first, completed⟩ := Option.bind_eq_some_iff.mp completed
  obtain ⟨replaced, stored, completed⟩ := Option.bind_eq_some_iff.mp completed
  replace completed := eq_some_of_guarded_read completed
  obtain ⟨later, updated, completed⟩ := Option.bind_eq_some_iff.mp completed
  obtain ⟨page, _, completed⟩ := Option.bind_eq_some_iff.mp completed
  obtain ⟨contents, _, completed⟩ := Option.bind_eq_some_iff.mp completed
  obtain ⟨pages, _, completed⟩ := Option.bind_eq_some_iff.mp completed
  obtain ⟨framePages, freed, completed⟩ := Option.bind_eq_some_iff.mp completed
  obtain rfl := Option.some.inj completed
  exact ⟨pointer, replaced, later, first, stored, updated, rfl, freed⟩

/-- The entry that is new at the end of `frames_used_list` has been freed. -/
theorem replacePageFifo_leaves_freed
    (completed : memory.replacePageFifoWith config listAdd newPage pid pageNumber = some next) :
    ∃ last, next.framesUsedList.getLast? = some last ∧ next.framePages.read last = none := by
  obtain ⟨_, _, later, _, _, _, list, freed⟩ := replacePageFifo_completed completed
  refine ⟨later.framePages.length, ?_, ?_⟩
  · rw [list, List.getLast?_concat]
  · rw [Cells.read_free freed, if_pos rfl]

end PagedMemory

/-- Whatever the tables, the used frames and the new page are, and whatever `list_add` does to a page:
    `replace_page_fifo` never replaces the first page by the new one and nothing else. -/
theorem replacePageFifo_never_replaces (config : MemoryConfig)
    (listAdd : Nat → Int32 → PagedMemory → Option PagedMemory) (memory : PagedMemory) (newPage : Nat)
    (pid pageNumber : Int32) :
    ¬ ∃ next,
      memory.replacePageFifoWith config listAdd (some newPage) pid pageNumber = some next ∧
        ∃ victim : memory.Victim, victim.Replaces newPage pid pageNumber next := by
  rintro ⟨next, completed, victim, replaces⟩
  obtain ⟨last, atEnd, freed⟩ := PagedMemory.replacePageFifo_leaves_freed completed
  obtain ⟨entry, list, stored⟩ := replaces.framesUsedList
  rw [list, List.getLast?_concat] at atEnd
  obtain rfl := Option.some.inj atEnd
  rw [freed] at stored
  cases stored

/-- Page 0 of process 1 is in frame 3, and page 0 of process 2 in none. -/
def twoTables : PagedMemory where
  pages := [some { frame := 3, presence := 1, modified := 0, swapPosition := 0 },
    some { frame := 0, presence := 0, modified := 0, swapPosition := 32 }]
  pageTables := [some { pages := [0], pid := 1 }, some { pages := [1], pid := 2 }]
  framePages := [some { frame := 3, modified := 0, pageNumber := 0, pid := 1 }]
  pageTableList := [0, 1]
  framesUsedList := [0]
  replies := []

/-- With a `list_add` that changes nothing: process 1 is left without a page. -/
theorem twoTables_not_replaced :
    ¬ ∃ next, twoTables.replacePageFifoWith shippedMemoryConfig (fun _ _ memory => some memory)
        (some 1) 2 0 = some next ∧
      ∃ victim : twoTables.Victim, victim.Replaces 1 2 0 next := by
  rintro ⟨next, completed, victim, replaces⟩
  have lost : (twoTables.replacePageFifoWith shippedMemoryConfig (fun _ _ memory => some memory)
      (some 1) 2 0).map (fun memory => memory.pageTables.read 0) =
        some (some { pages := [], pid := 1 }) := by decide
  rw [completed, Option.map_some, replaces.pageTables 0 (by decide)] at lost
  exact absurd lost (by decide)

/-- The page of `twoTables` that is to be replaced. -/
def twoTablesVictim : twoTables.Victim where
  entry := 0
  framePage := { frame := 3, modified := 0, pageNumber := 0, pid := 1 }
  table := 0
  pageTable := { pages := [0], pid := 1 }
  page := 0
  contents := { frame := 3, presence := 1, modified := 0, swapPosition := 0 }
  first := rfl
  used := rfl
  located := by decide
  stored := rfl
  atNumber := by decide
  held := rfl

-- What the source is after: the page is replaced, and the new entry is kept.
example : twoTablesVictim.Replaces 1 2 0
    { twoTables with
      pages := [some { frame := 3, presence := 0, modified := 0, swapPosition := 0 },
        some { frame := 3, presence := 1, modified := 0, swapPosition := 32 }]
      framePages := twoTables.framePages ++
        [some { frame := 3, modified := 0, pageNumber := 0, pid := 2 }]
      framesUsedList := [1] } where
  taken := rfl
  given := ⟨{ frame := 0, presence := 0, modified := 0, swapPosition := 32 }, rfl, rfl⟩
  others := by
    intro other notVictim notNew
    match other with
    | 0 => exact absurd rfl notVictim
    | 1 => exact absurd rfl notNew
    | other + 2 => rfl
  pageTableList := rfl
  pageTables := fun _ _ => rfl
  framesUsedList := ⟨1, rfl, rfl⟩
  framePages := by decide

end OsSimulator
