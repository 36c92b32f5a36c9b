/-
Module: OsSimulator.Memory.PageTable
Purpose: The page tables and the list of used frames of `page_table.c`.  Page tables, pages and frame
  entries are allocated cells; an operation is `none` where the source reads through a null pointer,
  reads or frees what it has freed, or uses a page as a list.
Main exports: MemoryConfig, Page, PageTable, FramePage, PagedMemory, PagedMemory.createPageTable,
  PagedMemory.getTablePagesByPid, PagedMemory.updateVictimWith, PagedMemory.replacePageFifo,
  PagedMemory.deleteFromFrameList
-/
import OsSimulator.Lib.Cells
import OsSimulator.Shared.Messages

namespace OsSimulator

/-- The part of `t_memory_config` that the page tables use.  `create_memory_config` reads
    `REPLACEMENT_ALGORITHM` with `config_get_int_value`: it is a number, used as an address. -/
structure MemoryConfig where
  memorySize : Int32
  paginationSize : Int32
  replacementAlgorithm : Int32
  memorySize_nonneg : 0 ≤ memorySize
  paginationSize_pos : 0 < paginationSize

/-- How many frames the main memory has, as `check_full` computes it. -/
def MemoryConfig.frameCount (config : MemoryConfig) : Int32 :=
  config.memorySize / config.paginationSize

/-- `t_page`. -/
structure Page where
  frame : Int32
  presence : Int32
  modified : Int32
  swapPosition : Int32
deriving DecidableEq, Repr

/-- `t_frame_page`. -/
structure FramePage where
  frame : Int32
  modified : Int32
  pageNumber : Int32
  pid : Int32
deriving DecidableEq, Repr

/-- `t_page_table`, with pointers to the pages. -/
structure PageTable where
  pages : List Nat
  pid : Int32
deriving DecidableEq, Repr

/-- What the memory program sends: the answers to `GET_FRAME`, and the message of `send_swap`. -/
inductive MemoryReply where
  | pageFault
  | getFrame (frame : Int32)
  | swap (pid : Int32) (positions : List String)
deriving DecidableEq, Repr

/-- What is allocated, the two global lists of pointers, and what was sent, the last first. -/
structure PagedMemory where
  pages : Cells Page
  pageTables : Cells PageTable
  framePages : Cells FramePage
  pageTableList : List Nat
  framesUsedList : List Nat
  replies : List MemoryReply
deriving DecidableEq, Repr

/-- `init_page_table_list`. -/
def initPageTableList : PagedMemory where
  pages := []
  pageTables := []
  framePages := []
  pageTableList := []
  framesUsedList := []
  replies := []

/-- `list_get`; `none` is the null pointer. -/
def listGet {α : Type} (list : List α) (index : Int32) : Option α :=
  if 0 ≤ index then list[index.toInt.toNat]? else none

/-- `list_remove`, with what is left of the list. -/
def listRemove {α : Type} (list : List α) (index : Int32) : Option (α × List α) :=
  (listGet list index).map fun element => (element, list.eraseIdx index.toInt.toNat)

/-- `create_page`. -/
def createPage (swapPosition : Int32) : Page where
  frame := 0
  presence := 0
  modified := 0
  swapPosition := swapPosition

/-- `check_modified`. -/
def checkModified (pageModified : Int32) : Bool := pageModified == 1

namespace PagedMemory

variable (config : MemoryConfig) (stringAt : Int32 → Option String)

/-- The loop of `create_page_table`. -/
def createPages : List UInt32 → Cells Page → Cells Page × List Nat
  | [], pages => (pages, [])
  | swapBlock :: swapBlocks, pages =>
      let swapPosition := swapBlock.toInt32 * config.paginationSize
      let (pages, page) := pages.malloc (createPage swapPosition)
      let (pages, rest) := createPages swapBlocks pages
      (pages, page :: rest)

/-- `create_page_table`, with the pointer it returns. -/
def createPageTable (pid : Int32) (swapBlocks : List UInt32) (memory : PagedMemory) :
    PagedMemory × Nat :=
  let (pages, pointers) := createPages config swapBlocks memory.pages
  let (pageTables, pageTable) := memory.pageTables.malloc { pages := pointers, pid := pid }
  ({ memory with pages := pages, pageTables := pageTables }, pageTable)

/-- The loop of `get_table_pages_by_pid`; at the end of the list nothing is returned. -/
def findTable (pageTables : Cells PageTable) (pid : Int32) : List Nat → Option Nat
  | [] => none
  | pointer :: rest =>
      (pageTables.read pointer).bind fun pageTable =>
        if pageTable.pid = pid then some pointer else findTable pageTables pid rest

/-- `get_table_pages_by_pid`. -/
def getTablePagesByPid (pid : Int32) (memory : PagedMemory) : Option Nat :=
  findTable memory.pageTables pid memory.pageTableList

/-- The loop of `delete_page_table`: the swap positions, and the cells without the pages. -/
def freePages : List Nat → Cells Page → Option (List Int32 × Cells Page)
  | [], pages => some ([], pages)
  | pointer :: rest, pages => do
      let page ← pages.read pointer
      let pages ← pages.free pointer
      let (swapPositions, pages) ← freePages rest pages
      return (page.swapPosition :: swapPositions, pages)

/-- `delete_page_table`. -/
def deletePageTable (pointer : Nat) (memory : PagedMemory) :
    Option (List Int32 × PagedMemory) := do
  let pageTable ← memory.pageTables.read pointer
  let (swapPositions, pages) ← freePages pageTable.pages memory.pages
  let pageTables ← memory.pageTables.free pointer
  return (swapPositions, { memory with pages := pages, pageTables := pageTables })

/-- The `memcpy` of four bytes out of the main memory, whose value nobody uses. -/
def readMainMemory (position : Int32) : Option Unit :=
  if 0 ≤ position ∧ position.toInt + 4 ≤ config.memorySize.toInt then some () else none

/-- `list_add` on a page: a page is no list, and the source goes on with what it takes for one. -/
def listAddToPage (_page : Nat) (_pageNumber : Int32) (_memory : PagedMemory) :
    Option PagedMemory :=
  none

/-- `update_victim`, where `listAdd` is what `list_add` makes of the page that it gets for a list. -/
def updateVictimWith (listAdd : Nat → Int32 → PagedMemory → Option PagedMemory)
    (framePage : FramePage) (memory : PagedMemory) : Option PagedMemory := do
  let pointer ← memory.getTablePagesByPid framePage.pid
  let pageTable ← memory.pageTables.read pointer
  let (page, rest) ← listRemove pageTable.pages framePage.pageNumber
  let pageTables ← memory.pageTables.write pointer { pageTable with pages := rest }
  let victim ← memory.pages.read page
  let pages ← memory.pages.write page { victim with modified := 0, presence := 0 }
  listAdd page framePage.pageNumber { memory with pageTables := pageTables, pages := pages }

/-- `replace_page_fifo`; `newPage` may be the null pointer.  The entry that it adds to
    `frames_used_list` is freed at the end. -/
def replacePageFifoWith (listAdd : Nat → Int32 → PagedMemory → Option PagedMemory)
    (newPage : Option Nat) (pid pageNumber : Int32) (memory : PagedMemory) : Option PagedMemory := do
  let pointer ← listGet memory.framesUsedList 0
  let pageToGetReplaced ← memory.framePages.read pointer
  if checkModified pageToGetReplaced.modified then
    readMainMemory config (pageToGetReplaced.frame * config.paginationSize)
  let memory ← memory.updateVictimWith listAdd pageToGetReplaced
  let newPage ← newPage
  let page ← memory.pages.read newPage
  let pages ← memory.pages.write newPage
    { page with frame := pageToGetReplaced.frame, presence := 1 }
  let (framePages, newFramePage) := memory.framePages.malloc
    { frame := pageToGetReplaced.frame, modified := 0, pageNumber := pageNumber, pid := pid }
  let framePages ← framePages.free newFramePage
  return { memory with
    pages := pages
    framePages := framePages
    framesUsedList := memory.framesUsedList.tail ++ [newFramePage] }

/-- `replace_page_fifo`, which does not complete when a page is used as a list. -/
def replacePageFifo (newPage : Option Nat) (pid pageNumber : Int32) (memory : PagedMemory) :
    Option PagedMemory :=
  memory.replacePageFifoWith config listAddToPage newPage pid pageNumber

/-- The loop of `replace_page_lru_with_presence`: the index of the entry; past the end of the list it
    reads through the null pointer. -/
def findFramePage (framePages : Cells FramePage) (pid pageNumber : Int32) :
    List Nat → Nat → Option Nat
  | [], _ => none
  | pointer :: rest, index =>
      (framePages.read pointer).bind fun framePage =>
        if pid = framePage.pid ∧ pageNumber = framePage.pageNumber then
          some index
        else
          findFramePage framePages pid pageNumber rest (index + 1)

/-- `replace_page_lru_with_presence`.  The entry that it moves to the end is freed. -/
def replacePageLruWithPresence (pid pageNumber : Int32) (memory : PagedMemory) :
    Option PagedMemory := do
  let index ← findFramePage memory.framePages pid pageNumber memory.framesUsedList 0
  let framePage ← memory.framesUsedList[index]?
  let framePages ← memory.framePages.free framePage
  return { memory with
    framePages := framePages
    framesUsedList := memory.framesUsedList.eraseIdx index ++ [framePage] }

/-- The loop of `delete_from_frame_list`, with at most so many turns: it removes from the list that it
    walks over, and at the index that is the number of the frame. -/
def deleteLoop (framePages : Cells FramePage) (frame : Int32) : Nat → Nat → List Nat → Option (List Nat)
  | 0, _, list => some list
  | turns + 1, index, list =>
      match list[index]? with
      | none => some list
      | some pointer => do
          let framePage ← framePages.read pointer
          if framePage.frame = frame then
            let (_, list) ← listRemove list frame
            deleteLoop framePages frame turns (index + 1) list
          else
            deleteLoop framePages frame turns (index + 1) list

/-- `delete_from_frame_list`.  The list gets no longer while the index grows: as many turns as it has
    entries are enough. -/
def deleteFromFrameList (frame : Int32) (memory : PagedMemory) : Option PagedMemory := do
  let list ← deleteLoop memory.framePages frame memory.framesUsedList.length 0 memory.framesUsedList
  return { memory with framesUsedList := list }

end PagedMemory

end OsSimulator
