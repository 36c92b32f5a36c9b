/-
Module: OsSimulator.Memory.HandleConnection
Purpose: The handlers of `memory/src/handle_connection.c` for page tables and frames, one request at a
  time.
Main exports: MemoryRequest, PagedMemory.reserveSwapMemory, PagedMemory.getFrame,
  PagedMemory.handlePageFault, PagedMemory.handleFinishProcess, PagedMemory.step
-/
import OsSimulator.Memory.PageTable
import OsSimulator.Shared.Sockets

namespace OsSimulator

/-- A request with what its payload holds. -/
inductive MemoryRequest where
  | reserveSwap (pid : Int32) (swapBlocks : List UInt32)
  | getFrame (pcb : Pcb)
  | pageFault (pcb : Pcb)
  | finishProcess (pcb : Pcb)
deriving DecidableEq, Repr

/-- `recv` on a number that is no descriptor. -/
def badDescriptor : Transport := fun _ _ => -1

namespace PagedMemory

variable (config : MemoryConfig) (stringAt : Int32 → Option String)

/-- A message is sent. -/
def reply (message : MemoryReply) (memory : PagedMemory) : PagedMemory :=
  { memory with replies := message :: memory.replies }

/-- `reserve_swap_memory`. -/
def reserveSwapMemory (pid : Int32) (swapBlocks : List UInt32) (memory : PagedMemory) :
    PagedMemory :=
  let (memory, pageTable) := memory.createPageTable config pid swapBlocks
  { memory with pageTableList := memory.pageTableList ++ [pageTable] }

/-- `free` of a page table. -/
def freePageTable (pageTable : Nat) (memory : PagedMemory) : Option PagedMemory :=
  (memory.pageTables.free pageTable).map fun pageTables =>
    { memory with pageTables := pageTables }

/-- What `get_frame` does for a page that is present.  `strcmp` reads the string at the address that
    `replacement_algorithm` is taken for. -/
def foundFrame (pcb : Pcb) (tablePages : Nat) (memory : PagedMemory) : Option PagedMemory := do
  let replacementAlgorithm ← stringAt config.replacementAlgorithm
  let memory ←
    if replacementAlgorithm = "LRU" then
      memory.replacePageLruWithPresence pcb.pid.toInt32 pcb.tablePages
    else
      some memory
  let page ← memory.pages.read tablePages
  return memory.reply (.getFrame page.frame)

/-- `get_frame`. -/
def getFrame (pcb : Pcb) (memory : PagedMemory) : Option PagedMemory := do
  let pageTable ← memory.getTablePagesByPid pcb.pid.toInt32
  let table ← memory.pageTables.read pageTable
  let tablePages ← listGet table.pages pcb.tablePages
  let page ← memory.pages.read tablePages
  let memory ←
    if page.presence = 1 then
      memory.foundFrame config stringAt pcb tablePages
    else
      some (memory.reply .pageFault)
  memory.freePageTable pageTable

/-- `handle_page_fault`. -/
def handlePageFault (pcb : Pcb) (memory : PagedMemory) : Option PagedMemory := do
  let pageTable ← memory.getTablePagesByPid pcb.pid.toInt32
  let table ← memory.pageTables.read pageTable
  let page := listGet table.pages pcb.tablePages
  let memory ← memory.replacePageFifo config page pcb.pid.toInt32 pcb.tablePages
  memory.freePageTable pageTable

/-- `send_swap`: `add_string_to_buffer` takes every position for the address of a string. -/
def sendSwap (pid : Int32) (swapPositions : List Int32) (memory : PagedMemory) :
    Option PagedMemory := do
  let positions ← swapPositions.mapM stringAt
  return memory.reply (.swap pid positions)

/-- `handle_finish_process`.  It has no parameter: its `socket` is the function of the C library, whose
    address is no descriptor, and the PCB that follows the header stays unread.  `delete_page_table`
    has freed the table when it is freed again at the end. -/
def handleFinishProcess (memory : PagedMemory) : Option PagedMemory := do
  let (payload, _) ← receivePayload badDescriptor { stream := [], calls := 0 }
  let payload ← payload
  let (pcb, _) ← takePcbFromBuffer payload
  let pid := pcb.pid.toInt32
  let tablePage ← memory.getTablePagesByPid pid
  let (swapPositions, memory) ← memory.deletePageTable tablePage
  let memory ← memory.sendSwap stringAt pid swapPositions
  memory.freePageTable tablePage

/-- One request. -/
def step (memory : PagedMemory) : MemoryRequest → Option PagedMemory
  | .reserveSwap pid swapBlocks => some (memory.reserveSwapMemory config pid swapBlocks)
  | .getFrame pcb => memory.getFrame config stringAt pcb
  | .pageFault pcb => memory.handlePageFault config pcb
  | .finishProcess _ => memory.handleFinishProcess stringAt

end PagedMemory

end OsSimulator
