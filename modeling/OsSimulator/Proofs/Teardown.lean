/-
Module: OsSimulator.Proofs.Teardown
Purpose: What is left of a process in the memory program when it is finished.  `handle_finish_process`
  waits for ever for a payload, and if it received one, `page_table_list` and `frames_used_list` would
  still be what they were.
Main exports: MemoryProgram.TearsDown, MemoryProgram.handleFinishProcessWith_lists,
  finishProcess_never_tearsDown
-/
import OsSimulator.Memory.FinishProcess
import OsSimulator.Proofs.Frames
import OsSimulator.Proofs.RoundTrip

namespace OsSimulator

namespace PagedMemory

/-- The pointer is to a page table of the process. -/
def IsTableOf (memory : PagedMemory) (pid : Int32) (pointer : Nat) : Prop :=
  ∃ pageTable, memory.pageTables.read pointer = some pageTable ∧ pageTable.pid = pid

/-- The pointer is to an entry for a frame of the process. -/
def IsFrameOf (memory : PagedMemory) (pid : Int32) (pointer : Nat) : Prop :=
  ∃ framePage, memory.framePages.read pointer = some framePage ∧ framePage.pid = pid

/-- The swap positions of the pages of a process, in their order. -/
def swapPositions (memory : PagedMemory) (pid : Int32) : Option (List Int32) := do
  let pointer ← memory.getTablePagesByPid pid
  let pageTable ← memory.pageTables.read pointer
  let pages ← pageTable.pages.mapM memory.pages.read
  return pages.map Page.swapPosition

end PagedMemory

namespace MemoryProgram

/-- The process is torn down: the next thing on the connection to the kernel is what follows the
    payload, the filesystem was sent the positions of its pages, nothing of it is in the two lists, and
    all that is of other processes is as it was. -/
structure TearsDown (pid : Int32) (following : List UInt8) (before after : MemoryProgram) : Prop where
  consumed : after.kernelConnection.stream = following
  sent : ∃ positions package rest,
    before.memory.swapPositions pid = some positions ∧
      after.filesystemConnection = before.filesystemConnection ++ [package] ∧
      package.header = OperationCode.finishProcess.value ∧
      takeSwap (createBuffer package.payload.contents) =
        some ((pid, positions.map Int32.toUInt32), rest) ∧
      rest.offset.toNat = package.payload.contents.length
  noTable : ∀ pointer ∈ after.memory.pageTableList, ¬ before.memory.IsTableOf pid pointer
  noFrame : ∀ pointer ∈ after.memory.framesUsedList, ¬ before.memory.IsFrameOf pid pointer
  otherTables : ∀ pointer pageTable, before.memory.pageTables.read pointer = some pageTable →
    pageTable.pid ≠ pid →
      (pointer ∈ before.memory.pageTableList → pointer ∈ after.memory.pageTableList) ∧
      after.memory.pageTables.read pointer = some pageTable ∧
      ∀ page ∈ pageTable.pages, after.memory.pages.read page = before.memory.pages.read page
  otherFrames : ∀ pointer framePage, before.memory.framePages.read pointer = some framePage →
    framePage.pid ≠ pid →
      (pointer ∈ before.memory.framesUsedList → pointer ∈ after.memory.framesUsedList) ∧
      after.memory.framePages.read pointer = some framePage

variable {receive : Receiver (Option Buffer)}
  {freeAgain : Nat → PagedMemory → Option PagedMemory} {stringAt : Int32 → Option String}
  {stale : List UInt8} {before after : MemoryProgram}

/-- What `free` does leaves the two lists. -/
def KeepsLists (freeAgain : Nat → PagedMemory → Option PagedMemory) : Prop :=
  ∀ pointer memory next, freeAgain pointer memory = some next →
    next.pageTableList = memory.pageTableList ∧ next.framesUsedList = memory.framesUsedList

theorem freePageTable_keepsLists : KeepsLists PagedMemory.freePageTable := by
  intro pointer memory next freed
  obtain ⟨pageTables, _, rfl⟩ := Option.map_eq_some_iff.mp freed
  exact ⟨rfl, rfl⟩

theorem deletePageTable_lists {memory next : PagedMemory} {pointer : Nat} {positions : List Int32}
    (deleted : memory.deletePageTable pointer = some (positions, next)) :
    next.pageTableList = memory.pageTableList ∧ next.framesUsedList = memory.framesUsedList := by
  obtain ⟨pageTable, _, deleted⟩ := Option.bind_eq_some_iff.mp deleted
  obtain ⟨⟨swapPositions, pages⟩, _, deleted⟩ := Option.bind_eq_some_iff.mp deleted
  obtain ⟨pageTables, _, deleted⟩ := Option.bind_eq_some_iff.mp deleted
  obtain ⟨_, rfl⟩ := Prod.mk.inj (Option.some.inj deleted)
  exact ⟨rfl, rfl⟩

/-- Whatever is received, and even where a table can be freed twice, the two lists stay. -/
theorem handleFinishProcessWith_lists (keeps : KeepsLists freeAgain)
    (ended : before.handleFinishProcessWith receive freeAgain stringAt stale = some after) :
    after.memory.pageTableList = before.memory.pageTableList ∧
      after.memory.framesUsedList = before.memory.framesUsedList := by
  obtain ⟨⟨payload, connection⟩, _, ended⟩ := Option.bind_eq_some_iff.mp ended
  obtain ⟨buffer, _, ended⟩ := Option.bind_eq_some_iff.mp ended
  obtain ⟨⟨pcb, rest⟩, _, ended⟩ := Option.bind_eq_some_iff.mp ended
  obtain ⟨tablePage, _, ended⟩ := Option.bind_eq_some_iff.mp ended
  obtain ⟨⟨positions, deleted⟩, deletes, ended⟩ := Option.bind_eq_some_iff.mp ended
  obtain ⟨package, _, ended⟩ := Option.bind_eq_some_iff.mp ended
  obtain ⟨freed, frees, ended⟩ := Option.bind_eq_some_iff.mp ended
  obtain rfl := Option.some.inj ended
  have first := deletePageTable_lists deletes
  have last := keeps tablePage deleted freed frees
  exact ⟨last.1.trans first.1, last.2.trans first.2⟩

/-- The handler waits for ever. -/
theorem handleFinishProcess_eq_none (stringAt : Int32 → Option String) (stale : List UInt8)
    (program : MemoryProgram) : program.handleFinishProcess stringAt stale = none := by
  have waits : receivePayload badDescriptor { stream := [], calls := 0 } = none := rfl
  have nothing : receiveFromFunction program.kernelConnection = none := by
    rw [receiveFromFunction, waits]
    rfl
  rw [handleFinishProcess, handleFinishProcessWith, nothing]
  rfl

end MemoryProgram

open MemoryProgram

/-- With a table of the process in `page_table_list` it is never torn down: not by the handler as it is,
    which receives nothing, and not if it received the payload in whatever way and the second `free`
    went well. -/
theorem finishProcess_never_tearsDown (stringAt : Int32 → Option String) (stale : List UInt8)
    (memory : PagedMemory) (package : Package) (following : List UInt8) (pid : Int32)
    (registered : ∃ pointer ∈ memory.pageTableList, memory.IsTableOf pid pointer) :
    (¬ ∃ after, (receiving package following memory).handleFinishProcess stringAt stale = some after ∧
      TearsDown pid following (receiving package following memory) after) ∧
    ∀ receive freeAgain, KeepsLists freeAgain →
      ¬ ∃ after, (receiving package following memory).handleFinishProcessWith receive freeAgain
          stringAt stale = some after ∧
        TearsDown pid following (receiving package following memory) after := by
  constructor
  · rintro ⟨after, ended, _⟩
    rw [handleFinishProcess_eq_none] at ended
    cases ended
  · rintro receive freeAgain keeps ⟨after, ended, tornDown⟩
    obtain ⟨pointer, member, isTable⟩ := registered
    have lists := handleFinishProcessWith_lists keeps ended
    apply tornDown.noTable pointer _ isTable
    rw [lists.1]
    exact member

/-- A process with one page. -/
def oneTable : PagedMemory := initPageTableList.reserveSwapMemory shippedMemoryConfig 7 [4]

/-- The message that has the swap position as a number, and memory as it was before the process. -/
example :
    TearsDown 7 [] (receiving (sendPcb [] .finishProcess heldPcb) [] oneTable)
      { memory := initPageTableList
        kernelConnection := { stream := [], calls := 2 }
        filesystemConnection :=
          [{ header := OperationCode.finishProcess.value
             payload := ((createBuffer []).addInt32ToBuffer 7).addListToBuffer
               Buffer.addUInt32ToBuffer [128] }] } where
  consumed := rfl
  sent := ⟨[128], _, _, rfl, rfl, rfl, rfl, rfl⟩
  noTable := fun _ member => nomatch member
  noFrame := fun _ member => nomatch member
  otherTables := fun pointer pageTable read other => by
    match pointer with
    | 0 => exact absurd (congrArg PageTable.pid (Option.some.inj read)).symm other
    | _ + 1 => cases read
  otherFrames := fun _ _ read => nomatch read

theorem finishProcess_never_tearsDown_oneTable :
    (¬ ∃ after, (receiving (sendPcb [] .finishProcess heldPcb) [] oneTable).handleFinishProcess
          (fun _ => none) [] = some after ∧
        TearsDown 7 [] (receiving (sendPcb [] .finishProcess heldPcb) [] oneTable) after) ∧
    ∀ receive freeAgain, KeepsLists freeAgain →
      ¬ ∃ after, (receiving (sendPcb [] .finishProcess heldPcb) [] oneTable).handleFinishProcessWith
            receive freeAgain (fun _ => none) [] = some after ∧
          TearsDown 7 [] (receiving (sendPcb [] .finishProcess heldPcb) [] oneTable) after :=
  finishProcess_never_tearsDown (fun _ => none) [] oneTable (sendPcb [] .finishProcess heldPcb) [] 7
    ⟨0, by decide, { pages := [0], pid := 7 }, by decide, rfl⟩

/-- The request to finish it. -/
theorem request_never_received :
    ¬ ∃ after, (receiving (sendPcb [] .finishProcess heldPcb) [] oneTable).handleFinishProcess
          (fun _ => none) [] = some after ∧
        TearsDown 7 [] (receiving (sendPcb [] .finishProcess heldPcb) [] oneTable) after := by
  rintro ⟨after, ended, _⟩
  rw [handleFinishProcess_eq_none] at ended
  cases ended

end OsSimulator
