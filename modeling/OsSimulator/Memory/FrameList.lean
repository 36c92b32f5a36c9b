/-
Module: OsSimulator.Memory.FrameList
Purpose: What `replace_page_lru_with_presence` and `replace_page_fifo` do to `frames_used_list`, with the
  entries read by value.
Main exports: FrameList, lruLoop, FrameAccess, FrameList.step
-/
import OsSimulator.Memory.PageTable

namespace OsSimulator

/-- The entries of `frames_used_list`. -/
abbrev FrameList := List FramePage

/-- The loop of `replace_page_lru_with_presence`, with at most so many turns: it goes on as long as the
    list has the size that it had before, and reads through the null pointer past the end of the list. -/
def lruLoop (frameSize : Nat) (pid pageNumber : Int32) :
    Nat → Nat → FrameList → Option (FramePage × FrameList)
  | 0, _, _ => none
  | turns + 1, index, list => do
      let framePage ← list[index]?
      let (index, list) :=
        if pid = framePage.pid ∧ pageNumber = framePage.pageNumber then
          (index, list.eraseIdx index)
        else
          (index + 1, list)
      if list.length = frameSize then
        lruLoop frameSize pid pageNumber turns index list
      else
        return (framePage, list)

/-- An access to a page that is in the list, or the load of a page. -/
inductive FrameAccess where
  | access (pid pageNumber : Int32)
  | load (pid pageNumber : Int32)
deriving DecidableEq, Repr

/-- The page of an access. -/
def FrameAccess.page : FrameAccess → Int32 × Int32
  | .access pid pageNumber | .load pid pageNumber => (pid, pageNumber)

/-- The page that an entry is for. -/
def FramePage.page (framePage : FramePage) : Int32 × Int32 := (framePage.pid, framePage.pageNumber)

namespace FrameList

/-- `replace_page_lru_with_presence`, whose loop has as many turns as the list has entries. -/
def replacePageLruWithPresence (pid pageNumber : Int32) (list : FrameList) : Option FrameList := do
  let (framePage, list) ← lruLoop list.length pid pageNumber list.length 0 list
  return list ++ [framePage]

/-- What `replace_page_fifo` does to the list. -/
def replacePageFifo (pid pageNumber : Int32) (list : FrameList) : Option FrameList := do
  let pageToGetReplaced ← list.head?
  return list.tail ++
    [{ frame := pageToGetReplaced.frame, modified := 0, pageNumber := pageNumber, pid := pid }]

/-- One access. -/
def step (list : FrameList) : FrameAccess → Option FrameList
  | .access pid pageNumber => list.replacePageLruWithPresence pid pageNumber
  | .load pid pageNumber => list.replacePageFifo pid pageNumber

end FrameList

end OsSimulator
