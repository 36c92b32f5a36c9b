/-
Module: OsSimulator.Filesystem.Swap
Purpose: The swap space of the filesystem (`old/filesystem/src/filesystem.c`, `handle_connection.c`): the
  list of free blocks and the file of blocks, and how blocks are reserved, written and read.
  `list_take_and_remove` is a parameter.
Main exports: SwapSpace, initializeFreeBlocks, openFat, writeSwap, readSwap, handleSwap, reserveSwap
-/
import OsSimulator.Lib.Bytes
import OsSimulator.Lib.Files

namespace OsSimulator

open Bytes Files

/-- `free_swap_blocks` and the file at `filesystem_config->block_path`. -/
structure SwapSpace where
  freeSwapBlocks : List Nat
  blocksFile : List UInt8
deriving DecidableEq, Repr

/-- `initialize_free_blocks`. -/
def initializeFreeBlocks (start quantity : Nat) (freeBlocks : List Nat) : List Nat :=
  freeBlocks ++ List.range' start (quantity - start)

/-- What `open_fat` makes of the file and of `free_swap_blocks`. -/
def openFat (totalQuantityBlocks swapQuantityBlocks : Nat) : SwapSpace where
  freeSwapBlocks := initializeFreeBlocks 0 swapQuantityBlocks []
  blocksFile := List.replicate (4 * (totalQuantityBlocks - swapQuantityBlocks)) 0

/-- `write_swap`. -/
def writeSwap (blockSize pointer : Nat) (value : UInt32) (blocksFile : List UInt8) :
    Option (List UInt8) :=
  fwrite (ofWord value) blockSize pointer (fopen .write blocksFile)

/-- `read_swap`, with what the variable of its caller holds before and after: what is read is stored in
    the parameter, which is a copy. -/
def readSwap (blockSize pointer : Nat) (value : UInt32) (blocksFile : List UInt8) : Option UInt32 := do
  let _ ← fread (ofWord value) blockSize pointer (fopen .read blocksFile)
  return value

/-- The loop of `handle_swap`: the file and what is left of the list.  The bytes of `"\0"` are two. -/
def handleSwapLoop (blockSize : Nat) :
    Nat → List Nat → List UInt8 → Option (List UInt8 × List Nat)
  | 0, swapBlocks, blocksFile => some (blocksFile, swapBlocks)
  | _ + 1, [], _ => none
  | turns + 1, swap :: swapBlocks, blocksFile => do
      let blocksFile ← fwrite [0, 0] blockSize (swap * blockSize) blocksFile
      handleSwapLoop blockSize turns swapBlocks blocksFile

/-- `handle_swap`: the file and what is left of the list. -/
def handleSwap (blockSize : Nat) (swapBlocks : List Nat) (blocksFile : List UInt8) :
    Option (List UInt8 × List Nat) :=
  handleSwapLoop blockSize swapBlocks.length swapBlocks (fopen .write blocksFile)

/-- `reserve_swap`: the list it returns is the one that `handle_swap` took blocks from. -/
def reserveSwap (listTakeAndRemove : List Nat → Nat → List Nat × List Nat) (blockSize : Nat)
    (reserveQuantity : Nat) (space : SwapSpace) : Option (List Nat × SwapSpace) := do
  let (swapBlocks, freeSwapBlocks) := listTakeAndRemove space.freeSwapBlocks reserveQuantity
  let (blocksFile, swapBlocks) ← handleSwap blockSize swapBlocks space.blocksFile
  return (swapBlocks, { freeSwapBlocks := freeSwapBlocks, blocksFile := blocksFile })

/-- Reservations one after the other, and the lists they return. -/
def reserveAll (listTakeAndRemove : List Nat → Nat → List Nat × List Nat) (blockSize : Nat) :
    List Nat → SwapSpace → Option (List (List Nat) × SwapSpace)
  | [], space => some ([], space)
  | reserveQuantity :: others, space => do
      let (swapBlocks, space) ← reserveSwap listTakeAndRemove blockSize reserveQuantity space
      let (lists, space) ← reserveAll listTakeAndRemove blockSize others space
      return (swapBlocks :: lists, space)

end OsSimulator
