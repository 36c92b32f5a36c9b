/-
Module: OsSimulator.Shared.Swap
Purpose: The messages about swap blocks: the package of `send_swap` (`shared/src/process.c`), and what
  `reserve_swap_memory` takes from such a payload.
Main exports: sendSwap, takeSwap
-/
import OsSimulator.Shared.Messages

namespace OsSimulator

/-- The package of `send_swap`: `add_string_to_buffer` takes every element of the list for the address
    of a string, and `stringAt` is what is found there, unless it cannot be read. -/
def sendSwap (stringAt : Int32 → Option String) (stale : List UInt8) (header : OperationCode)
    (pid : Int32) (list : List Int32) : Option Package := do
  let strings ← list.mapM stringAt
  let package := createPackage header stale
  let package := { package with payload := package.payload.addInt32ToBuffer pid }
  return { package with
    payload := package.payload.addListToBuffer Buffer.addStringToBuffer strings }

/-- What `reserve_swap_memory` takes from its payload. -/
def takeSwap : Taker (Int32 × List UInt32) := do
  let pid ← takeInt32FromBuffer
  let swapBlocks ← takeListFromBuffer takeUInt32FromBuffer
  return (pid, swapBlocks)

end OsSimulator
