/-
Module: OsSimulator.Shared.Receiving
Purpose: `recv_all` and `socket_get` with the arithmetic of the machine: the result of `recv`, an
  `ssize_t`, is stored in a `size_t`, and pointer and size are counted modulo 2^64.
Main exports: RecvCall, recvAllRun, socketGetRun, receivedBytes
-/
import Mathlib.Algebra.Order.Ring.Int
import Mathlib.Data.List.Basic

namespace OsSimulator

/-- One `recv`: where its destination lies behind the one that `recv_all` was given, how many bytes it
    is asked for, and what it returned. -/
structure RecvCall where
  offset : UInt64
  asked : UInt64
  received : Int64
deriving DecidableEq, Repr

/-- `recv_all` at some turn of its loop, on the results that `recv` gives from then on: the calls it
    makes, and what it returns unless the results are used up before. -/
def recvAllRun (offset size : UInt64) : List Int64 → List RecvCall × Option Int32
  | [] => if 0 < size then ([], none) else ([], some 1)
  | result :: results =>
      if 0 < size then
        let call := { offset := offset, asked := size, received := result }
        let received := result.toUInt64
        if received ≤ 0 then
          ([call], some received.toUInt32.toInt32)
        else
          let (calls, returned) := recvAllRun (offset + received) (size - received) results
          (call :: calls, returned)
      else
        ([], some 1)

/-- `socket_get`. -/
def socketGetRun (size : UInt64) (results : List Int64) : Option Bool :=
  if size ≠ 0 then
    (recvAllRun 0 size results).2.map fun received => !(received < 1 : Bool)
  else
    some true

/-- How many bytes these calls stored. -/
def receivedBytes (calls : List RecvCall) : Int :=
  (calls.map fun call => max 0 call.received.toInt).sum

end OsSimulator
