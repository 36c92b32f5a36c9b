/-
Module: OsSimulator.Shared.Sockets
Purpose: `shared/src/sockets.c`: headers and packages on a stream connection whose `send` and `recv`
  transfer as many of the bytes they are asked for as the transport likes.
Main exports: Transport, Connection, sendAll, recvAll, sendHeader, sendPackage, receiveHeader,
  receivePayload, Frame
-/
import OsSimulator.Shared.Messages

namespace OsSimulator

open Bytes

/-- What the calls of `send` and `recv` return: `transport call size` is the result of one that is
    asked for `size` bytes after `call` others. -/
abbrev Transport := Nat → Nat → Int

/-- The results are as POSIX has them for a connection that works: at least one byte, and at most the
    bytes asked for and what an `int` can count. -/
def Transport.Legal (transport : Transport) : Prop :=
  ∀ call size, 0 < size → 1 ≤ transport call size ∧ transport call size ≤ min (size : Int) (2 ^ 31 - 1)

/-- A connection: the bytes that were sent and not yet received, and how many calls there were. -/
structure Connection where
  stream : List UInt8
  calls : Nat
deriving DecidableEq, Repr

/-! ### Sending -/

/-- `send_all`. -/
def sendAll (transport : Transport) (data : List UInt8) (connection : Connection) :
    Int × Connection :=
  if data = [] then
    (1, connection)
  else
    let sent := transport connection.calls data.length
    if sent ≤ 0 then
      (sent, { connection with calls := connection.calls + 1 })
    else
      sendAll transport (data.drop sent.toNat)
        { stream := connection.stream ++ data.take sent.toNat, calls := connection.calls + 1 }
termination_by data.length
decreasing_by
  have nonempty : 0 < data.length := List.length_pos_iff.mpr ‹_›
  rw [List.length_drop]
  omega

/-- `socket_send`. -/
def socketSend (transport : Transport) (data : List UInt8) (connection : Connection) : Connection :=
  (sendAll transport data connection).2

/-- `send_header`. -/
def sendHeader (transport : Transport) (header : UInt8) (connection : Connection) : Connection :=
  socketSend transport [header] connection

/-- `send_package`. -/
def sendPackage (transport : Transport) (package : Package) (connection : Connection) :
    Connection :=
  let connection := sendHeader transport package.header connection
  let connection := socketSend transport (ofWord package.payload.offset) connection
  socketSend transport package.payload.contents connection

/-! ### Receiving -/

/-- A function that receives from a connection; it fails where the source would wait for ever, or go
    on with a result of `recv` that is no number of bytes. -/
abbrev Receiver := StateT Connection Option

/-- One `recv`, and the bytes it stores. -/
def recv (transport : Transport) (size : Nat) : Receiver (Int × List UInt8) := fun connection =>
  let received := transport connection.calls size
  if 0 ≤ received ∧ received ≤ size ∧ received ≤ connection.stream.length then
    some ((received, connection.stream.take received.toNat),
      { stream := connection.stream.drop received.toNat, calls := connection.calls + 1 })
  else
    none

/-- `recv_all`, with the bytes it stores at the destination.  Each turn of the loop leaves fewer bytes
    to receive, so `size` turns are enough. -/
def recvAll (transport : Transport) (size : Nat) : Receiver (Int × List UInt8) :=
  loop size size
where
  /-- The loop, with at most so many turns. -/
  loop : Nat → Nat → Receiver (Int × List UInt8)
  | _, 0 => return (1, [])
  | 0, _ + 1 => StateT.lift none
  | turns + 1, size + 1 => do
      let (received, first) ← recv transport (size + 1)
      if received ≤ 0 then
        return (received, [])
      else do
        let (result, rest) ← loop turns (size + 1 - received.toNat)
        return (result, first ++ rest)

/-- `socket_get`: what it stores, unless it returns false. -/
def socketGet (transport : Transport) (size : Nat) : Receiver (Option (List UInt8)) := do
  if size ≠ 0 then
    let (received, bytes) ← recvAll transport size
    return if received < 1 then none else some bytes
  else
    return some []

/-- `receive_header`; without a byte the header is indeterminate. -/
def receiveHeader (transport : Transport) : Receiver UInt8 := do
  let bytes ← socketGet transport 1
  StateT.lift (bytes.bind List.head?)

/-- `receive_payload`; `none` is the null pointer. -/
def receivePayload (transport : Transport) : Receiver (Option Buffer) := do
  match ← socketGet transport 4 with
  | none => return none
  | some size => do
      let stream ← socketGet transport (toWord size).toNat
      return stream.map createBuffer

/-! ### Sequences of messages -/

/-- What a thread sends: a bare header or a package. -/
inductive Frame where
  | header (header : UInt8)
  | package (package : Package)

/-- Send a message. -/
def Frame.send (transport : Transport) : Frame → Connection → Connection
  | .header code => sendHeader transport code
  | .package whole => sendPackage transport whole

/-- Send messages one after the other. -/
def sendFrames (transport : Transport) (frames : List Frame) (connection : Connection) :
    Connection :=
  frames.foldl (fun connection frame => frame.send transport connection) connection

/-- Receive a header, and a payload if the message is a package. -/
def receiveFrame (transport : Transport) (isPackage : Bool) :
    Receiver (UInt8 × Option (Option Buffer)) := do
  let header ← receiveHeader transport
  if isPackage then
    let payload ← receivePayload transport
    return (header, some payload)
  else
    return (header, none)

/-- Receive messages one after the other. -/
def receiveFrames (transport : Transport) :
    List Bool → Receiver (List (UInt8 × Option (Option Buffer)))
  | [] => return []
  | isPackage :: kinds => do
      let frame ← receiveFrame transport isPackage
      let frames ← receiveFrames transport kinds
      return frame :: frames

end OsSimulator
