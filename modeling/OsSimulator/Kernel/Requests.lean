/-
Module: OsSimulator.Kernel.Requests
Purpose: The messages of the dispatch connection as packages: what the CPU sends for each request, and
  what the cases of `handle_dispatch_connection` take from the payload.
Main exports: sendRequest, takeRequest
-/
import OsSimulator.Kernel.State
import OsSimulator.Shared.Messages

namespace OsSimulator

/-- The package that the CPU sends with a request. -/
def sendRequest (stale : List UInt8) (process : Pcb) : CpuRequest → Package
  | .finish => sendPcb stale .finishProcess process
  | .interrupt => sendPcb stale .interrupt process
  | .wait resource => sendPcbAndResource stale .waitRequest process resource
  | .signal resource => sendPcbAndResource stale .signalRequest process resource
  | .sleep time => sendSleep stale .sleepRequest process time

/-- What the case of `handle_dispatch_connection` for a header takes from the payload. -/
def takeRequest (header : UInt8) : Taker Message :=
  if header = OperationCode.finishProcess.value then do
    let pcb ← takePcbFromBuffer
    return { request := .finish, pcb := pcb }
  else if header = OperationCode.interrupt.value then do
    let pcb ← takePcbFromBuffer
    return { request := .interrupt, pcb := pcb }
  else if header = OperationCode.waitRequest.value then do
    let (pcb, resourceRequested) ← takePcbAndResource
    return { request := .wait resourceRequested, pcb := pcb }
  else if header = OperationCode.signalRequest.value then do
    let (pcb, resourceRequested) ← takePcbAndResource
    return { request := .signal resourceRequested, pcb := pcb }
  else if header = OperationCode.sleepRequest.value then do
    let (pcb, timeToSleep) ← takePcbAndTime
    return { request := .sleep timeToSleep, pcb := pcb }
  else
    StateT.lift none

end OsSimulator
