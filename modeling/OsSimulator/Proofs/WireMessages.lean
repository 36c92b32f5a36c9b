/-
Module: OsSimulator.Proofs.WireMessages
Purpose: One message between two of the programs: whatever the transport does, the loop that receives it
  takes from it what was sent, and leaves the bytes behind it on the connection.
Main exports: ConsoleRequest.frame, ConsoleInput.meaning, ConsoleInput.run_eq, Frame.Conveys,
  Message.Sendable, ConsoleRequest.conveys, conveys_request, conveys_pcb
-/
import OsSimulator.Proofs.ClosedConnections
import OsSimulator.Proofs.QuantumInterrupts
import OsSimulator.Proofs.Received
import OsSimulator.Proofs.ResourceNames
import OsSimulator.Wire.System

namespace OsSimulator

open Bytes

/-! ### The messages of a console -/

/-- The message that asks the kernel for a command. -/
def ConsoleRequest.frame (stale : List UInt8) : ConsoleRequest → Frame
  | .createProcess path => .package (sendProcess stale path)
  | .finishProcess pid => .package (sendProcessId stale .finishProcess pid.toInt32)
  | .stopPlanning => .header OperationCode.stopPlanning.value
  | .startPlanning => .header OperationCode.startPlanning.value
  | .modifyMultiprogrammingDegree newDegree =>
      .package (sendMultiprogrammingDegree stale .modifyMultiprogrammingDegree newDegree)
  | .showAllProcesses => .header OperationCode.showAllProcesses.value

/-- What the console asks the kernel for, if it goes on afterwards. -/
def ConsoleInput.meaning : ConsoleInput → Option (List ConsoleRequest)
  | .command [] => none
  | .command (name :: parameters) =>
      match translateCommand name with
      | .iniciarProceso => parameters.head?.map fun path => [.createProcess path]
      | .finalizarProceso => parameters.head?.map fun id => [.finishProcess (atoi id).toUInt32]
      | .detenerPlanificacion => some [.stopPlanning]
      | .iniciarPlanificacion => some [.startPlanning]
      | .procesoEstado => some [.showAllProcesses]
      | .salir => none
      | .executeScript | .error => some []
  | .choice arguments answer =>
      if atoi arguments = 1 then some [.createProcess answer]
      else if atoi arguments = 2 then some [.finishProcess (atoi answer).toUInt32]
      else if atoi arguments = 3 then some [.startPlanning]
      else if atoi arguments = 4 then some [.stopPlanning]
      else if atoi arguments = 6 then some [.showAllProcesses]
      else if atoi arguments = 7 then none
      else some []

/-- The console sends the messages of what it is asked for. -/
theorem ConsoleInput.run_eq (stale : List UInt8) (input : ConsoleInput) :
    (∀ commands, input.meaning = some commands →
      input.run stale = (commands.map (ConsoleRequest.frame stale), .running)) ∧
    (input.meaning = none → (input.run stale).2 ≠ .running) := by
  have back : ∀ number : Int32, number.toUInt32.toInt32 = number := fun _ => rfl
  cases input with
  | command arguments =>
      cases arguments with
      | nil => simp [meaning, run, startConsole]
      | cons name parameters =>
          simp only [meaning, run, startConsole]
          cases translateCommand name <;> cases parameters <;>
            simp [ConsoleRequest.frame, back]
  | choice arguments answer =>
      simp only [meaning, run, interactiveMenu]
      constructor
      · intro commands asked
        split_ifs at asked ⊢ <;> cases asked <;> simp [ConsoleRequest.frame, back]
      · intro nothing
        split_ifs at nothing ⊢
        simp

/-! ### What arrives -/

section

variable {transport : Transport} {loop : ReceiveLoop} {stale : List UInt8}

/-- A header without a payload. -/
theorem obtains_header (legal : transport.Legal) {code : UInt8}
    (bare : loop.handling? code ≠ some .payload) :
    Obtains (loop.receive transport) [code] (code, none) := by
  have received : Obtains (loop.receive transport) ([code] ++ []) (code, none) := by
    apply (obtains_receiveHeader legal code).bind
    rw [if_neg bare]
    exact obtains_pure _
  exact received

/-- A package. -/
theorem obtains_package (legal : transport.Legal) {package : Package}
    (wellFormed : package.payload.offset.toNat ≤ package.payload.stream.length)
    (payload : loop.handling? package.header = some .payload) :
    Obtains (loop.receive transport) package.bytes
      (package.header, some (createBuffer package.payload.contents)) := by
  apply (obtains_receiveHeader legal package.header).bind
  rw [if_pos payload]
  have received : Obtains (receivePayload transport >>= fun received => do
        let payload ← StateT.lift received
        return (package.header, some payload))
      (ofWord package.payload.offset ++ package.payload.contents ++ [])
      (package.header, some (createBuffer package.payload.contents)) :=
    (obtains_receivePayload legal wellFormed).bind (obtains_pure _)
  rw [List.append_nil] at received
  exact received

/-- Nothing is received from an empty connection. -/
theorem receive_nil (legal : transport.Legal) (calls : Nat) :
    loop.receive transport { stream := [], calls := calls } = none := by
  have least := (legal calls 1 Nat.one_pos).1
  have nothing : recv transport 1 { stream := [], calls := calls } = none := by
    rw [recv, if_neg]
    simp only [List.length_nil]
    omega
  have header : receiveHeader transport { stream := [], calls := calls } = none := by
    change (((recv transport 1 _).bind _).bind _).bind _ = none
    rw [nothing]
    rfl
  change (receiveHeader transport _).bind _ = none
  rw [header, Option.bind_none]

theorem Buffer.addPieces_inside (pieces : List (List UInt8)) :
    ∀ buffer : Buffer, buffer.offset.toNat ≤ buffer.stream.length →
      (buffer.addPieces pieces).offset.toNat ≤ (buffer.addPieces pieces).stream.length := by
  induction pieces with
  | nil => exact fun _ inside => inside
  | cons piece pieces ih =>
      intro buffer inside
      exact ih (buffer.addToBuffer piece) (Buffer.addToBuffer_contents piece inside).2

/-- What was written to a package is taken from it. -/
theorem takeFrom_of_takes {α : Type} {taker : Taker α} {pieces : List (List UInt8)} {value : α}
    (takes : Takes taker pieces value) (short : pieces.flatten.length < 2 ^ 32) :
    takeFrom taker (some (createBuffer ((createBuffer stale).addPieces pieces).contents)) =
      some value := by
  have taken := takes.from_contents (createBuffer stale)
    (by simpa [createBuffer] using short) []
  rw [List.append_nil] at taken
  exact congrArg (Option.map Prod.fst) taken

/-- The loop gets the value from the message, however the transport splits it. -/
def Frame.Conveys {α : Type} (transport : Transport) (loop : ReceiveLoop)
    (take : UInt8 → Option Buffer → Option α) (value : α) (frame : Frame) : Prop :=
  ∃ header payload, Obtains (loop.receive transport) frame.bytes (header, payload) ∧
    take header payload = some value ∧ ∃ handling, loop.handling? header = some handling

/-- A package with these pieces. -/
theorem conveys_package {α β : Type} (legal : transport.Legal) {header : OperationCode}
    {taker : Taker α} {pieces : List (List UInt8)} {part : α} {value : β}
    {take : UInt8 → Option Buffer → Option β} {package : Package}
    (written : package = { header := header.value, payload := (createBuffer stale).addPieces pieces })
    (payload : loop.handling? header.value = some .payload)
    (goesOn : ∀ payload, takeFrom taker payload = some part → take header.value payload = some value)
    (takes : Takes taker pieces part) (short : pieces.flatten.length < 2 ^ 32) :
    (Frame.package package).Conveys transport loop take value := by
  subst written
  refine ⟨_, _, obtains_package legal ?_ payload, ?_, _, payload⟩
  · exact Buffer.addPieces_inside pieces (createBuffer stale) (Nat.zero_le _)
  · exact goesOn _ (takeFrom_of_takes takes short)

/-! ### The messages -/

/-- The path fits into a message. -/
def ConsoleRequest.Fits : ConsoleRequest → Prop
  | .createProcess path => CString path ∧ (stringPieces path).flatten.length < 2 ^ 32
  | _ => True

instance : DecidablePred ConsoleRequest.Fits
  | .createProcess path =>
      inferInstanceAs (Decidable (CString path ∧ (stringPieces path).flatten.length < 2 ^ 32))
  | .finishProcess _ | .stopPlanning | .startPlanning | .modifyMultiprogrammingDegree _
  | .showAllProcesses => isTrue trivial

/-- `handler_connection` gets the command. -/
theorem ConsoleRequest.conveys (legal : transport.Legal) {command : ConsoleRequest} (fits : command.Fits) :
    (command.frame stale).Conveys transport .kernelConsole takeConsoleRequest command := by
  cases command with
  | createProcess path =>
      apply conveys_package legal rfl rfl ?_ (takes_string fits.1 fits.2) fits.2
      intro payload taken
      rw [takeConsoleRequest, if_pos rfl, taken]
      rfl
  | finishProcess pid =>
      apply conveys_package legal rfl rfl ?_ (takes_uInt32 pid) (by simp)
      intro payload taken
      rw [takeConsoleRequest, if_neg (by decide), if_pos rfl, taken]
      rfl
  | stopPlanning => exact ⟨_, _, obtains_header legal (by decide), rfl, .bare, rfl⟩
  | startPlanning => exact ⟨_, _, obtains_header legal (by decide), rfl, .bare, rfl⟩
  | modifyMultiprogrammingDegree newDegree =>
      apply conveys_package legal rfl rfl ?_ (takes_int32 newDegree) (by simp)
      intro payload taken
      rw [takeConsoleRequest, if_neg (by decide), if_neg (by decide), if_neg (by decide),
        if_neg (by decide), if_pos rfl, taken]
      rfl
  | showAllProcesses => exact ⟨_, _, obtains_header legal (by decide), rfl, .bare, rfl⟩

instance : DecidablePred CpuRequest.NamesCString
  | .wait resource | .signal resource => inferInstanceAs (Decidable (CString resource))
  | .finish | .interrupt | .sleep _ => isTrue trivial

/-- The message has C strings, and fits into a package. -/
structure Message.Sendable (message : Message) : Prop where
  cStrings : message.pcb.CStrings
  request : message.request.NamesCString
  short : message.pcb.bytes.length + message.request.pieces.flatten.length < 2 ^ 32

instance (message : Message) : Decidable message.Sendable :=
  decidable_of_iff (message.pcb.CStrings ∧ message.request.NamesCString ∧
      message.pcb.bytes.length + message.request.pieces.flatten.length < 2 ^ 32)
    ⟨fun sendable => ⟨sendable.1, sendable.2.1, sendable.2.2⟩,
      fun sendable => ⟨sendable.cStrings, sendable.request, sendable.short⟩⟩

/-- The PCB arrives with the low halves of its registers. -/
def Message.overWire (message : Message) : Message := { message with pcb := message.pcb.overWire }

theorem sendRequest_eq (message : Message) :
    sendRequest stale message.pcb message.request =
      { header := message.request.code.value
        payload := (createBuffer stale).addPieces
          (pcbPieces message.pcb ++ message.request.pieces) } := by
  rw [← sendRequest_payload, ← sendRequest_header]

/-- `handle_dispatch_connection` gets the request. -/
theorem conveys_request (legal : transport.Legal) {message : Message}
    (sendable : message.Sendable) :
    (Frame.package (sendRequest stale message.pcb message.request)).Conveys transport .kernelDispatch
      (fun header => takeFrom (takeRequest header)) message.overWire := by
  apply conveys_package legal (sendRequest_eq message) ?_ (fun _ => id)
    (takes_request sendable.cStrings sendable.request sendable.short)
  · rw [List.flatten_append, List.length_append]
    exact sendable.short
  · cases message.request <;> rfl

/-- `execute_process` gets the PCB. -/
theorem conveys_pcb (legal : transport.Legal) {header : OperationCode} {pcb : Pcb}
    (executes : header.executes = true) (sendable : pcb.Sendable) :
    (Frame.package (sendPcb stale header pcb)).Conveys transport .cpuKernel
      (fun _ => takeFrom takePcbFromBuffer) pcb.overWire := by
  apply conveys_package legal (sendPcb_eq stale header pcb) ?_ (fun _ => id)
    (takes_pcb sendable.cStrings sendable.short) sendable.short
  cases header <;> first | rfl | cases executes

/-! ### Sending twice -/

/-- Only the low halves of the registers are sent. -/
theorem pcbPieces_overWire (pcb : Pcb) : pcbPieces pcb.overWire = pcbPieces pcb := by
  have cells : listPieces cellPieces (pcb.cpuRegister.map lowHalf) =
      listPieces cellPieces pcb.cpuRegister := by
    have cell : ∀ cell, cellPieces (lowHalf cell) = cellPieces cell := by
      intro cell
      have same : (lowHalf cell).truncate 32 = cell.truncate 32 := by
        apply BitVec.eq_of_toNat_eq
        simp [lowHalf]
      rw [cellPieces, cellPieces, same]
    simp only [listPieces, List.length_map, List.flatMap_map, cell]
  unfold pcbPieces
  rw [← cells]
  rfl

theorem sendRequest_overWire (message : Message) :
    sendRequest stale message.overWire.pcb message.overWire.request =
      sendRequest stale message.pcb message.request := by
  rw [sendRequest_eq, sendRequest_eq]
  have same : pcbPieces message.overWire.pcb = pcbPieces message.pcb :=
    pcbPieces_overWire message.pcb
  rw [same]
  rfl

end

end OsSimulator
