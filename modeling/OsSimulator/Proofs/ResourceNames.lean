/-
Module: OsSimulator.Proofs.ResourceNames
Purpose: A request of the CPU reaches the kernel as it was made; the name of a resource in a WAIT or
  SIGNAL reaches it too, unless it is the name of a register, of which `parse_register_param` makes an
  index.
Main exports: takeRequest_sendRequest, SplitsAtSpaces, NameSurvives, nameSurvives_iff
-/
import OsSimulator.Kernel.HandleConnection
import OsSimulator.Kernel.Requests
import OsSimulator.Proofs.InstructionLines
import OsSimulator.Proofs.RoundTrip

namespace OsSimulator

open Bytes

/-! ### Requests as packages -/

namespace CpuRequest

/-- What follows the PCB in the package of a request. -/
def pieces : CpuRequest → List (List UInt8)
  | .finish | .interrupt => []
  | .wait resource | .signal resource => stringPieces resource
  | .sleep time => [ofWord time.toUInt32]

/-- A resource in the request is named by a C string. -/
def NamesCString : CpuRequest → Prop
  | .wait resource | .signal resource => CString resource
  | .finish | .interrupt | .sleep _ => True

/-- Its operation code. -/
def code : CpuRequest → OperationCode
  | .finish => .finishProcess
  | .interrupt => .interrupt
  | .wait _ => .waitRequest
  | .signal _ => .signalRequest
  | .sleep _ => .sleepRequest

end CpuRequest

variable {process : Pcb} {request : CpuRequest}

theorem sendRequest_payload (stale : List UInt8) (process : Pcb) (request : CpuRequest) :
    (sendRequest stale process request).payload =
      (createBuffer stale).addPieces (pcbPieces process ++ request.pieces) := by
  cases request with
  | finish | interrupt =>
      rw [CpuRequest.pieces, List.append_nil, ← addPcbToBuffer_eq]
      rfl
  | wait resource | signal resource => exact sendPcbAndResource_payload stale _ process resource
  | sleep time => exact sendSleep_payload stale _ process time

theorem sendRequest_header (stale : List UInt8) (process : Pcb) (request : CpuRequest) :
    (sendRequest stale process request).header = request.code.value := by
  cases request <;> rfl

/-- The case for its header takes the request as it was made. -/
theorem takes_request (cStrings : process.CStrings) (named : request.NamesCString)
    (short : process.bytes.length + request.pieces.flatten.length < 2 ^ 32) :
    Takes (takeRequest request.code.value) (pcbPieces process ++ request.pieces)
      { request := request, pcb := process.overWire } := by
  have takes := takes_pcb cStrings (by omega)
  cases request with
  | finish =>
      exact takes.bind (takes_pure _)
  | interrupt =>
      exact takes.bind (takes_pure _)
  | wait resource =>
      have takesBoth : Takes takePcbAndResource (pcbPieces process ++ stringPieces resource)
          (process.overWire, resource) :=
        takes.bind ((takes_string named (by rw [CpuRequest.pieces] at short; omega)).map
          fun taken => (process.overWire, taken))
      exact takesBoth.map fun taken => ({ request := .wait taken.2, pcb := taken.1 } : Message)
  | signal resource =>
      have takesBoth : Takes takePcbAndResource (pcbPieces process ++ stringPieces resource)
          (process.overWire, resource) :=
        takes.bind ((takes_string named (by rw [CpuRequest.pieces] at short; omega)).map
          fun taken => (process.overWire, taken))
      exact takesBoth.map fun taken => ({ request := .signal taken.2, pcb := taken.1 } : Message)
  | sleep time =>
      have takesBoth : Takes takePcbAndTime (pcbPieces process ++ [ofWord time.toUInt32])
          (process.overWire, time) :=
        takes.bind ((takes_int32 time).map fun taken => (process.overWire, taken))
      exact takesBoth.map fun taken => ({ request := .sleep taken.2, pcb := taken.1 } : Message)

/-- A request of the CPU reaches the kernel as it was made, with the PCB as it crosses the wire. -/
theorem takeRequest_sendRequest (stale : List UInt8) (cStrings : process.CStrings)
    (named : request.NamesCString)
    (short : process.bytes.length + request.pieces.flatten.length < 2 ^ 32) :
    (takeRequest (sendRequest stale process request).header
        (createBuffer (sendRequest stale process request).payload.contents)).map Prod.fst =
      some { request := request, pcb := process.overWire } := by
  have received := (takes_request cStrings named short).from_contents (createBuffer stale)
    (by simpa [createBuffer, Pcb.bytes] using short) []
  rw [List.append_nil] at received
  rw [sendRequest_payload, sendRequest_header]
  exact congrArg (Option.map Prod.fst) received

/-! ### Names of resources -/

/-- `string_split` gives the parts of a line that are separated by single spaces. -/
def SplitsAtSpaces (stringSplit : String → List String) : Prop :=
  ∀ tokens : List String, tokens ≠ [] → (∀ token ∈ tokens, token ≠ "" ∧ ' ' ∉ token.toList) →
    stringSplit (" ".intercalate tokens) = tokens

/-- What the kernel takes from the package that the CPU sends for a line. -/
def kernelReceives (stringSplit : String → List String) (stale : List UInt8) (process : Pcb)
    (line : String) : Option Message := do
  let (_, request) ← executeInstructionCycle stringSplit process.cpuRegister line
  let request ← request
  let package := sendRequest stale process request
  let (message, _) ← takeRequest package.header (createBuffer package.payload.contents)
  return message

/-- For the lines `WAIT name` and `SIGNAL name` the handler of the kernel runs with this name. -/
structure NameSurvives (stringSplit : String → List String) (stale : List UInt8) (process : Pcb)
    (name : String) : Prop where
  wait : ∃ message, kernelReceives stringSplit stale process ("WAIT " ++ name) = some message ∧
    ∀ kernel : Kernel, kernel.handleDispatchConnection message =
      (kernel.log (.received message)).handleWaitInterruption process.overWire name
  signal : ∃ message, kernelReceives stringSplit stale process ("SIGNAL " ++ name) = some message ∧
    ∀ kernel : Kernel, kernel.handleDispatchConnection message =
      (kernel.log (.received message)).handleSignalInterruption process.overWire name

section Names

variable {stringSplit : String → List String} {name line : String}
  {cpuRegister : List (BitVec 64)}

/-- A line of a mnemonic and a name is split into the two. -/
theorem split_name (mnemonic : String) (splits : SplitsAtSpaces stringSplit) (nonempty : name ≠ "")
    (noSpace : ' ' ∉ name.toList) (isMnemonic : mnemonic ≠ "" ∧ ' ' ∉ mnemonic.toList) :
    stringSplit (mnemonic ++ " " ++ name) = [mnemonic, name] := by
  have joined : " ".intercalate [mnemonic, name] = mnemonic ++ " " ++ name := by simp
  rw [← joined]
  apply splits _ (List.cons_ne_nil _ _)
  intro token member
  simp only [List.mem_cons, List.not_mem_nil, or_false] at member
  rcases member with rfl | rfl
  · exact isMnemonic
  · exact ⟨nonempty, noSpace⟩

/-- WAIT and SIGNAL ask for what their operand is as a text. -/
theorem executes_request {mnemonic : String} {request : String → CpuRequest}
    (kind : translateInstruction mnemonic = .wait ∧ request = .wait ∨
      translateInstruction mnemonic = .signal ∧ request = .signal)
    (split : stringSplit line = [mnemonic, name]) :
    executeInstructionCycle stringSplit cpuRegister line =
      (parseParam name).asText.map fun text => (cpuRegister, some (request text)) := by
  rw [executeInstructionCycle_split split, executeInstructionCycle]
  simp only [List.getElem?_cons_zero, Option.bind_eq_bind, Option.bind_some]
  rcases kind with ⟨kind, rfl⟩ | ⟨kind, rfl⟩
  · simp only [kind, parseRegisterParam_one, Option.bind_some, List.getElem?_cons_zero]
    cases (parseParam name).asText <;> rfl
  · simp only [kind, parseRegisterParam_one, Option.bind_some, List.getElem?_cons_zero]
    cases (parseParam name).asText <;> rfl

/-- A request for a name that is no register is received with this name. -/
theorem kernelReceives_name {mnemonic : String} {request : String → CpuRequest} {process : Pcb}
    {stale : List UInt8}
    (kind : translateInstruction mnemonic = .wait ∧ request = .wait ∨
      translateInstruction mnemonic = .signal ∧ request = .signal)
    (split : stringSplit line = [mnemonic, name])
    (noRegister : ∀ register : Register, name ≠ register.name) (cString : CString name)
    (cStrings : process.CStrings)
    (short : process.bytes.length + (stringBytes name).length < 2 ^ 32) :
    kernelReceives stringSplit stale process line =
      some { request := request name, pcb := process.overWire } := by
  have named : (request name).NamesCString ∧ (request name).pieces = stringPieces name := by
    rcases kind with ⟨_, rfl⟩ | ⟨_, rfl⟩
    · exact ⟨cString, rfl⟩
    · exact ⟨cString, rfl⟩
  have received := takeRequest_sendRequest stale cStrings named.1 (by rw [named.2]; exact short)
  obtain ⟨⟨message, rest⟩, taken, isMessage⟩ := Option.map_eq_some_iff.mp received
  rw [kernelReceives, executes_request kind split, parseParam_asText.mpr ⟨noRegister, rfl⟩]
  simp only [Option.map_some, Option.bind_eq_bind, Option.bind_some, taken]
  exact congrArg some isMessage

/-- For the name of a register nothing is sent. -/
theorem kernelReceives_register {mnemonic : String} {request : String → CpuRequest} {process : Pcb}
    {stale : List UInt8} {register : Register}
    (kind : translateInstruction mnemonic = .wait ∧ request = .wait ∨
      translateInstruction mnemonic = .signal ∧ request = .signal)
    (split : stringSplit line = [mnemonic, register.name]) :
    kernelReceives stringSplit stale process line = none := by
  rw [kernelReceives, executes_request kind split, parseParam_name]
  rfl

end Names

/-- The name of a resource reaches the handlers of the kernel if and only if it is not the name of a
    register. -/
theorem nameSurvives_iff (stringSplit : String → List String) (splits : SplitsAtSpaces stringSplit)
    (stale : List UInt8) (process : Pcb) (cStrings : process.CStrings) (name : String)
    (nonempty : name ≠ "") (noSpace : ' ' ∉ name.toList) (cString : CString name)
    (short : process.bytes.length + (stringBytes name).length < 2 ^ 32) :
    NameSurvives stringSplit stale process name ↔ ∀ register : Register, name ≠ register.name := by
  have wait : stringSplit ("WAIT " ++ name) = ["WAIT", name] :=
    split_name "WAIT" splits nonempty noSpace (by decide)
  have signal : stringSplit ("SIGNAL " ++ name) = ["SIGNAL", name] :=
    split_name "SIGNAL" splits nonempty noSpace (by decide)
  have isWait : translateInstruction "WAIT" = .wait := by simp [translateInstruction]
  have isSignal : translateInstruction "SIGNAL" = .signal := by simp [translateInstruction]
  constructor
  · rintro survives register rfl
    obtain ⟨message, received, _⟩ := survives.wait
    rw [kernelReceives_register (.inl ⟨isWait, rfl⟩) wait] at received
    cases received
  · intro noRegister
    exact
      { wait := ⟨_, kernelReceives_name (.inl ⟨isWait, rfl⟩) wait noRegister cString cStrings short,
          fun _ => rfl⟩
        signal := ⟨_, kernelReceives_name (.inr ⟨isSignal, rfl⟩) signal noRegister cString cStrings
          short, fun _ => rfl⟩ }

theorem splitAtSpaces_splits : SplitsAtSpaces splitAtSpaces := by
  intro tokens nonempty each
  have noSpaces : ∀ chars ∈ tokens.map String.toList, ' ' ∉ chars := by
    intro chars member
    obtain ⟨token, inTokens, rfl⟩ := List.mem_map.mp member
    exact (each token inTokens).2
  have space : " ".toList = [' '] := rfl
  rw [splitAtSpaces, String.toList_intercalate, space,
    List.splitOn_intercalate ' ' noSpaces (by simpa using nonempty), List.map_map]
  simp

theorem nameSurvives_iff_rec1 :
    NameSurvives splitAtSpaces [] heldPcb "REC1" ↔
      ∀ register : Register, "REC1" ≠ register.name :=
  nameSurvives_iff splitAtSpaces splitAtSpaces_splits [] heldPcb (by decide) "REC1" (by decide)
    (by decide) (by decide) (by decide)

/-- `WAIT AX`. -/
theorem name_of_register_lost : ¬ NameSurvives splitAtSpaces [] heldPcb "AX" := by
  intro survives
  obtain ⟨message, received, _⟩ := survives.wait
  have nothing : kernelReceives splitAtSpaces [] heldPcb ("WAIT " ++ "AX") = none := by decide
  rw [nothing] at received
  cases received

end OsSimulator
