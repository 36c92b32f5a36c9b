/-
Module: OsSimulator.Proofs.WireRefinement
Purpose: The programs over streams of bytes do what they do over queues of typed messages, step for step:
  a console's commands reach the kernel in their order, PCBs and interrupts reach the CPU, and requests
  come back, however the transports split the bytes.
Main exports: MessageSystem, MessageSystem.step, WireSystem.Carries, WireSystem.Carries.step,
  wire_run_carries
-/
import OsSimulator.Proofs.CpuRefinement
import OsSimulator.Proofs.WireMessages

namespace OsSimulator

open Transition

/-! ### The programs over typed messages -/

/-- The system with the commands that the consoles have given and the kernel has not handled. -/
structure MessageSystem where
  system : System
  pending : Nat → List ConsoleRequest

namespace MessageSystem

/-- The start of the programs. -/
def init (config : KernelConfig) : MessageSystem where
  system := System.init config
  pending := fun _ => []

/-- The commands of a console are replaced. -/
def setPending (console : Nat) (commands : List ConsoleRequest) (state : MessageSystem) : MessageSystem :=
  { state with
    pending := fun other => if other = console then commands else state.pending other }

/-- Apply an operation to the system. -/
def onSystem (operation : System → Option System) (state : MessageSystem) : Option MessageSystem :=
  (operation state.system).map fun system => { state with system := system }

/-- One step of the programs.  Of the registers the low halves arrive. -/
def step (config : KernelConfig) (state : MessageSystem) : WireEvent → Option MessageSystem
  | .input console input =>
      input.meaning.map fun commands =>
        state.setPending console (state.pending console ++ commands)
  | .handlerConnection console quantum clientSocket =>
      match state.pending console with
      | [] => none
      | command :: rest =>
          (state.setPending console rest).onSystem (command.run config quantum clientSocket ·)
  | .longTermPlanner => state.onSystem (·.step config .longTermPlanner)
  | .shortTermPlanner => state.onSystem (·.step config .shortTermPlanner)
  | .sleepThread index => state.onSystem (·.step config (.sleepThread index))
  | .handleDispatchConnection => state.onSystem (·.step config .handleDispatch)
  | .executeProcess request cpuRegister programCounter =>
      state.onSystem (·.step config
        (.cpuExecute request (cpuRegister.map lowHalf) programCounter))
  | .readInterrupt => state.onSystem (·.step config .cpuReadInterrupt)

/-- What is on its way can be received: the PCBs are for `execute_process`, and the requests are as they
    will arrive. -/
structure Sound (state : MessageSystem) : Prop where
  commands : ∀ console, ∀ command ∈ state.pending console, command.Fits
  pcbs : ∀ message ∈ state.system.kernel.cpuDispatchConnection,
    message.1.executes = true ∧ message.2.Sendable
  requests : ∀ message ∈ state.system.cpuMessages, message.Sendable ∧ message.overWire = message

/-- What a console is given consists of C strings and fits into a message. -/
def InputFits : WireEvent → Prop
  | .input _ input => ∀ commands ∈ input.meaning, ∀ command ∈ commands, command.Fits
  | _ => True

instance : DecidablePred InputFits
  | .input _ input =>
      inferInstanceAs (Decidable (∀ commands ∈ input.meaning, ∀ command ∈ commands, command.Fits))
  | .handlerConnection _ _ _ | .longTermPlanner | .shortTermPlanner | .sleepThread _
  | .handleDispatchConnection | .executeProcess _ _ _ | .readInterrupt => isTrue trivial

/-- What the event sends consists of C strings and fits into a message. -/
def Fits (config : KernelConfig) (state : MessageSystem) (event : WireEvent) : Prop :=
  InputFits event ∧ ∀ next ∈ state.step config event,
    (∀ message ∈ next.system.kernel.cpuDispatchConnection, message.2.Sendable) ∧
      ∀ message ∈ next.system.cpuMessages, message.Sendable

instance (config : KernelConfig) (state : MessageSystem) (event : WireEvent) :
    Decidable (state.Fits config event) :=
  inferInstanceAs (Decidable (InputFits event ∧ ∀ next ∈ state.step config event,
    (∀ message ∈ next.system.kernel.cpuDispatchConnection, message.2.Sendable) ∧
      ∀ message ∈ next.system.cpuMessages, message.Sendable))

end MessageSystem

/-! ### What is on its way -/

namespace System

variable {config : KernelConfig} {system next : System} {event : Event}
  (pcbs : List (OperationCode × Pcb)) (requests : List Message) (interrupts : Nat)

/-- The system with messages on their way in front of those it has. -/
def behind (system : System) : System :=
  { system with
    kernel := system.kernel.withUnanswered pcbs
    cpuMessages := requests ++ system.cpuMessages
    interruptHeaders := system.interruptHeaders + interrupts }

theorem behind_sent (system : System) :
    system.sent.behind system.kernel.cpuDispatchConnection system.cpuMessages
      system.interruptHeaders = system := by
  simp [sent, behind, Kernel.withUnanswered]

theorem onKernel_behind {operation : Kernel → Option Kernel}
    (same : operation (system.kernel.withUnanswered pcbs) =
      (operation system.kernel).map (Kernel.withUnanswered pcbs)) :
    (system.behind pcbs requests interrupts).onKernel operation =
      (system.onKernel operation).map (behind pcbs requests interrupts) := by
  change (operation (system.kernel.withUnanswered pcbs)).map _ = _
  rw [same, onKernel, Option.map_map, Option.map_map]
  rfl

/-- Only the handler of the requests looks at them. -/
theorem step_setMessages (ofKernel : event.isOfKernel = true)
    (notDispatch : event ≠ .handleDispatch) :
    { system with cpuMessages := requests }.step config event =
      (system.step config event).map fun next => { next with cpuMessages := requests } := by
  cases event with
  | cpuExecute _ _ _ | cpuReadInterrupt => cases ofKernel
  | handleDispatch => exact absurd rfl notDispatch
  | createProcess _ _ _ | finishProcess _ | startPlanning | stopPlanning
  | modifyMultiprogrammingDegree _ =>
      simp only [step, onKernel, Option.map_map]
      rfl
  | longTermPlanner =>
      simp only [step, longTermPlanner]
      split <;> simp only [Option.map_map] <;> rfl
  | shortTermPlanner =>
      simp only [step, shortTermPlanner]
      split
      · split
        · simp only [Option.map_map]
          rfl
        · simp only [Option.map_map]
          rfl
        · simp only [Option.map_map]
          congr 1
          funext kernel
          dsimp only [Function.comp_apply]
          split <;> rfl
        · rfl
      · rfl
  | sleepThread index =>
      simp only [step]
      split <;> rfl

/-- A step of the kernel does not depend on what is on its way. -/
theorem step_behind (ofKernel : event.isOfKernel = true) (notDispatch : event ≠ .handleDispatch) :
    (system.behind pcbs requests interrupts).step config event =
      (system.step config event).map (behind pcbs requests interrupts) := by
  have late : system.behind pcbs requests interrupts =
      { system.withCpu pcbs interrupts system.hasInterrupt with
        cpuMessages := requests ++ system.cpuMessages } := rfl
  rw [late, step_setMessages _ ofKernel notDispatch, step_withCpu pcbs _ _ ofKernel, Option.map_map]
  cases taken : system.step config event with
  | none => rfl
  | some next =>
      obtain ⟨flag, messages, _⟩ := step_leaves ofKernel notDispatch taken
      rw [← flag, ← messages]
      rfl

/-- A command does not depend on it either. -/
theorem run_behind (quantum clientSocket : Int32) (command : ConsoleRequest) :
    command.run config quantum clientSocket (system.behind pcbs requests interrupts) =
      (command.run config quantum clientSocket system).map (behind pcbs requests interrupts) := by
  cases command with
  | showAllProcesses => rfl
  | createProcess _ | finishProcess _ | stopPlanning | startPlanning
  | modifyMultiprogrammingDegree _ =>
      simp only [ConsoleRequest.run]
      apply step_behind
      · rfl
      · simp

/-- The handler takes the oldest request, which is the one that arrived. -/
theorem handleDispatch_behind (message : Message) (empty : system.cpuMessages = []) :
    (system.behind pcbs (message :: requests) interrupts).step config .handleDispatch =
      ({ system with cpuMessages := [message] }.step config .handleDispatch).map
        (behind pcbs requests interrupts) := by
  have nothing : { system with cpuMessages := [] } = system := by
    rw [← empty]
  change (system.behind pcbs requests interrupts).onKernel _ =
    ({ system with cpuMessages := [] }.onKernel _).map _
  rw [nothing]
  exact onKernel_behind pcbs requests interrupts
    (Kernel.withUnanswered_handleDispatchConnection pcbs message)

/-- The CPU takes the oldest PCB, which is the one that arrived: its registers are replaced. -/
theorem cpuExecute_behind (header : OperationCode) (process : Pcb) (request : CpuRequest)
    (cpuRegister : List (BitVec 64)) (programCounter : Int32)
    (empty : system.kernel.cpuDispatchConnection = []) :
    (system.behind ((header, process) :: pcbs) requests interrupts).step config
        (.cpuExecute request cpuRegister programCounter) =
      ({ system with
          kernel := { system.kernel with
            cpuDispatchConnection := [(.executeProcess, process.overWire)] } }.step config
          (.cpuExecute request cpuRegister programCounter)).map
        (behind pcbs requests interrupts) := by
  by_cases refused : request = .interrupt ∧ system.hasInterrupt = false
  · simp [step, cpuExecute, behind, Kernel.withUnanswered, refused]
  · simp only [step, cpuExecute, behind, Kernel.withUnanswered, refused, if_false,
      Option.map_some, Pcb.overWire, empty, List.append_nil, List.append_assoc]

/-- The CPU takes an interrupt. -/
theorem cpuReadInterrupt_behind (none_ : system.interruptHeaders = 0) :
    (system.behind pcbs requests (interrupts + 1)).step config .cpuReadInterrupt =
      (some { system with hasInterrupt := true }).map (behind pcbs requests interrupts) := by
  simp [step, behind, none_]

end System

namespace WireSystem

variable {config : KernelConfig} {transport : Link → Transport} {stale : List UInt8}
  {wire : WireSystem} {links : Link → Connection} {pending : Nat → List ConsoleRequest}
  {pcbs : List (OperationCode × Pcb)} {requests : List Message} {interrupts : Nat}

/-- The bytes of the commands. -/
def commandBytes (stale : List UInt8) (commands : List ConsoleRequest) : List UInt8 :=
  commands.flatMap fun command => (command.frame stale).bytes

/-- The bytes of the PCBs for the CPU. -/
def pcbBytes (stale : List UInt8) (pcbs : List (OperationCode × Pcb)) : List UInt8 :=
  pcbs.flatMap fun message => (Frame.package (sendPcb stale message.1 message.2)).bytes

/-- The bytes of the CPU's requests. -/
def requestBytes (stale : List UInt8) (requests : List Message) : List UInt8 :=
  requests.flatMap fun message =>
    (Frame.package (sendRequest stale message.pcb message.request)).bytes

/-- The bytes on the connections are those of the messages that are on their way. -/
structure Holds (stale : List UInt8) (links : Link → Connection) (pending : Nat → List ConsoleRequest)
    (pcbs : List (OperationCode × Pcb)) (requests : List Message) (interrupts : Nat) : Prop where
  consoles : ∀ console, (links (.console console)).stream = commandBytes stale (pending console)
  dispatchToCpu : (links .dispatchToCpu).stream = pcbBytes stale pcbs
  dispatchToKernel : (links .dispatchToKernel).stream = requestBytes stale requests
  interruptToCpu : (links .interruptToCpu).stream =
    List.replicate interrupts OperationCode.interruptQuantum.value

/-- The programs are in the same state, and the bytes between them are those of the messages. -/
structure Carries (stale : List UInt8) (wire : WireSystem) (state : MessageSystem) : Prop where
  system : wire.system = state.system.sent
  holds : Holds stale wire.link state.pending state.system.kernel.cpuDispatchConnection
    state.system.cpuMessages state.system.interruptHeaders

/-! ### Sending -/

theorem send_system (link : Link) (frames : List Frame) :
    (wire.send transport link frames).system = wire.system := rfl

theorem send_stream (legal : ∀ link, (transport link).Legal) (link other : Link)
    (frames : List Frame) :
    ((wire.send transport link frames).link other).stream =
      (wire.link other).stream ++ if other = link then frames.flatMap Frame.bytes else [] := by
  change (if other = link then sendFrames (transport link) frames (wire.link link)
    else wire.link other).stream = _
  split
  · next same =>
      subst same
      exact sendFrames_stream (legal other) frames _
  · exact (List.append_nil _).symm

theorem flatMap_headers (count : Nat) (code : UInt8) :
    (List.replicate count (Frame.header code)).flatMap Frame.bytes = List.replicate count code := by
  induction count with
  | zero => rfl
  | succ count ih =>
      rw [List.replicate_succ, List.flatMap_cons, ih]
      rfl

/-- What a step has to send goes behind what is on its way. -/
theorem carries_transmit (legal : ∀ link, (transport link).Legal)
    (holds : Holds stale wire.link pending pcbs requests interrupts) :
    (wire.transmit transport stale).Carries stale
      { system := wire.system.behind pcbs requests interrupts, pending := pending } where
  system := rfl
  holds :=
    { consoles := fun console => by
        simp [transmit, send_stream legal, holds.consoles]
      dispatchToCpu := by
        simp [transmit, send_stream legal, holds.dispatchToCpu, System.behind, pcbBytes,
          Kernel.withUnanswered, List.flatMap_map]
      dispatchToKernel := by
        simp [transmit, send_stream legal, holds.dispatchToKernel, System.behind, requestBytes,
          List.flatMap_map]
      interruptToCpu := by
        simp [transmit, send_stream legal, holds.interruptToCpu, System.behind, flatMap_headers,
          Nat.add_comm] }

/-- The same operation on the system, with what is on its way or without it. -/
theorem rel_onSystem (legal : ∀ link, (transport link).Legal)
    (holds : Holds stale wire.link pending pcbs requests interrupts)
    {operation : System → Option System} {result : Option System}
    (same : result = (operation wire.system).map (System.behind pcbs requests interrupts)) :
    Option.Rel (Carries stale) ((wire.onSystem operation).map (transmit transport stale))
      (result.map fun system => { system := system, pending := pending }) := by
  subst same
  rw [onSystem]
  cases operation wire.system with
  | none => exact .none
  | some next => exact .some (carries_transmit legal holds)

/-- Of the registers only the low halves are sent. -/
theorem transmit_cpuExecute {received : List (OperationCode × Pcb)} (request : CpuRequest)
    (cpuRegister : List (BitVec 64)) (programCounter : Int32) :
    (wire.onSystem fun system =>
        { system with kernel := { system.kernel with cpuDispatchConnection := received } }.step
          config (.cpuExecute request cpuRegister programCounter)).map (transmit transport stale) =
      (wire.onSystem fun system =>
        { system with kernel := { system.kernel with cpuDispatchConnection := received } }.step
          config (.cpuExecute request (cpuRegister.map lowHalf) programCounter)).map
            (transmit transport stale) := by
  cases received with
  | nil => rfl
  | cons message rest =>
      have same := @sendRequest_overWire stale
        ⟨request, { message.2 with cpuRegister := cpuRegister, programCounter := programCounter }⟩
      simp only [Message.overWire, Pcb.overWire] at same
      by_cases refused : request = .interrupt ∧ wire.system.hasInterrupt = false
      · simp [onSystem, System.step, System.cpuExecute, refused]
      · simp only [onSystem, System.step, System.cpuExecute, refused, if_false, Option.map_some,
          transmit, List.map_append, List.map_cons, same]
        rfl

/-! ### Receiving -/

theorem receive_of_conveys {α : Type} {loop : ReceiveLoop} {link : Link} {frame : Frame}
    {take : UInt8 → Option Buffer → Option α} {value : α} {rest : List UInt8}
    (conveys : frame.Conveys (transport link) loop take value)
    (stream : (wire.link link).stream = frame.bytes ++ rest) :
    ∃ header payload connection,
      wire.receive transport loop link = some ((header, payload), wire.setLink link connection) ∧
        connection.stream = rest ∧ take header payload = some value ∧
          ∃ handling, loop.handling? header = some handling := by
  obtain ⟨header, payload, obtains, taken, handling⟩ := conveys
  obtain ⟨later, got⟩ := obtains rest (wire.link link).calls
  rw [← stream] at got
  refine ⟨header, payload, { stream := rest, calls := later }, ?_, rfl, taken, handling⟩
  rw [receive, got]
  rfl

theorem receive_of_nil {loop : ReceiveLoop} {link : Link} (legal : (transport link).Legal)
    (stream : (wire.link link).stream = []) : wire.receive transport loop link = none := by
  have nothing : loop.receive (transport link) ⟨[], (wire.link link).calls⟩ = none :=
    receive_nil legal _
  rw [← stream] at nothing
  rw [receive, nothing]
  rfl

/-! ### One step -/

section

variable {state : MessageSystem} {event : WireEvent}

theorem Carries.behind (carries : wire.Carries stale state) :
    wire.system.behind state.system.kernel.cpuDispatchConnection state.system.cpuMessages
      state.system.interruptHeaders = state.system := by
  rw [carries.system, System.behind_sent]

/-- Between two steps nothing is left to send. -/
theorem Carries.cpuDispatchConnection (carries : wire.Carries stale state) :
    wire.system.kernel.cpuDispatchConnection = [] := by
  rw [carries.system]
  rfl

theorem Carries.cpuMessages (carries : wire.Carries stale state) : wire.system.cpuMessages = [] := by
  rw [carries.system]
  rfl

theorem Carries.interruptHeaders (carries : wire.Carries stale state) :
    wire.system.interruptHeaders = 0 := by
  rw [carries.system]
  rfl

/-- A step of the kernel alone. -/
theorem Carries.ofKernel {operation : Event} (legal : ∀ link, (transport link).Legal)
    (carries : wire.Carries stale state) (ofKernel : operation.isOfKernel = true)
    (notDispatch : operation ≠ .handleDispatch) :
    Option.Rel (Carries stale)
      ((wire.onSystem fun system => system.step config operation).map (transmit transport stale))
      (state.onSystem (·.step config operation)) := by
  refine rel_onSystem legal carries.holds ?_
  rw [← System.step_behind _ _ _ ofKernel notDispatch, carries.behind]

/-- A console's turn. -/
theorem Carries.input (legal : ∀ link, (transport link).Legal) (carries : wire.Carries stale state)
    (console : Nat) (input : ConsoleInput) :
    Option.Rel (Carries stale) (wire.step config transport stale (.input console input))
      (state.step config (.input console input)) := by
  obtain ⟨sends, ends⟩ := input.run_eq stale
  cases asked : input.meaning with
  | none =>
      have stops := ends asked
      have left : wire.step config transport stale (.input console input) = none := by
        simp [step, proceed, stops]
      have right : state.step config (.input console input) = none := by
        simp [MessageSystem.step, asked]
      rw [left, right]
      exact .none
  | some commands =>
      have run := sends commands asked
      have left : wire.step config transport stale (.input console input) =
          some ((wire.send transport (.console console)
            (commands.map (ConsoleRequest.frame stale))).transmit transport stale) := by
        simp [step, proceed, run]
      have right : state.step config (.input console input) =
          some (state.setPending console (state.pending console ++ commands)) := by
        simp [MessageSystem.step, asked]
      have holds : Holds stale
          (wire.send transport (.console console) (commands.map (ConsoleRequest.frame stale))).link
          (state.setPending console (state.pending console ++ commands)).pending
          state.system.kernel.cpuDispatchConnection state.system.cpuMessages
          state.system.interruptHeaders :=
        { consoles := fun other => by
            rw [send_stream legal, carries.holds.consoles]
            by_cases same : other = console
            · subst same
              simp [MessageSystem.setPending, commandBytes, List.flatMap_map]
            · simp [MessageSystem.setPending, same]
          dispatchToCpu := by simp [send_stream legal, carries.holds.dispatchToCpu]
          dispatchToKernel := by simp [send_stream legal, carries.holds.dispatchToKernel]
          interruptToCpu := by simp [send_stream legal, carries.holds.interruptToCpu] }
      have after := carries_transmit legal holds
      rw [send_system, carries.behind] at after
      rw [left, right]
      exact .some after

/-- `handler_connection` handles the oldest command of the console. -/
theorem Carries.handlerConnection (legal : ∀ link, (transport link).Legal)
    (carries : wire.Carries stale state) (sound : state.Sound) (console : Nat)
    (quantum clientSocket : Int32) :
    Option.Rel (Carries stale)
      (wire.step config transport stale (.handlerConnection console quantum clientSocket))
      (state.step config (.handlerConnection console quantum clientSocket)) := by
  have stream := carries.holds.consoles console
  cases waiting : state.pending console with
  | nil =>
      rw [waiting] at stream
      have left : wire.step config transport stale
          (.handlerConnection console quantum clientSocket) = none := by
        simp [step, proceed, receive_of_nil (legal (.console console)) stream]
      have right : state.step config (.handlerConnection console quantum clientSocket) = none := by
        simp [MessageSystem.step, waiting]
      rw [left, right]
      exact .none
  | cons command rest =>
      rw [waiting, commandBytes, List.flatMap_cons] at stream
      have fits := sound.commands console command (by rw [waiting]; exact List.mem_cons_self)
      obtain ⟨header, payload, connection, received, later, taken, handling, known⟩ :=
        receive_of_conveys (ConsoleRequest.conveys (legal (.console console)) fits) stream
      have left : wire.step config transport stale
            (.handlerConnection console quantum clientSocket) =
          ((wire.setLink (.console console) connection).onSystem fun system =>
            command.run config quantum clientSocket system).map (transmit transport stale) := by
        rw [step, proceed, received]
        simp [ReceiveLoop.switch_of_some known, taken]
      have right : state.step config (.handlerConnection console quantum clientSocket) =
          (state.setPending console rest).onSystem
            (command.run config quantum clientSocket ·) := by
        simp [MessageSystem.step, waiting]
      have holds : Holds stale (wire.setLink (.console console) connection).link
          (state.setPending console rest).pending state.system.kernel.cpuDispatchConnection
          state.system.cpuMessages state.system.interruptHeaders :=
        { consoles := fun other => by
            by_cases same : other = console
            · subst same
              simp [setLink, MessageSystem.setPending, later, commandBytes]
            · simp [setLink, MessageSystem.setPending, same, carries.holds.consoles]
          dispatchToCpu := carries.holds.dispatchToCpu
          dispatchToKernel := carries.holds.dispatchToKernel
          interruptToCpu := carries.holds.interruptToCpu }
      rw [left, right]
      refine rel_onSystem legal holds ?_
      change _ = (command.run config quantum clientSocket wire.system).map _
      rw [← System.run_behind, carries.behind]
      rfl

/-- `handle_dispatch_connection` handles the oldest request of the CPU. -/
theorem Carries.handleDispatchConnection (legal : ∀ link, (transport link).Legal)
    (carries : wire.Carries stale state) (sound : state.Sound) :
    Option.Rel (Carries stale) (wire.step config transport stale .handleDispatchConnection)
      (state.step config .handleDispatchConnection) := by
  have stream := carries.holds.dispatchToKernel
  cases waiting : state.system.cpuMessages with
  | nil =>
      rw [waiting] at stream
      have left : wire.step config transport stale .handleDispatchConnection = none := by
        simp [step, proceed, receive_of_nil (legal .dispatchToKernel) stream]
      have right : state.step config .handleDispatchConnection = none := by
        simp [MessageSystem.step, MessageSystem.onSystem, System.step, waiting]
      rw [left, right]
      exact .none
  | cons message rest =>
      rw [waiting, requestBytes, List.flatMap_cons] at stream
      obtain ⟨sendable, arrives⟩ := sound.requests message (by rw [waiting]; exact List.mem_cons_self)
      obtain ⟨header, payload, connection, received, later, taken, _⟩ :=
        receive_of_conveys (conveys_request (legal .dispatchToKernel) sendable) stream
      rw [arrives] at taken
      have left : wire.step config transport stale .handleDispatchConnection =
          ((wire.setLink .dispatchToKernel connection).onSystem fun system =>
            { system with cpuMessages := [message] }.step config .handleDispatch).map
              (transmit transport stale) := by
        rw [step, proceed, received]
        simp [taken]
      have holds : Holds stale (wire.setLink .dispatchToKernel connection).link state.pending
          state.system.kernel.cpuDispatchConnection rest state.system.interruptHeaders :=
        { carries.holds with dispatchToKernel := later }
      have behind := carries.behind
      rw [waiting] at behind
      rw [left]
      refine rel_onSystem legal holds ?_
      exact (congrArg (System.step config · .handleDispatch) behind.symm).trans
        (System.handleDispatch_behind _ rest _ message carries.cpuMessages)

/-- `execute_process` answers the oldest PCB for the CPU. -/
theorem Carries.executeProcess (legal : ∀ link, (transport link).Legal)
    (carries : wire.Carries stale state) (sound : state.Sound) (request : CpuRequest)
    (cpuRegister : List (BitVec 64)) (programCounter : Int32) :
    Option.Rel (Carries stale)
      (wire.step config transport stale (.executeProcess request cpuRegister programCounter))
      (state.step config (.executeProcess request cpuRegister programCounter)) := by
  have stream := carries.holds.dispatchToCpu
  cases waiting : state.system.kernel.cpuDispatchConnection with
  | nil =>
      rw [waiting] at stream
      have left : wire.step config transport stale
          (.executeProcess request cpuRegister programCounter) = none := by
        simp [step, proceed, receive_of_nil (legal .dispatchToCpu) stream]
      have right : state.step config
          (.executeProcess request cpuRegister programCounter) = none := by
        simp [MessageSystem.step, MessageSystem.onSystem, System.step, System.cpuExecute, waiting]
      rw [left, right]
      exact .none
  | cons message rest =>
      obtain ⟨code, process⟩ := message
      rw [waiting, pcbBytes, List.flatMap_cons] at stream
      obtain ⟨executes, sendable⟩ :=
        sound.pcbs (code, process) (by rw [waiting]; exact List.mem_cons_self)
      obtain ⟨header, payload, connection, received, later, taken, _⟩ :=
        receive_of_conveys (conveys_pcb (legal .dispatchToCpu) executes sendable) stream
      have left : wire.step config transport stale
            (.executeProcess request cpuRegister programCounter) =
          ((wire.setLink .dispatchToCpu connection).onSystem fun system =>
            { system with
              kernel := { system.kernel with
                cpuDispatchConnection := [(.executeProcess, process.overWire)] } }.step config
              (.cpuExecute request cpuRegister programCounter)).map (transmit transport stale) := by
        rw [step, proceed, received]
        simp [taken]
      have holds : Holds stale (wire.setLink .dispatchToCpu connection).link state.pending
          rest state.system.cpuMessages state.system.interruptHeaders :=
        { carries.holds with dispatchToCpu := later }
      have behind := carries.behind
      rw [waiting] at behind
      rw [left, transmit_cpuExecute]
      refine rel_onSystem legal holds ?_
      exact (congrArg (System.step config ·
          (.cpuExecute request (cpuRegister.map lowHalf) programCounter)) behind.symm).trans
        (System.cpuExecute_behind rest _ _ code process request _ programCounter
          carries.cpuDispatchConnection)

/-- The CPU reads an interrupt. -/
theorem Carries.readInterrupt (legal : ∀ link, (transport link).Legal)
    (carries : wire.Carries stale state) :
    Option.Rel (Carries stale) (wire.step config transport stale .readInterrupt)
      (state.step config .readInterrupt) := by
  have stream := carries.holds.interruptToCpu
  cases waiting : state.system.interruptHeaders with
  | zero =>
      rw [waiting] at stream
      have left : wire.step config transport stale .readInterrupt = none := by
        simp [step, proceed, receive_of_nil (legal .interruptToCpu) stream]
      have right : state.step config .readInterrupt = none := by
        simp [MessageSystem.step, MessageSystem.onSystem, System.step, waiting]
      rw [left, right]
      exact .none
  | succ interrupts =>
      rw [waiting, List.replicate_succ] at stream
      have conveys : (Frame.header OperationCode.interruptQuantum.value).Conveys
          (transport .interruptToCpu) .cpuKernel (fun header _ => some header)
          OperationCode.interruptQuantum.value :=
        ⟨_, _, obtains_header (legal .interruptToCpu) (by decide), rfl, .bare, rfl⟩
      obtain ⟨header, payload, connection, received, later, taken, _⟩ :=
        receive_of_conveys conveys stream
      obtain rfl := Option.some.inj taken
      have left : wire.step config transport stale .readInterrupt =
          ((wire.setLink .interruptToCpu connection).onSystem fun system =>
            some { system with hasInterrupt := true }).map (transmit transport stale) := by
        rw [step, proceed, received]
        rfl
      have holds : Holds stale (wire.setLink .interruptToCpu connection).link state.pending
          state.system.kernel.cpuDispatchConnection state.system.cpuMessages interrupts :=
        { carries.holds with interruptToCpu := later }
      have behind := carries.behind
      rw [waiting] at behind
      rw [left]
      refine rel_onSystem legal holds ?_
      exact (congrArg (System.step config · .cpuReadInterrupt) behind.symm).trans
        (System.cpuReadInterrupt_behind _ _ interrupts carries.interruptHeaders)

/-- The programs take the same step. -/
theorem Carries.step (legal : ∀ link, (transport link).Legal) (carries : wire.Carries stale state)
    (sound : state.Sound) :
    Option.Rel (Carries stale) (wire.step config transport stale event)
      (state.step config event) := by
  cases event with
  | input console input => exact carries.input legal console input
  | handlerConnection console quantum clientSocket =>
      exact carries.handlerConnection legal sound console quantum clientSocket
  | longTermPlanner => exact carries.ofKernel legal rfl (by simp)
  | shortTermPlanner => exact carries.ofKernel legal rfl (by simp)
  | sleepThread index => exact carries.ofKernel legal rfl (by simp)
  | handleDispatchConnection => exact carries.handleDispatchConnection legal sound
  | executeProcess request cpuRegister programCounter =>
      exact carries.executeProcess legal sound request cpuRegister programCounter
  | readInterrupt => exact carries.readInterrupt legal

end

end WireSystem

/-! ### Whole runs -/

namespace MessageSystem

variable {config : KernelConfig} {state next : MessageSystem} {event : WireEvent}

/-- An event moves no more than the system, and takes one step there.  The CPU's registers are narrow. -/
theorem step_system (taken : state.step config event = some next) :
    next.system = state.system ∨
      ∃ operation, state.system.step config operation = some next.system ∧
        ∀ request cpuRegister programCounter,
          operation = .cpuExecute request cpuRegister programCounter →
            cpuRegister.map lowHalf = cpuRegister := by
  have onSystem : ∀ {before : MessageSystem} {operation : Event},
      (∀ request cpuRegister programCounter,
        operation = .cpuExecute request cpuRegister programCounter →
          cpuRegister.map lowHalf = cpuRegister) →
      before.system = state.system →
      before.onSystem (·.step config operation) = some next →
      ∃ operation, state.system.step config operation = some next.system ∧
        ∀ request cpuRegister programCounter,
          operation = .cpuExecute request cpuRegister programCounter →
            cpuRegister.map lowHalf = cpuRegister := by
    intro before operation narrow same moved
    obtain ⟨system, stepped, rfl⟩ := Option.map_eq_some_iff.mp moved
    exact ⟨operation, by rw [← same]; exact stepped, narrow⟩
  cases event with
  | input console input =>
      obtain ⟨commands, _, rfl⟩ := Option.map_eq_some_iff.mp taken
      exact .inl rfl
  | handlerConnection console quantum clientSocket =>
      cases waiting : state.pending console with
      | nil => simp [step, waiting] at taken
      | cons command rest =>
          simp only [step, waiting] at taken
          cases command with
          | showAllProcesses =>
              obtain ⟨system, same, rfl⟩ := Option.map_eq_some_iff.mp taken
              exact .inl (Option.some.inj same).symm
          | createProcess _ | finishProcess _ | stopPlanning | startPlanning
          | modifyMultiprogrammingDegree _ =>
              simp only [ConsoleRequest.run] at taken
              refine .inr (onSystem ?_ ?_ taken)
              · simp
              · rfl
  | longTermPlanner | shortTermPlanner | sleepThread _ | handleDispatchConnection | readInterrupt =>
      exact .inr (onSystem (by simp) rfl taken)
  | executeProcess request cpuRegister programCounter =>
      refine .inr (onSystem ?_ rfl taken)
      rintro _ _ _ ⟨⟩
      simp

/-- The CPU is only sent PCBs to execute. -/
theorem executes_step {system after : System} {operation : Event}
    (executes : ∀ message ∈ system.kernel.cpuDispatchConnection, message.1.executes = true)
    (taken : system.step config operation = some after) :
    ∀ message ∈ after.kernel.cpuDispatchConnection, message.1.executes = true := by
  by_cases ofKernel : operation.isOfKernel = true
  · obtain ⟨sent, connection, headers⟩ := (System.step_cases taken).sends ofKernel
    rw [connection]
    intro message member
    rcases List.mem_append.mp member with old | new
    · exact executes message old
    · exact headers message new
  · cases operation with
    | cpuReadInterrupt =>
        obtain ⟨_, same⟩ := Option.ite_none_right_eq_some.mp taken
        obtain rfl := Option.some.inj same
        exact executes
    | cpuExecute request cpuRegister programCounter =>
        cases System.step_cases taken with
        | executes _ _ _ header process rest head result =>
            subst result
            intro message member
            exact executes message (by rw [head]; exact List.mem_cons_of_mem _ member)
        | plans _ _ planning => cases planning
    | _ => exact absurd rfl ofKernel

/-- The requests are as they will arrive. -/
theorem arrives_step {system after : System} {operation : Event}
    (arrives : ∀ message ∈ system.cpuMessages, message.overWire = message)
    (narrow : ∀ request cpuRegister programCounter,
      operation = .cpuExecute request cpuRegister programCounter →
        cpuRegister.map lowHalf = cpuRegister)
    (taken : system.step config operation = some after) :
    ∀ message ∈ after.cpuMessages, message.overWire = message := by
  cases System.step_cases taken with
  | creates _ _ _ result | finishes _ _ _ result | modifies _ result | sleepStarts _ _ _ _ result
  | sleepEnds _ _ _ _ result =>
      subst result
      exact arrives
  | plans _ quiet => rwa [quiet.cpuMessages]
  | admits _ _ admits => rwa [admits.cpuMessages]
  | dispatches _ _ dispatches => rwa [dispatches.cpuMessages]
  | handles message rest _ head _ result =>
      subst result
      intro other member
      exact arrives other (by rw [head]; exact List.mem_cons_of_mem _ member)
  | executes request cpuRegister programCounter header process rest head result =>
      subst result
      intro message member
      rcases List.mem_append.mp member with old | new
      · exact arrives message old
      · obtain rfl := List.mem_singleton.mp new
        simp [Message.overWire, Pcb.overWire, narrow request cpuRegister programCounter rfl]

theorem Sound.init (config : KernelConfig) : (init config).Sound where
  commands := by simp [MessageSystem.init]
  pcbs := by simp [MessageSystem.init, System.init, Kernel.init]
  requests := by simp [MessageSystem.init, System.init]

/-- Commands only come from a console. -/
theorem commands_step (sound : state.Sound) (fits : InputFits event)
    (taken : state.step config event = some next) :
    ∀ console, ∀ command ∈ next.pending console, command.Fits := by
  have onSystem : ∀ {before : MessageSystem} {operation : System → Option System},
      before.onSystem operation = some next → next.pending = before.pending := by
    intro before operation moved
    obtain ⟨system, _, rfl⟩ := Option.map_eq_some_iff.mp moved
    rfl
  cases event with
  | input console input =>
      obtain ⟨commands, asked, rfl⟩ := Option.map_eq_some_iff.mp taken
      intro other command member
      simp only [setPending] at member
      split at member
      · rcases List.mem_append.mp member with old | new
        · exact sound.commands console command old
        · exact fits commands asked command new
      · exact sound.commands other command member
  | handlerConnection console quantum clientSocket =>
      cases waiting : state.pending console with
      | nil => simp [step, waiting] at taken
      | cons command rest =>
          simp only [step, waiting] at taken
          rw [onSystem taken]
          intro other command member
          simp only [setPending] at member
          split at member
          · exact sound.commands console command (by rw [waiting]; exact List.mem_cons_of_mem _ member)
          · exact sound.commands other command member
  | longTermPlanner | shortTermPlanner | sleepThread _ | handleDispatchConnection | readInterrupt
  | executeProcess _ _ _ =>
      simp only [step] at taken
      rw [onSystem taken]
      exact sound.commands

/-- What an event sends can be received. -/
theorem Sound.step (sound : state.Sound) (fits : state.Fits config event)
    (taken : state.step config event = some next) : next.Sound := by
  obtain ⟨pcbsFit, requestsFit⟩ := fits.2 next taken
  have moved : (∀ message ∈ next.system.kernel.cpuDispatchConnection, message.1.executes = true) ∧
      ∀ message ∈ next.system.cpuMessages, message.overWire = message := by
    rcases step_system taken with same | ⟨operation, stepped, narrow⟩
    · rw [same]
      exact ⟨fun message member => (sound.pcbs message member).1,
        fun message member => (sound.requests message member).2⟩
    · exact ⟨executes_step (fun message member => (sound.pcbs message member).1) stepped,
        arrives_step (fun message member => (sound.requests message member).2) narrow stepped⟩
  exact
    { commands := commands_step sound fits.1 taken
      pcbs := fun message member => ⟨moved.1 message member, pcbsFit message member⟩
      requests := fun message member => ⟨requestsFit message member, moved.2 message member⟩ }

/-- What happens over typed messages is a run of the system. -/
theorem exists_system_run {events : List WireEvent}
    (reaches : run (step config) (init config) events = some state) :
    ∃ operations, run (System.step config) (System.init config) operations = some state.system := by
  have steps : ∀ {state : MessageSystem} {event next image}, state.system = image →
      state.step config event = some next →
      ∃ block after, run (System.step config) image block = some after ∧ next.system = after := by
    rintro state event next _ rfl taken
    rcases step_system taken with same | ⟨operation, stepped, _⟩
    · exact ⟨[], state.system, rfl, same⟩
    · exact ⟨[operation], next.system, by simp [run, stepped], rfl⟩
  obtain ⟨operations, last, ran, same⟩ := exists_run_of_simulation
    (fun (state : MessageSystem) system => state.system = system) steps rfl reaches
  exact ⟨operations, by rw [same]; exact ran⟩

end MessageSystem

theorem WireSystem.Carries.init (stale : List UInt8) (config : KernelConfig) :
    (WireSystem.init config).Carries stale (MessageSystem.init config) where
  system := rfl
  holds :=
    { consoles := fun _ => rfl
      dispatchToCpu := rfl
      dispatchToKernel := rfl
      interruptToCpu := rfl }

/-- The programs over streams of bytes do step for step what they do over typed messages: the same steps
    can be taken, the bytes that are on their way are those of the messages, and the programs are in the
    state of a run of the system. -/
theorem wire_run_carries (config : KernelConfig) (transport : Link → Transport)
    (legal : ∀ link, (transport link).Legal) (stale : List UInt8) (events : List WireEvent)
    (fits : Meets (MessageSystem.step config) (MessageSystem.Fits config) (MessageSystem.init config)
      events) :
    Option.Rel (WireSystem.Carries stale)
        (run (WireSystem.step config transport stale) (WireSystem.init config) events)
        (run (MessageSystem.step config) (MessageSystem.init config) events) ∧
      ∀ state, run (MessageSystem.step config) (MessageSystem.init config) events = some state →
        ∃ operations,
          run (System.step config) (System.init config) operations = some state.system := by
  constructor
  · refine run_rel (WireSystem.Carries stale) MessageSystem.Sound ?_ ?_
      (WireSystem.Carries.init stale config) (MessageSystem.Sound.init config) fits
    · intro wire state event carries sound
      exact carries.step legal sound
    · intro state event next sound fits taken
      exact sound.step fits taken
  · exact fun state reaches => MessageSystem.exists_system_run reaches

/-- Two consoles give commands, one of them by its menu; a process is created and executed, asks for a
    resource and gets it. -/
def consoleRun : List WireEvent :=
  [.input 0 (.choice "3" ""), .input 1 (.command ["INICIAR_PROCESO", "A"]),
    .input 0 (.choice "6" ""), .handlerConnection 1 0 7, .handlerConnection 0 0 6,
    .handlerConnection 0 0 6, .longTermPlanner, .longTermPlanner, .longTermPlanner,
    .shortTermPlanner, .shortTermPlanner, .shortTermPlanner,
    .executeProcess (.wait "REC1") [0x10000000005, 0, 0, 0] 3, .handleDispatchConnection]

theorem wire_run_carries_consoleRun :
    ∃ state, run (MessageSystem.step fifoConfig) (MessageSystem.init fifoConfig) consoleRun =
        some state ∧
      (state.system.kernel.cpuDispatchConnection.map fun message =>
        (message.1, message.2.resources, message.2.cpuRegister)) =
          [(.waitResponse, ["REC1"], [5, 0, 0, 0])] ∧
      Option.Rel (WireSystem.Carries [1, 2, 3])
        (run (WireSystem.step fifoConfig (fun _ => alternating) [1, 2, 3])
          (WireSystem.init fifoConfig) consoleRun) (some state) ∧
      ∃ operations,
        run (System.step fifoConfig) (System.init fifoConfig) operations = some state.system := by
  have carries := wire_run_carries fifoConfig (fun _ => alternating) (fun _ => alternating_legal)
    [1, 2, 3] consoleRun (by decide)
  refine ⟨_, rfl, by decide, carries.1, carries.2 _ rfl⟩

end OsSimulator
