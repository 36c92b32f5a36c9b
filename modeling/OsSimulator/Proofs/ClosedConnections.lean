/-
Module: OsSimulator.Proofs.ClosedConnections
Purpose: What the receiving loops do once their peer has closed the connection.  The header is then what
  its variable held before; no byte is -1, so a loop that does not return on an incorrect header never
  ends, and one that returns does so only if the byte is none of its operations.
Main exports: ReceiveLoop.ClosesCleanly, ReceiveLoop.turns_messages, closesCleanly_iff
-/
import OsSimulator.Shared.Loops
import OsSimulator.Proofs.Framing

namespace OsSimulator

open Bytes

/-- The operation that a loop begins. -/
def LoopEvent.operation? : LoopEvent → Option (UInt8 × Option (Option Buffer))
  | .operation received => some received
  | .disconnected | .incorrect _ => none

/-- The operations that a loop has begun. -/
def LoopRun.begun (run : LoopRun) : List (UInt8 × Option (Option Buffer)) :=
  run.events.filterMap LoopEvent.operation?

namespace ReceiveLoop

/-- The message is one of an operation of the loop: a header alone, or a package. -/
def Accepts (loop : ReceiveLoop) : Frame → Prop
  | .header code => loop.handling? code = some .bare
  | .package whole =>
      loop.handling? whole.header = some .payload ∨ loop.handling? whole.header = some .elsewhere

/-- The loop begins the operations of the messages and no others, and then it is left or has logged the
    disconnection. -/
def ClosesCleanly (transport : Transport) (stale : Nat → UInt8) (loop : ReceiveLoop)
    (connection : Connection) (messages : List Frame) : Prop :=
  (∀ count, ∃ run, loop.turns transport stale (.start connection) count = some run ∧
      run.begun <+: messages.map Frame.received) ∧
    ∃ count run, loop.turns transport stale (.start connection) count = some run ∧
      run.begun = messages.map Frame.received ∧
      (run.status = .left ∨ .disconnected ∈ run.events)

variable {transport : Transport} {stale : Nat → UInt8} {loop : ReceiveLoop} {run next : LoopRun}

/-! ### What no byte does -/

/-- `case -1` is never taken. -/
theorem switch_ne_disconnected (header : UInt8) : loop.switch header ≠ .disconnected := by
  unfold switch
  split
  · exact SwitchCase.noConfusion
  · have promoted : (header.toNat : Int) ≠ -1 := by omega
    rw [if_neg promoted]
    exact SwitchCase.noConfusion

theorem switch_of_none {header : UInt8} (unknown : loop.handling? header = none) :
    loop.switch header = .incorrect := by
  unfold switch
  have promoted : (header.toNat : Int) ≠ -1 := by omega
  rw [unknown]
  exact if_neg promoted

theorem switch_of_some {header : UInt8} {handling : Handling}
    (known : loop.handling? header = some handling) :
    loop.switch header = .operation handling := by
  rw [switch, known]

theorem mem_operations {header : UInt8} {handling : Handling}
    (known : loop.handling? header = some handling) :
    ∃ code, (code, handling) ∈ loop.operations := by
  obtain ⟨⟨code, _⟩, found, rfl⟩ := Option.map_eq_some_iff.mp known
  exact ⟨code, List.mem_of_find?_eq_some found⟩

/-- Only one loop of memory leaves a payload on the connection. -/
theorem handling?_ne_elsewhere (other : loop ≠ .memoryKernel) (header : UInt8) :
    loop.handling? header ≠ some .elsewhere := by
  intro elsewhere
  obtain ⟨code, member⟩ := mem_operations elsewhere
  cases loop <;> simp [operations] at member other

theorem ne_memoryKernel (returning : loop.returns = true) : loop ≠ .memoryKernel := by
  rintro rfl
  cases returning

/-- No loop ever logs a disconnection, and only a loop that returns is left. -/
structure Endless (loop : ReceiveLoop) (run : LoopRun) : Prop where
  events : .disconnected ∉ run.events
  status : loop.returns = false → run.status ≠ .left

theorem Endless.turn {byte : UInt8} (endless : loop.Endless run)
    (turned : loop.turn transport byte run = some next) : loop.Endless next := by
  have logs : ∀ event, event ≠ .disconnected → .disconnected ∉ run.events ++ [event] := by
    intro event other member
    rcases List.mem_append.mp member with old | new
    · exact endless.events old
    · exact other (List.mem_singleton.mp new).symm
  unfold ReceiveLoop.turn at turned
  split at turned
  · obtain ⟨⟨header, connection⟩, _, turned⟩ := Option.bind_eq_some_iff.mp turned
    dsimp only at turned
    split at turned
    · cases turned
      exact ⟨logs _ LoopEvent.noConfusion, fun _ => LoopStatus.noConfusion⟩
    · obtain ⟨⟨payload, later⟩, _, turned⟩ := Option.bind_eq_some_iff.mp turned
      cases turned
      refine ⟨logs _ LoopEvent.noConfusion, fun _ => ?_⟩
      dsimp only
      split <;> exact LoopStatus.noConfusion
    · cases turned
      exact ⟨logs _ LoopEvent.noConfusion, fun _ => LoopStatus.noConfusion⟩
    · exact absurd ‹_› (switch_ne_disconnected header)
    · cases turned
      refine ⟨logs _ LoopEvent.noConfusion, fun goesOn => ?_⟩
      rw [afterError, goesOn]
      exact LoopStatus.noConfusion
  all_goals
    cases turned
    exact endless

theorem Endless.turns {count : Nat} (endless : loop.Endless run)
    (turned : loop.turns transport stale run count = some next) : loop.Endless next := by
  induction count generalizing next with
  | zero =>
      cases turned
      exact endless
  | succ count ih =>
      obtain ⟨middle, before, last⟩ := Option.bind_eq_some_iff.mp turned
      exact (ih before).turn last

theorem Endless.start (loop : ReceiveLoop) (connection : Connection) :
    loop.Endless (.start connection) where
  events := List.not_mem_nil
  status := fun _ => LoopStatus.noConfusion

/-! ### One message -/

theorem untilClosed_of_cons {connection : Connection} (open_ : connection.stream ≠ []) :
    transport.untilClosed connection = transport := if_neg open_

theorem untilClosed_of_nil {connection : Connection} (closed : connection.stream = []) :
    transport.untilClosed connection = fun _ _ => 0 := if_pos closed

/-- While there are bytes, the header is received. -/
theorem receiveHeaderUntilClosed_cons (legal : transport.Legal) (byte code : UInt8)
    (rest : List UInt8) (calls : Nat) :
    ∃ later, receiveHeaderUntilClosed transport byte { stream := code :: rest, calls := calls } =
      some (code, { stream := rest, calls := later }) := by
  obtain ⟨later, got⟩ := obtains_socketGet legal [code] rest calls
  refine ⟨later, ?_⟩
  change socketGet transport 1 { stream := code :: rest, calls := calls } = _ at got
  rw [receiveHeaderUntilClosed, untilClosed_of_cons (List.cons_ne_nil code rest), got]
  rfl

/-- On a closed connection the header is what its variable held. -/
theorem receiveHeaderUntilClosed_nil (byte : UInt8) (calls : Nat) :
    receiveHeaderUntilClosed transport byte { stream := [], calls := calls } =
      some (byte, { stream := [], calls := calls + 1 }) := by
  rw [receiveHeaderUntilClosed, untilClosed_of_nil rfl]
  rfl

theorem receivePayloadUntilClosed_package (legal : transport.Legal) {payload : Buffer}
    (wellFormed : payload.offset.toNat ≤ payload.stream.length) (rest : List UInt8) (calls : Nat) :
    ∃ later, receivePayloadUntilClosed transport
        { stream := ofWord payload.offset ++ payload.contents ++ rest, calls := calls } =
      some (some (createBuffer payload.contents), { stream := rest, calls := later }) := by
  have nonempty : ofWord payload.offset ++ payload.contents ++ rest ≠ [] := by
    simp [← List.length_eq_zero_iff, length_ofWord]
  rw [receivePayloadUntilClosed, untilClosed_of_cons nonempty]
  exact obtains_receivePayload legal wellFormed rest calls

/-- A turn with a message waiting begins its operation. -/
theorem turn_message (legal : transport.Legal) {frame : Frame}
    (other : loop ≠ .memoryKernel) (accepts : loop.Accepts frame) (wellFormed : frame.WellFormed)
    (byte : UInt8) (events : List LoopEvent) (rest : List UInt8) (calls : Nat) :
    ∃ later, loop.turn transport byte
        { events := events, status := .running
          connection := { stream := frame.bytes ++ rest, calls := calls } } =
      some { events := events ++ [.operation frame.received], status := .running
             connection := { stream := rest, calls := later } } := by
  cases frame with
  | header code =>
      obtain ⟨later, got⟩ := receiveHeaderUntilClosed_cons legal byte code rest calls
      refine ⟨later, ?_⟩
      have case_ : loop.switch code = .operation .bare := switch_of_some accepts
      simp only [turn, Frame.bytes, List.cons_append, List.nil_append, got, Option.bind_eq_bind,
        Option.bind_some, case_]
      rfl
  | package whole =>
      have payload : loop.handling? whole.header = some .payload := by
        rcases accepts with payload | elsewhere
        · exact payload
        · exact absurd elsewhere (handling?_ne_elsewhere other whole.header)
      obtain ⟨between, gotHeader⟩ := receiveHeaderUntilClosed_cons legal byte whole.header
        (ofWord whole.payload.offset ++ whole.payload.contents ++ rest) calls
      obtain ⟨later, gotPayload⟩ :=
        receivePayloadUntilClosed_package legal wellFormed rest between
      refine ⟨later, ?_⟩
      have case_ : loop.switch whole.header = .operation .payload := switch_of_some payload
      simp only [turn, Frame.bytes, Package.bytes, List.cons_append, gotHeader,
        Option.bind_eq_bind, Option.bind_some, case_, gotPayload]
      rfl

/-! ### All messages, and the end of the stream -/

/-- After as many turns as there are messages, their operations have begun and nothing is unread. -/
theorem turns_messages (legal : transport.Legal) (other : loop ≠ .memoryKernel)
    (messages : List Frame)
    (accepted : ∀ message ∈ messages, loop.Accepts message ∧ message.WellFormed)
    (stale : Nat → UInt8) (calls : Nat) {count : Nat} (most : count ≤ messages.length) :
    ∃ later, loop.turns transport stale
        (.start { stream := messages.flatMap Frame.bytes, calls := calls }) count =
      some { events := (messages.take count).map fun message => .operation message.received
             status := .running
             connection :=
               { stream := (messages.drop count).flatMap Frame.bytes, calls := later } } := by
  induction count with
  | zero => exact ⟨calls, rfl⟩
  | succ count ih =>
      obtain ⟨between, before⟩ := ih (Nat.le_of_succ_le most)
      have inside : count < messages.length := most
      obtain ⟨accepts, wellFormed⟩ := accepted messages[count] (List.getElem_mem inside)
      obtain ⟨later, last⟩ := turn_message legal other accepts wellFormed (stale count)
        ((messages.take count).map fun message => .operation message.received)
        ((messages.drop (count + 1)).flatMap Frame.bytes) between
      refine ⟨later, ?_⟩
      rw [turns, before, Option.bind_some, List.drop_eq_getElem_cons inside, List.flatMap_cons,
        last, List.take_succ_eq_append_getElem inside, List.map_append]
      rfl

/-- The turn after the last message takes what the header's variable held for a header. -/
theorem turn_closed (loop : ReceiveLoop) (transport : Transport) (byte : UInt8)
    (events : List LoopEvent) (calls : Nat) :
    (loop.handling? byte = none ∧ loop.turn transport byte
        { events := events, status := .running, connection := { stream := [], calls := calls } } =
      some { events := events ++ [.incorrect byte], status := loop.afterError
             connection := { stream := [], calls := calls + 1 } }) ∨
      ∃ payload status later, (loop.handling? byte).isSome ∧ loop.turn transport byte
        { events := events, status := .running, connection := { stream := [], calls := calls } } =
      some { events := events ++ [.operation (byte, payload)], status := status
             connection := later } := by
  have header : receiveHeaderUntilClosed transport byte { stream := [], calls := calls } =
      some (byte, { stream := [], calls := calls + 1 }) := receiveHeaderUntilClosed_nil byte calls
  cases known : loop.handling? byte with
  | none =>
      refine .inl ⟨rfl, ?_⟩
      simp only [turn, header, Option.bind_eq_bind, Option.bind_some, switch_of_none known]
      rfl
  | some handling =>
      right
      cases handling with
      | bare =>
          refine ⟨none, .running, { stream := [], calls := calls + 1 }, rfl, ?_⟩
          simp only [turn, header, Option.bind_eq_bind, Option.bind_some, switch_of_some known]
          rfl
      | payload =>
          refine ⟨some none, .dead, { stream := [], calls := calls + 1 + 1 }, rfl, ?_⟩
          have noPayload : receivePayloadUntilClosed transport
              { stream := [], calls := calls + 1 } =
                some (none, { stream := [], calls := calls + 1 + 1 }) := by
            rw [receivePayloadUntilClosed, untilClosed_of_nil rfl]
            rfl
          simp only [turn, header, Option.bind_eq_bind, Option.bind_some, switch_of_some known,
            noPayload]
          rfl
      | elsewhere =>
          refine ⟨none, .stuck, { stream := [], calls := calls + 1 }, rfl, ?_⟩
          simp only [turn, header, Option.bind_eq_bind, Option.bind_some, switch_of_some known]
          rfl

/-- A loop that has been left stays as it is. -/
theorem turns_left {count more : Nat} {start : LoopRun}
    (turned : loop.turns transport stale start count = some run) (left : run.status = .left) :
    loop.turns transport stale start (count + more) = some run := by
  induction more with
  | zero => exact turned
  | succ more ih =>
      rw [← Nat.add_assoc, turns, ih, Option.bind_some, turn, left]

theorem begun_operations (messages : List Frame) :
    (messages.map fun message => LoopEvent.operation message.received).filterMap
        LoopEvent.operation? = messages.map Frame.received := by
  rw [List.filterMap_map]
  exact congrFun List.filterMap_eq_map messages

/-- A log line begins no operation. -/
theorem begun_incorrect (messages : List Frame) (byte : UInt8) :
    ((messages.map fun message : Frame => LoopEvent.operation message.received) ++
        [LoopEvent.incorrect byte]).filterMap LoopEvent.operation? = messages.map Frame.received := by
  have silent : [LoopEvent.incorrect byte].filterMap LoopEvent.operation? = [] := rfl
  rw [List.filterMap_append, begun_operations, silent, List.append_nil]

/-! ### Both directions -/

theorem ClosesCleanly.returning {connection : Connection} {messages : List Frame}
    (closes : loop.ClosesCleanly transport stale connection messages) : loop.returns = true := by
  obtain ⟨_, count, run, turned, _, ends⟩ := closes
  have endless := (Endless.start loop connection).turns turned
  have left : run.status = .left := ends.resolve_right endless.events
  by_contra goesOn
  exact endless.status (by simpa using goesOn) left

section Closed

variable {messages : List Frame} {calls : Nat} (legal : transport.Legal)
  (accepted : ∀ message ∈ messages, loop.Accepts message ∧ message.WellFormed)

include legal accepted

/-- An operation that is begun after the last message has no message. -/
theorem ClosesCleanly.unknown (closes : loop.ClosesCleanly transport stale
      { stream := messages.flatMap Frame.bytes, calls := calls } messages) :
    loop.handling? (stale messages.length) = none := by
  obtain ⟨later, all⟩ := turns_messages legal (ne_memoryKernel closes.returning) messages accepted
    stale calls (Nat.le_refl messages.length)
  obtain ⟨after, nextTurned, isPrefix⟩ := closes.1 (messages.length + 1)
  rw [turns, all, Option.bind_some, List.take_length, List.drop_length] at nextTurned
  rcases loop.turn_closed transport (stale messages.length)
    (messages.map fun message => .operation message.received) later with
    ⟨unknown, _⟩ | ⟨_, _, _, _, begins⟩
  · exact unknown
  · obtain rfl := Option.some.inj (begins.symm.trans nextTurned)
    have lengths := isPrefix.length_le
    rw [LoopRun.begun, List.filterMap_append, begun_operations, List.length_append] at lengths
    simp [LoopEvent.operation?] at lengths

/-- A loop that returns is left in the turn after the last message. -/
theorem turns_returning (returning : loop.returns = true)
    (unknown : loop.handling? (stale messages.length) = none) :
    ∃ later, loop.turns transport stale
        (.start { stream := messages.flatMap Frame.bytes, calls := calls }) (messages.length + 1) =
      some { events := messages.map (fun message => .operation message.received) ++
               [.incorrect (stale messages.length)]
             status := .left
             connection := { stream := [], calls := later } } := by
  obtain ⟨later, all⟩ := turns_messages legal (ne_memoryKernel returning) messages accepted stale calls
    (Nat.le_refl messages.length)
  rcases loop.turn_closed transport (stale messages.length)
    (messages.map fun message => .operation message.received) later with
    ⟨_, leaves⟩ | ⟨_, _, _, known, _⟩
  · refine ⟨later + 1, ?_⟩
    rw [turns, all, Option.bind_some, List.take_length, List.drop_length]
    refine leaves.trans ?_
    rw [afterError, if_pos returning]
  · rw [unknown] at known
    cases known

theorem closesCleanly_of_returning (returning : loop.returns = true)
    (unknown : loop.handling? (stale messages.length) = none) :
    loop.ClosesCleanly transport stale
      { stream := messages.flatMap Frame.bytes, calls := calls } messages := by
  obtain ⟨later, last⟩ := turns_returning legal accepted returning unknown
  refine ⟨fun count => ?_, messages.length + 1, _, last, ?_, .inl rfl⟩
  · rcases Nat.lt_or_ge messages.length count with beyond | inside
    · obtain ⟨more, rfl⟩ := Nat.exists_eq_add_of_le beyond
      refine ⟨_, turns_left last rfl, ?_⟩
      simp only [LoopRun.begun, begun_incorrect]
      exact List.prefix_rfl
    · obtain ⟨between, some_⟩ :=
        turns_messages legal (ne_memoryKernel returning) messages accepted stale calls inside
      refine ⟨_, some_, ?_⟩
      rw [LoopRun.begun, begun_operations]
      exact (List.take_prefix count messages).map Frame.received
  · rw [LoopRun.begun, begun_incorrect]

end Closed

end ReceiveLoop

open ReceiveLoop

/-- After the messages of a peer that closes the connection, a loop begins no further operation and is
    left, if and only if it is one that returns and what the header's variable holds is none of its
    operations. -/
theorem closesCleanly_iff (transport sender : Transport) (legal : transport.Legal)
    (sends : sender.Legal) (loop : ReceiveLoop) (messages : List Frame)
    (accepted : ∀ message ∈ messages, loop.Accepts message ∧ message.WellFormed)
    (stale : Nat → UInt8) (calls : Nat) :
    loop.ClosesCleanly transport stale
        (sendFrames sender messages { stream := [], calls := calls }) messages ↔
      loop.returns = true ∧ loop.handling? (stale messages.length) = none := by
  have sent := sendFrames_stream sends messages { stream := [], calls := calls }
  generalize sendFrames sender messages { stream := [], calls := calls } = connection at sent
  obtain ⟨stream, calls⟩ := connection
  obtain rfl : stream = messages.flatMap Frame.bytes := sent
  constructor
  · intro closes
    exact ⟨closes.returning, closes.unknown legal accepted⟩
  · rintro ⟨returning, unknown⟩
    exact closesCleanly_of_returning legal accepted returning unknown

/-- A `START_PLANNING` after which the console closes the connection, with the header left where it
    was: planning is started twice. -/
theorem closed_console_starts_again :
    ¬ ReceiveLoop.kernelConsole.ClosesCleanly alternating (fun _ => 14)
      (sendFrames alternating [.header 14] { stream := [], calls := 0 }) [.header 14] := by
  have sent := sendFrames_stream alternating_legal [.header 14] { stream := [], calls := 0 }
  generalize sendFrames alternating [.header 14] { stream := [], calls := 0 } = connection at sent
  obtain ⟨stream, calls⟩ := connection
  obtain rfl : stream = [.header 14].flatMap Frame.bytes := sent
  rintro ⟨prefixes, _⟩
  have accepted : ∀ message ∈ [Frame.header 14],
      ReceiveLoop.kernelConsole.Accepts message ∧ message.WellFormed := by
    intro message member
    obtain rfl := List.mem_singleton.mp member
    exact ⟨rfl, trivial⟩
  obtain ⟨later, first⟩ := turns_messages alternating_legal (by decide) [.header 14] accepted
    (fun _ => 14) calls (Nat.le_refl 1)
  obtain ⟨run, turned, isPrefix⟩ := prefixes 2
  rw [turns, first] at turned
  obtain rfl := Option.some.inj turned
  exact Nat.not_succ_le_self 1 isPrefix.length_le

theorem closesCleanly_iff_dispatch :
    ReceiveLoop.kernelDispatch.ClosesCleanly alternating (fun _ => 0)
        (sendFrames alternating
          [.package { header := 10, payload := createBuffer [1, 2, 3] }]
          { stream := [], calls := 0 })
        [.package { header := 10, payload := createBuffer [1, 2, 3] }] ↔
      ReceiveLoop.kernelDispatch.returns = true ∧ ReceiveLoop.kernelDispatch.handling? 0 = none :=
  closesCleanly_iff alternating alternating alternating_legal alternating_legal .kernelDispatch
    [.package { header := 10, payload := createBuffer [1, 2, 3] }]
    (by
      intro message member
      obtain rfl := List.mem_singleton.mp member
      exact ⟨.inl rfl, by simp [Frame.WellFormed, createBuffer]⟩)
    (fun _ => 0) 0

end OsSimulator
