/-
Module: OsSimulator.Proofs.Framing
Purpose: Headers and packages arrive as they were sent, however the transport splits the stream: the
  loops of `send_all` and `recv_all` put it together again, and the length in front of a payload says
  how much of it belongs to the package.
Main exports: Package.bytes, Frame.bytes, sendAll_legal, recvAll_legal, stream_framing
-/
import OsSimulator.Shared.Sockets

namespace OsSimulator

open Bytes

/-! ### The bytes of a message -/

/-- The bytes that `send_package` sends. -/
def Package.bytes (package : Package) : List UInt8 :=
  package.header :: (ofWord package.payload.offset ++ package.payload.contents)

/-- The bytes of a message. -/
def Frame.bytes : Frame → List UInt8
  | .header code => [code]
  | .package whole => whole.bytes

/-- The message is a package. -/
def Frame.isPackage : Frame → Bool
  | .header _ => false
  | .package _ => true

/-- What the receiver is to obtain of a message. -/
def Frame.received : Frame → UInt8 × Option (Option Buffer)
  | .header code => (code, none)
  | .package whole => (whole.header, some (some (createBuffer whole.payload.contents)))

/-- The offset of a package's payload is inside its stream. -/
def Frame.WellFormed : Frame → Prop
  | .header _ => True
  | .package whole => whole.payload.offset.toNat ≤ whole.payload.stream.length

section Framing

variable {transport : Transport}

/-! ### The loops -/

/-- `send_all` sends all of its data. -/
theorem sendAll_legal (legal : transport.Legal) (data : List UInt8) (connection : Connection) :
    ∃ calls, sendAll transport data connection =
      (1, { stream := connection.stream ++ data, calls := calls }) := by
  fun_induction sendAll transport data connection with
  | case1 connection => exact ⟨connection.calls, by simp⟩
  | case2 data connection nonempty sent notSent =>
      have sentSome := (legal connection.calls data.length (List.length_pos_iff.mpr nonempty)).1
      omega
  | case3 data connection nonempty sent sentSome ih =>
      obtain ⟨calls, rest⟩ := ih
      refine ⟨calls, rest.trans ?_⟩
      rw [List.append_assoc, List.take_append_drop]

theorem recv_legal (legal : transport.Legal) {size : Nat} (positive : 0 < size)
    {connection : Connection} (enough : size ≤ connection.stream.length) :
    ∃ received, 0 < received ∧ received ≤ size ∧
      recv transport size connection =
        some (((received : Int), connection.stream.take received),
          { stream := connection.stream.drop received, calls := connection.calls + 1 }) := by
  obtain ⟨least, most⟩ := legal connection.calls size positive
  refine ⟨(transport connection.calls size).toNat, by omega, by omega, ?_⟩
  have count : ((transport connection.calls size).toNat : Int) = transport connection.calls size := by
    omega
  rw [recv, if_pos (by omega), count]

/-- With enough turns, the loop of `recv_all` receives all it is asked for. -/
theorem recvLoop_legal (legal : transport.Legal) {turns size : Nat} (enoughTurns : size ≤ turns)
    (connection : Connection) (enough : size ≤ connection.stream.length) :
    ∃ calls, recvAll.loop transport turns size connection =
      some ((1, connection.stream.take size),
        { stream := connection.stream.drop size, calls := calls }) := by
  induction turns generalizing size connection with
  | zero =>
      obtain rfl := Nat.le_zero.mp enoughTurns
      exact ⟨connection.calls, rfl⟩
  | succ turns ih =>
      cases size with
      | zero => exact ⟨connection.calls, rfl⟩
      | succ size =>
          obtain ⟨received, positive, most, got⟩ := recv_legal legal (Nat.succ_pos size) enough
          have fewer : size + 1 - received ≤ turns := by omega
          obtain ⟨calls, rest⟩ := ih fewer
            { stream := connection.stream.drop received, calls := connection.calls + 1 }
            (by rw [List.length_drop]; omega)
          have notClosed : ¬ ((received : Int) ≤ 0) := by omega
          have whole : connection.stream.take received ++
              (connection.stream.drop received).take (size + 1 - received) =
                connection.stream.take (size + 1) := by
            rw [← List.take_add]
            congr 1
            omega
          have left : (connection.stream.drop received).drop (size + 1 - received) =
              connection.stream.drop (size + 1) := by
            rw [List.drop_drop]
            congr 1
            omega
          refine ⟨calls, ?_⟩
          calc recvAll.loop transport (turns + 1) (size + 1) connection
              = (recv transport (size + 1) connection).bind fun pair =>
                  (if pair.1.1 ≤ 0 then pure (pair.1.1, []) else do
                    let later ← recvAll.loop transport turns (size + 1 - pair.1.1.toNat)
                    return (later.1, pair.1.2 ++ later.2) : Receiver (Int × List UInt8)) pair.2 := rfl
            _ = (recvAll.loop transport turns (size + 1 - received)
                  { stream := connection.stream.drop received
                    calls := connection.calls + 1 }).bind fun pair =>
                  some ((pair.1.1, connection.stream.take received ++ pair.1.2), pair.2) := by
                rw [got, Option.bind_some, if_neg notClosed]
                rfl
            _ = _ := by rw [rest, Option.bind_some, whole, left]

/-- `recv_all` receives all it is asked for, if it is going to arrive. -/
theorem recvAll_legal (legal : transport.Legal) (size : Nat) (connection : Connection)
    (enough : size ≤ connection.stream.length) :
    ∃ calls, recvAll transport size connection =
      some ((1, connection.stream.take size),
        { stream := connection.stream.drop size, calls := calls }) :=
  recvLoop_legal legal (Nat.le_refl size) connection enough

/-! ### One message -/

/-- The receiver obtains the value from a connection on which the bytes arrive next, and leaves the
    others. -/
def Obtains {α : Type} (receiver : Receiver α) (bytes : List UInt8) (value : α) : Prop :=
  ∀ (rest : List UInt8) (calls : Nat), ∃ later,
    receiver { stream := bytes ++ rest, calls := calls } =
      some (value, { stream := rest, calls := later })

theorem Obtains.bind {α β : Type} {receiver : Receiver α} {next : α → Receiver β}
    {bytes more : List UInt8} {value : α} {result : β} (first : Obtains receiver bytes value)
    (second : Obtains (next value) more result) :
    Obtains (receiver >>= next) (bytes ++ more) result := by
  intro rest calls
  obtain ⟨between, got⟩ := first (more ++ rest) calls
  obtain ⟨later, gotMore⟩ := second rest between
  refine ⟨later, ?_⟩
  calc (receiver >>= next) { stream := bytes ++ more ++ rest, calls := calls }
      = (receiver { stream := bytes ++ more ++ rest, calls := calls }).bind fun pair =>
          next pair.1 pair.2 := rfl
    _ = _ := by rw [List.append_assoc, got, Option.bind_some, gotMore]

theorem obtains_pure {α : Type} (value : α) : Obtains (pure value) [] value :=
  fun _ calls => ⟨calls, rfl⟩

/-- A receiver may go on with what it obtained. -/
theorem Obtains.map {α β : Type} {receiver : Receiver α} {bytes : List UInt8} {value : α}
    (function : α → β) (obtains : Obtains receiver bytes value) :
    Obtains (receiver >>= fun obtained => pure (function obtained)) bytes (function value) := by
  have both : Obtains (receiver >>= fun obtained => pure (function obtained)) (bytes ++ [])
      (function value) := obtains.bind (obtains_pure (function value))
  rw [List.append_nil] at both
  exact both

theorem obtains_recvAll (legal : transport.Legal) (bytes : List UInt8) :
    Obtains (recvAll transport bytes.length) bytes (1, bytes) := by
  intro rest calls
  obtain ⟨later, got⟩ := recvAll_legal legal bytes.length { stream := bytes ++ rest, calls := calls }
    (by rw [List.length_append]; omega)
  refine ⟨later, got.trans ?_⟩
  rw [List.take_left, List.drop_left]

/-- `socket_get` gets all it is asked for, also if that is nothing. -/
theorem obtains_socketGet (legal : transport.Legal) (bytes : List UInt8) :
    Obtains (socketGet transport bytes.length) bytes (some bytes) := by
  unfold socketGet
  split
  · exact (obtains_recvAll legal bytes).map fun pair : Int × List UInt8 =>
      if pair.1 < 1 then none else some pair.2
  · rename_i empty
    obtain rfl := List.length_eq_zero_iff.mp (not_not.mp empty)
    exact obtains_pure (some [])

theorem obtains_receiveHeader (legal : transport.Legal) (code : UInt8) :
    Obtains (receiveHeader transport) [code] code := by
  apply Obtains.bind (obtains_socketGet legal [code])
  exact obtains_pure code

/-- `receive_payload` receives as many bytes as the length in front of them says. -/
theorem obtains_receivePayload (legal : transport.Legal) {payload : Buffer}
    (wellFormed : payload.offset.toNat ≤ payload.stream.length) :
    Obtains (receivePayload transport) (ofWord payload.offset ++ payload.contents)
      (some (createBuffer payload.contents)) := by
  have size : (toWord (ofWord payload.offset)).toNat = payload.contents.length := by
    rw [toWord_ofWord, Buffer.contents, List.length_take, Nat.min_eq_left wellFormed]
  apply Obtains.bind (obtains_socketGet legal (ofWord payload.offset))
  have stream := (obtains_socketGet legal payload.contents).map (Option.map createBuffer)
  rw [← size] at stream
  exact stream

/-! ### Sequences of messages -/

theorem socketSend_stream (legal : transport.Legal) (data : List UInt8) (connection : Connection) :
    (socketSend transport data connection).stream = connection.stream ++ data := by
  obtain ⟨calls, sent⟩ := sendAll_legal legal data connection
  rw [socketSend, sent]

/-- Sending a message sends its bytes. -/
theorem send_stream (legal : transport.Legal) (frame : Frame) (connection : Connection) :
    (frame.send transport connection).stream = connection.stream ++ frame.bytes := by
  cases frame with
  | header code => exact socketSend_stream legal [code] connection
  | package whole =>
      calc (sendPackage transport whole connection).stream
          = connection.stream ++ [whole.header] ++ ofWord whole.payload.offset ++
              whole.payload.contents := by
            simp only [sendPackage, sendHeader, socketSend_stream legal]
        _ = connection.stream ++ whole.bytes := by
            rw [Package.bytes, List.append_assoc, List.append_assoc, List.singleton_append]

theorem sendFrames_stream (legal : transport.Legal) (frames : List Frame)
    (connection : Connection) :
    (sendFrames transport frames connection).stream =
      connection.stream ++ frames.flatMap Frame.bytes := by
  induction frames generalizing connection with
  | nil => simp [sendFrames]
  | cons frame frames ih =>
      change (sendFrames transport frames (frame.send transport connection)).stream = _
      rw [ih, send_stream legal, List.flatMap_cons, List.append_assoc]

theorem obtains_receiveFrame (legal : transport.Legal) {frame : Frame}
    (wellFormed : frame.WellFormed) :
    Obtains (receiveFrame transport frame.isPackage) frame.bytes frame.received := by
  cases frame with
  | header code => exact (obtains_receiveHeader legal code).map fun header => (header, none)
  | package whole =>
      apply (obtains_receiveHeader legal whole.header).bind
      exact (obtains_receivePayload legal wellFormed).map fun payload =>
        (whole.header, some payload)

theorem obtains_receiveFrames (legal : transport.Legal) {frames : List Frame}
    (wellFormed : ∀ frame ∈ frames, frame.WellFormed) :
    Obtains (receiveFrames transport (frames.map Frame.isPackage)) (frames.flatMap Frame.bytes)
      (frames.map Frame.received) := by
  induction frames with
  | nil => exact obtains_pure []
  | cons frame frames ih =>
      rw [List.map_cons, List.map_cons, List.flatMap_cons]
      apply (obtains_receiveFrame legal (wellFormed frame List.mem_cons_self)).bind
      exact (ih fun other member => wellFormed other (List.mem_cons_of_mem _ member)).map
        (frame.received :: ·)

end Framing

/-- Headers and packages arrive as they were sent, and nothing is left unread, for every sequence of
    them and however the transport splits the bytes. -/
theorem stream_framing (transport : Transport) (legal : transport.Legal) (frames : List Frame)
    (wellFormed : ∀ frame ∈ frames, frame.WellFormed) (calls : Nat) :
    ∃ later,
      receiveFrames transport (frames.map Frame.isPackage)
          (sendFrames transport frames { stream := [], calls := calls }) =
        some (frames.map Frame.received, { stream := [], calls := later }) := by
  have sent := sendFrames_stream legal frames { stream := [], calls := calls }
  obtain ⟨later, got⟩ := obtains_receiveFrames legal wellFormed []
    (sendFrames transport frames { stream := [], calls := calls }).calls
  refine ⟨later, Eq.trans ?_ got⟩
  rw [List.append_nil]
  rw [List.nil_append] at sent
  rw [← sent]

/-- A transport that alternates between single bytes and all that it is asked for. -/
def alternating : Transport := fun call size =>
  if call % 2 = 0 then min (size : Int) 1 else min (size : Int) (2 ^ 31 - 1)

theorem alternating_legal : alternating.Legal := by
  intro call size positive
  unfold alternating
  split <;> omega

/-- An empty package, a bare header and a package of five bytes. -/
def threeFrames : List Frame :=
  [.package { header := 10, payload := createBuffer [] }, .header 3,
    .package { header := 34, payload := { offset := 5, stream := [1, 2, 3, 4, 5, 6, 7] } }]

theorem stream_framing_threeFrames :
    ∃ later, receiveFrames alternating [true, false, true]
        (sendFrames alternating threeFrames { stream := [], calls := 0 }) =
      some ([(10, some (some (createBuffer []))), (3, none),
        (34, some (some (createBuffer [1, 2, 3, 4, 5])))], { stream := [], calls := later }) :=
  stream_framing alternating alternating_legal threeFrames
    (by simp [threeFrames, Frame.WellFormed, createBuffer]) 0

end OsSimulator
