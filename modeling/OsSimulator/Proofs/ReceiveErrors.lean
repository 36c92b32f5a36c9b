/-
Module: OsSimulator.Proofs.ReceiveErrors
Purpose: `recv_all` when `recv` fails.  As a `size_t` the result -1 is the largest number, not one
  below 1: the loop takes one byte back from the destination, adds one to the size, and goes on.
Main exports: WithoutError, ReceivesExactly, receivesExactly_iff, recvAll_refines
-/
import OsSimulator.Shared.Receiving
import OsSimulator.Shared.Sockets

namespace OsSimulator

/-- Every result of a call is -1, 0 or a number of bytes that it was asked for. -/
def LegalResults (calls : List RecvCall) : Prop :=
  ∀ call ∈ calls, -1 ≤ call.received.toInt ∧ call.received.toInt ≤ call.asked.toNat

/-- No `recv` fails while bytes are missing and the connection is not closed. -/
def WithoutError : Int → List Int64 → Prop
  | _, [] => True
  | missing, result :: results =>
      missing ≤ 0 ∨ result = 0 ∨ 0 < result ∧ WithoutError (missing - result.toInt) results

/-- What is received goes where it should, no more is asked for than is missing, 1 is returned for all
    the bytes and for nothing else, and the first result that is no number of bytes ends it. -/
structure ReceivesExactly (size : UInt64) (results : List Int64) : Prop where
  inside : ∀ call ∈ (recvAllRun 0 size results).1, 0 < call.received →
    (call.offset.toNat : Int) + call.received.toInt ≤ size.toNat
  asksMissing : ∀ before call after, (recvAllRun 0 size results).1 = before ++ call :: after →
    (call.asked.toNat : Int) ≤ size.toNat - receivedBytes before
  returnsOne : (recvAllRun 0 size results).2 = some 1 ↔
    receivedBytes (recvAllRun 0 size results).1 = size.toNat
  stops : ∀ before call after, (recvAllRun 0 size results).1 = before ++ call :: after →
    call.received ≤ 0 → after = [] ∧ socketGetRun size results = some false

/-! ### One turn of the loop -/

variable {offset size : UInt64} {result : Int64} {results : List Int64}

theorem recvAllRun_of_zero (zero : size = 0) : recvAllRun offset size results = ([], some 1) := by
  subst zero
  cases results <;> rfl

/-- The connection is closed. -/
theorem recvAllRun_closed (missing : 0 < size) :
    recvAllRun offset size (0 :: results) =
      ([{ offset := offset, asked := size, received := 0 }], some 0) := by
  rw [recvAllRun, if_pos missing]
  rfl

/-- Any other result, also the error, is taken for a number of bytes. -/
theorem recvAllRun_goes_on (missing : 0 < size) (nonzero : result ≠ 0) :
    recvAllRun offset size (result :: results) =
      ({ offset := offset, asked := size, received := result } ::
          (recvAllRun (offset + result.toUInt64) (size - result.toUInt64) results).1,
        (recvAllRun (offset + result.toUInt64) (size - result.toUInt64) results).2) := by
  have positive : ¬ result.toUInt64 ≤ 0 := by
    intro none_
    apply nonzero
    have zero : result.toUInt64 = 0 := UInt64.le_antisymm none_ (UInt64.zero_le)
    rw [← Int64.toInt64_toUInt64 result, zero]
    rfl
  rw [recvAllRun, if_pos missing]
  simp only [if_neg positive]

/-- A loop that makes no call has nothing to receive, or waits for its first result. -/
theorem returned_of_no_call (noCall : (recvAllRun offset size results).1 = []) :
    (recvAllRun offset size results).2 = none ∨ (recvAllRun offset size results).2 = some 1 := by
  cases results with
  | nil =>
      rw [recvAllRun]
      split
      · exact .inl rfl
      · exact .inr rfl
  | cons result results =>
      by_cases missing : 0 < size
      · by_cases closed : result = 0
        · rw [closed, recvAllRun_closed missing] at noCall
          cases noCall
        · rw [recvAllRun_goes_on missing closed] at noCall
          cases noCall
      · rw [recvAllRun, if_neg missing]
        exact .inr rfl

theorem eq_zero_of_not_missing (nothing : ¬ 0 < size) : size = 0 := by
  apply UInt64.toNat_inj.mp
  rw [UInt64.lt_iff_toNat_lt] at nothing
  exact Nat.eq_zero_of_not_pos nothing

/-- A number of bytes is the same number as a `size_t`. -/
theorem toNat_received (positive : 0 < result) : (result.toUInt64.toNat : Int) = result.toInt := by
  have nonneg : 0 ≤ result.toInt := Int.le_of_lt (Int64.lt_iff_toInt_lt.mp positive)
  rw [Int64.toNat_toUInt64_of_le (Int64.le_iff_toInt_le.mpr nonneg)]
  exact Int.toNat_of_nonneg nonneg

/-- Less is missing after a number of bytes that was asked for. -/
theorem toNat_missing (positive : 0 < result) (asked : result.toInt ≤ size.toNat) :
    ((size - result.toUInt64).toNat : Int) = size.toNat - result.toInt := by
  have same := toNat_received positive
  have fits : result.toUInt64 ≤ size := by
    rw [UInt64.le_iff_toNat_le]
    omega
  rw [UInt64.toNat_sub_of_le _ _ fits, ← same]
  have := UInt64.le_iff_toNat_le.mp fits
  omega

/-- The destination stays where the received bytes end. -/
theorem toNat_offset (positive : 0 < result) (asked : result.toInt ≤ size.toNat)
    (room : offset.toNat + size.toNat < 2 ^ 64) :
    ((offset + result.toUInt64).toNat : Int) = offset.toNat + result.toInt := by
  have same := toNat_received positive
  rw [UInt64.toNat_add, Nat.mod_eq_of_lt (by omega)]
  omega

theorem receivedBytes_cons (call : RecvCall) (calls : List RecvCall) :
    receivedBytes (call :: calls) = max 0 call.received.toInt + receivedBytes calls := by
  rw [receivedBytes, List.map_cons, List.sum_cons]
  rfl

/-! ### Without an error -/

/-- The loop does what it should from this turn on. -/
structure Continues (offset size : UInt64) (results : List Int64) : Prop where
  inside : ∀ call ∈ (recvAllRun offset size results).1, 0 < call.received →
    (call.offset.toNat : Int) + call.received.toInt ≤ offset.toNat + size.toNat
  asksMissing : ∀ before call after,
    (recvAllRun offset size results).1 = before ++ call :: after →
      (call.asked.toNat : Int) ≤ size.toNat - receivedBytes before
  returnsOne : (recvAllRun offset size results).2 = some 1 ↔
    receivedBytes (recvAllRun offset size results).1 = size.toNat
  stops : ∀ before call after, (recvAllRun offset size results).1 = before ++ call :: after →
    call.received ≤ 0 → after = [] ∧ (recvAllRun offset size results).2 = some 0

theorem Continues.done : Continues offset 0 results := by
  have ended : recvAllRun offset 0 results = ([], some 1) := recvAllRun_of_zero rfl
  constructor
  · simp [ended]
  · simp [ended]
  · simp [ended, receivedBytes]
  · simp [ended]

theorem Continues.closed (missing : 0 < size) : Continues offset size (0 :: results) := by
  have ended : recvAllRun offset size (0 :: results) =
      ([{ offset := offset, asked := size, received := 0 }], some 0) := recvAllRun_closed missing
  have some_missing : (0 : Int) ≠ size.toNat := by
    have positive := UInt64.lt_iff_toNat_lt.mp missing
    rw [UInt64.toNat_zero] at positive
    omega
  constructor
  · simp [ended]
  · intro before call after calls
    rw [ended] at calls
    cases before with
    | nil =>
        obtain ⟨rfl, rfl⟩ := List.cons.inj calls
        exact Int.le_of_eq (Int.sub_zero _).symm
    | cons first before => simp at calls
  · simp [ended, receivedBytes, some_missing]
  · intro before call after calls _
    rw [ended] at calls ⊢
    cases before with
    | nil =>
        obtain ⟨rfl, rfl⟩ := List.cons.inj calls
        exact ⟨rfl, rfl⟩
    | cons first before => simp at calls

/-- After a number of bytes that was asked for, the loop goes on with what is still missing. -/
theorem Continues.received (positive : 0 < result) (missing : 0 < size)
    (asked : result.toInt ≤ size.toNat) (room : offset.toNat + size.toNat < 2 ^ 64)
    (continues : Continues (offset + result.toUInt64) (size - result.toUInt64) results) :
    Continues offset size (result :: results) := by
  have turned : recvAllRun offset size (result :: results) = _ :=
    recvAllRun_goes_on missing (Int64.ne_of_lt positive).symm
  have left := toNat_missing positive asked
  have behind := toNat_offset positive asked room
  have counted : max 0 result.toInt = result.toInt :=
    max_eq_right (Int.le_of_lt (Int64.lt_iff_toInt_lt.mp positive))
  constructor
  · intro call member isPositive
    rw [turned] at member
    rcases List.mem_cons.mp member with rfl | later
    · dsimp only
      omega
    · have := continues.inside call later isPositive
      omega
  · intro before call after calls
    rw [turned] at calls
    cases before with
    | nil =>
        obtain ⟨rfl, rfl⟩ := List.cons.inj calls
        exact Int.le_of_eq (Int.sub_zero _).symm
    | cons first before =>
        obtain ⟨rfl, rest⟩ := List.cons.inj calls
        have := continues.asksMissing before call after rest
        rw [receivedBytes_cons, counted]
        omega
  · rw [turned, receivedBytes_cons, counted, continues.returnsOne]
    omega
  · intro before call after calls isNone
    rw [turned] at calls ⊢
    cases before with
    | nil =>
        obtain ⟨rfl, rfl⟩ := List.cons.inj calls
        exact absurd positive (Int64.not_lt.mpr isNone)
    | cons first before =>
        obtain ⟨rfl, rest⟩ := List.cons.inj calls
        exact continues.stops before call after rest isNone

theorem continues_of_withoutError (room : offset.toNat + size.toNat < 2 ^ 64)
    (legal : LegalResults (recvAllRun offset size results).1)
    (fine : WithoutError size.toNat results) : Continues offset size results := by
  induction results generalizing offset size with
  | nil =>
      by_cases missing : 0 < size
      · have waits : recvAllRun offset size [] = ([], none) := if_pos missing
        have some_missing : (0 : Int) ≠ size.toNat := by
          have := UInt64.lt_iff_toNat_lt.mp missing
          rw [UInt64.toNat_zero] at this
          omega
        constructor
        · simp [waits]
        · simp [waits]
        · simp [waits, receivedBytes, some_missing]
        · simp [waits]
      · obtain rfl := eq_zero_of_not_missing missing
        exact .done
  | cons result results ih =>
      by_cases missing : 0 < size
      · have positive := UInt64.lt_iff_toNat_lt.mp missing
        rw [UInt64.toNat_zero] at positive
        rcases fine with nothing | rfl | ⟨isNumber, fine⟩
        · omega
        · exact .closed missing
        · rw [recvAllRun_goes_on missing (Int64.ne_of_lt isNumber).symm] at legal
          have asked : result.toInt ≤ size.toNat := (legal _ List.mem_cons_self).2
          have left := toNat_missing isNumber asked
          have behind := toNat_offset isNumber asked room
          apply Continues.received isNumber missing asked room
          apply ih
          · omega
          · exact fun call member => legal call (List.mem_cons_of_mem _ member)
          · rw [left]
            exact fine
      · obtain rfl := eq_zero_of_not_missing missing
        exact .done

/-! ### With an error -/

/-- An error that comes while bytes are missing is not the last thing that happens, or is followed by
    the return of 1. -/
theorem error_goes_on (legal : LegalResults (recvAllRun offset size results).1)
    (fails : ¬ WithoutError size.toNat results) :
    ∃ before call after, (recvAllRun offset size results).1 = before ++ call :: after ∧
      call.received ≤ 0 ∧
      (after = [] → (recvAllRun offset size results).2 = none ∨
        (recvAllRun offset size results).2 = some 1) := by
  induction results generalizing offset size with
  | nil => exact absurd trivial fails
  | cons result results ih =>
      rw [WithoutError, not_or, not_or, not_and] at fails
      obtain ⟨missing, nonzero, later⟩ := fails
      have positive : 0 < size := by
        rw [UInt64.lt_iff_toNat_lt, UInt64.toNat_zero]
        omega
      rw [recvAllRun_goes_on positive nonzero] at legal ⊢
      by_cases isNumber : 0 < result
      · have left := toNat_missing isNumber (legal _ List.mem_cons_self).2
        obtain ⟨before, call, after, calls, isNone, ends⟩ := ih
          (fun call member => legal call (List.mem_cons_of_mem _ member))
          (by rw [left]; exact later isNumber)
        exact ⟨_ :: before, call, after, congrArg (List.cons _) calls, isNone, ends⟩
      · exact ⟨[], _, _, rfl, Int64.not_lt.mp isNumber, returned_of_no_call⟩

/-- Whatever `recv` returns, receiving is exact if and only if no `recv` fails while bytes are missing
    and the connection is not closed. -/
theorem receivesExactly_iff (size : UInt64) (results : List Int64)
    (legal : LegalResults (recvAllRun 0 size results).1) :
    ReceivesExactly size results ↔ WithoutError size.toNat results := by
  constructor
  · intro exactly
    by_contra fails
    obtain ⟨before, call, after, calls, isNone, ends⟩ := error_goes_on legal fails
    obtain ⟨isLast, stopped⟩ := exactly.stops before call after calls isNone
    have nonzero : size ≠ 0 := by
      rintro rfl
      rw [recvAllRun_of_zero rfl] at calls
      simp at calls
    rw [socketGetRun, if_pos nonzero] at stopped
    rcases ends isLast with waits | one
    · rw [waits] at stopped
      cases stopped
    · rw [one] at stopped
      exact absurd stopped (by decide)
  · intro fine
    have room : (0 : UInt64).toNat + size.toNat < 2 ^ 64 := by
      rw [UInt64.toNat_zero, Nat.zero_add]
      exact size.toNat_lt
    have continues := continues_of_withoutError room legal fine
    refine ⟨?_, continues.asksMissing, continues.returnsOne, ?_⟩
    · simpa using continues.inside
    · intro before call after calls isNone
      obtain ⟨isLast, stopped⟩ := continues.stops before call after calls isNone
      have nonzero : size ≠ 0 := by
        rintro rfl
        rw [recvAllRun_of_zero rfl] at calls
        simp at calls
      rw [socketGetRun, if_pos nonzero, stopped]
      exact ⟨isLast, rfl⟩

/-! ### The two models of `recv_all` -/

theorem recv_eq_some {transport : Transport} {asked : Nat} {connection later : Connection}
    {received : Int} {bytes : List UInt8}
    (got : recv transport asked connection = some ((received, bytes), later)) :
    received = transport connection.calls asked ∧ 0 ≤ received ∧ received ≤ asked ∧
      (bytes.length : Int) = received ∧ later.calls = connection.calls + 1 := by
  unfold recv at got
  simp only at got
  split at got
  · rename_i fits
    obtain ⟨pair, rfl⟩ := Prod.mk.inj (Option.some.inj got)
    obtain ⟨rfl, rfl⟩ := Prod.mk.inj pair
    refine ⟨rfl, fits.1, fits.2.1, ?_, rfl⟩
    rw [List.length_take]
    omega
  · cases got

/-- One turn on a connection that works: it is closed, or some bytes are received. -/
theorem recvLoop_turn {transport : Transport} {turns missing : Nat} {connection later : Connection}
    {value : Int} {bytes : List UInt8}
    (ran : recvAll.loop transport (turns + 1) (missing + 1) connection =
      some ((value, bytes), later)) :
    (transport connection.calls (missing + 1) = 0 ∧ value = 0 ∧ bytes = [] ∧
      connection.calls + 1 = later.calls) ∨
    ∃ received first rest middle, 0 < received ∧ received ≤ missing + 1 ∧
      transport connection.calls (missing + 1) = (received : Nat) ∧
      bytes = first ++ rest ∧ first.length = received ∧ middle.calls = connection.calls + 1 ∧
      recvAll.loop transport turns (missing + 1 - received) middle = some ((value, rest), later) := by
  have turn : (recv transport (missing + 1) connection).bind (fun pair =>
      (if pair.1.1 ≤ 0 then pure (pair.1.1, []) else do
        let later ← recvAll.loop transport turns (missing + 1 - pair.1.1.toNat)
        return (later.1, pair.1.2 ++ later.2) : Receiver (Int × List UInt8)) pair.2) =
      some ((value, bytes), later) := ran
  obtain ⟨⟨⟨received, first⟩, middle⟩, got, rest⟩ := Option.bind_eq_some_iff.mp turn
  obtain ⟨rfl, nonneg, fits, stored, counted⟩ := recv_eq_some got
  dsimp only at rest
  split at rest
  · rename_i closed
    obtain ⟨pair, rfl⟩ := Prod.mk.inj (Option.some.inj rest)
    obtain ⟨rfl, rfl⟩ := Prod.mk.inj pair
    exact .inl ⟨Int.le_antisymm closed nonneg, Int.le_antisymm closed nonneg, rfl, counted.symm⟩
  · obtain ⟨⟨⟨last, restBytes⟩, after⟩, looped, ended⟩ := Option.bind_eq_some_iff.mp rest
    obtain ⟨pair, rfl⟩ := Prod.mk.inj (Option.some.inj ended)
    obtain ⟨rfl, rfl⟩ := Prod.mk.inj pair
    exact .inr ⟨(transport connection.calls (missing + 1)).toNat, first, restBytes, middle,
      by omega, by omega, by omega, rfl, by omega, counted, looped⟩

/-- A number of bytes that a `recv` returns is that number as an `ssize_t` and as a `size_t`. -/
theorem ofNat_received {received : Nat} (small : received < 2 ^ 63) :
    (Int64.ofNat received).toInt = received ∧
      (Int64.ofNat received).toUInt64 = UInt64.ofNat received :=
  ⟨Int64.toInt_ofNat_of_lt small, Int64.toUInt64_ofNat'⟩

/-- On results of the transport, from one call on, the loop of the machine returns a value before
    another call, with so many bytes received. -/
def MachineReturns (transport : Transport) (offset : UInt64) (missing start : Nat) (value : Int)
    (length later : Nat) : Prop :=
  ∃ results calls returned,
    recvAllRun offset (.ofNat missing) results = (calls, some returned) ∧ returned.toInt = value ∧
    receivedBytes calls = length ∧ start + calls.length = later ∧
    ∀ number call, calls[number]? = some call →
      call.received.toInt = transport (start + number) call.asked.toNat

section

variable {transport : Transport} {turns missing start later length : Nat} {value : Int}

theorem MachineReturns.done {connection final : Connection} {bytes : List UInt8}
    (ran : (pure (1, []) : Receiver (Int × List UInt8)) connection = some ((value, bytes), final)) :
    MachineReturns transport offset 0 connection.calls value bytes.length final.calls := by
  obtain ⟨pair, rfl⟩ := Prod.mk.inj (Option.some.inj ran)
  obtain ⟨rfl, rfl⟩ := Prod.mk.inj pair
  exact ⟨[], [], 1, rfl, rfl, rfl, rfl, by simp⟩

theorem toNat_ofNat_missing (small : missing < 2 ^ 63) :
    (UInt64.ofNat missing).toNat = missing := by
  rw [UInt64.toNat_ofNat']
  exact Nat.mod_eq_of_lt (by omega)

theorem ofNat_missing_pos (small : missing + 1 < 2 ^ 63) : 0 < UInt64.ofNat (missing + 1) := by
  rw [UInt64.lt_iff_toNat_lt, toNat_ofNat_missing small, UInt64.toNat_zero]
  exact Nat.succ_pos _

theorem MachineReturns.closed (small : missing + 1 < 2 ^ 63)
    (answered : transport start (missing + 1) = 0) :
    MachineReturns transport offset (missing + 1) start 0 0 (start + 1) := by
  refine ⟨[0], _, _, recvAllRun_closed (ofNat_missing_pos small), rfl, rfl, rfl, ?_⟩
  intro number call found
  cases number with
  | zero =>
      obtain rfl := Option.some.inj found
      rw [toNat_ofNat_missing small]
      exact answered.symm
  | succ number => cases found

theorem MachineReturns.received {received : Nat} (small : missing + 1 < 2 ^ 63)
    (positive : 0 < received) (fits : received ≤ missing + 1)
    (answered : transport start (missing + 1) = received)
    (rest : MachineReturns transport (offset + (Int64.ofNat received).toUInt64)
      (missing + 1 - received) (start + 1) value length later) :
    MachineReturns transport offset (missing + 1) start value (received + length) later := by
  obtain ⟨results, calls, returned, machine, value_eq, total, counted, answers⟩ := rest
  have inRange : received < 2 ^ 63 := by omega
  obtain ⟨toInt, toSize⟩ := ofNat_received inRange
  have isNumber : 0 < Int64.ofNat received := by
    rw [Int64.lt_iff_toInt_lt, toInt]
    exact Int.natCast_pos.mpr positive
  have left : UInt64.ofNat (missing + 1) - (Int64.ofNat received).toUInt64 =
      UInt64.ofNat (missing + 1 - received) := by
    rw [toSize, UInt64.ofNat_sub fits]
  have turned : recvAllRun offset (UInt64.ofNat (missing + 1)) (Int64.ofNat received :: results) = _ :=
    recvAllRun_goes_on (ofNat_missing_pos small) (Int64.ne_of_lt isNumber).symm
  rw [left, machine] at turned
  refine ⟨_, _, returned, turned, value_eq, ?_, ?_, ?_⟩
  · rw [receivedBytes_cons, total, toInt]
    omega
  · simp only [List.length_cons]
    omega
  · intro number call found
    cases number with
    | zero =>
        obtain rfl := Option.some.inj found
        rw [toInt, toNat_ofNat_missing small]
        exact answered.symm
    | succ number =>
        rw [answers number call found]
        congr 1
        omega

/-- The loop on a connection that works is that of the machine, on the results of its transport. -/
theorem recvLoop_refines {connection final : Connection} {bytes : List UInt8}
    (small : missing < 2 ^ 63)
    (ran : recvAll.loop transport turns missing connection = some ((value, bytes), final)) :
    MachineReturns transport offset missing connection.calls value bytes.length final.calls := by
  induction turns generalizing missing connection bytes offset with
  | zero =>
      cases missing with
      | zero => exact .done ran
      | succ missing => cases ran
  | succ turns ih =>
      cases missing with
      | zero => exact .done ran
      | succ missing =>
          rcases recvLoop_turn ran with ⟨closed, rfl, rfl, counted⟩ |
            ⟨received, first, rest, middle, positive, fits, answered, rfl, stored, counted, looped⟩
          · rw [← counted]
            exact .closed small closed
          · rw [List.length_append, stored]
            apply MachineReturns.received small positive fits answered
            rw [← counted]
            exact ih (by omega) looped

end

/-- `recv_all` on a connection that works is that of the machine, on the results of its transport. -/
theorem recvAll_refines {transport : Transport} {missing : Nat} (small : missing < 2 ^ 63)
    {connection later : Connection} {value : Int} {bytes : List UInt8}
    (ran : recvAll transport missing connection = some ((value, bytes), later)) :
    MachineReturns transport 0 missing connection.calls value bytes.length later.calls :=
  recvLoop_refines small ran

/-- Four bytes in two parts. -/
theorem receivesExactly_iff_twoParts :
    ReceivesExactly 4 [3, 1] ↔ WithoutError 4 [3, 1] :=
  receivesExactly_iff 4 [3, 1] (by unfold LegalResults; decide)

/-- An error before four bytes, which are then stored one byte too early. -/
theorem error_not_received_exactly :
    LegalResults (recvAllRun 0 4 [-1, 5]).1 ∧ ¬ ReceivesExactly 4 [-1, 5] := by
  refine ⟨by unfold LegalResults; decide, fun exactly => ?_⟩
  have call : { offset := -1, asked := 5, received := 5 } ∈ (recvAllRun 0 4 [-1, 5]).1 := by decide
  exact absurd (exactly.inside _ call (by decide)) (by decide)

end OsSimulator
