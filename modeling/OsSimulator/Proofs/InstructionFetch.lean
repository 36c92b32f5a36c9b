/-
Module: OsSimulator.Proofs.InstructionFetch
Purpose: Which line `get_instruction_from_file` returns.  It reads every line up to the one it is asked for
  into the block that `string_new` made for an empty string, and at the end of the file the last line
  stays there.
Main exports: FetchesLine, FitsBlock, Answered, readLines_eq, fetchesLine_iff
-/
import OsSimulator.Lib.Lines
import OsSimulator.Memory.Instructions
import OsSimulator.Proofs.RoundTrip

namespace OsSimulator

open Lines

/-! ### What a fetch has to return -/

/-- The call returns, with the line of the counter if the file has it, and else with no line of the
    file. -/
def FetchesLine (stringNew : Nat) (file : List UInt8) (programCounter : Int32) : Prop :=
  ∃ instruction,
    getInstructionFromFile stringNew (some file) programCounter = some instruction ∧
      match (lines newline file)[programCounter.toInt.toNat]? with
      | some line => cBytes instruction = line
      | none => ∀ line ∈ lines newline file, cBytes instruction ≠ line

/-- The first lines have room in the block, each with its break and a NUL; the last line of the file may
    have no break. -/
def FitsBlock (stringNew : Nat) (file : List UInt8) (count : Nat) : Prop :=
  ∀ index < count, ∀ line ∈ (lines newline file)[index]?,
    line.length + 2 ≤ stringNew ∨
      line.length + 1 ≤ stringNew ∧ index + 1 = (lines newline file).length ∧
        file.getLast? ≠ some newline

/-- The bytes of a line that are a C string. -/
def beforeNul (line : List UInt8) : List UInt8 := line.takeWhile (· ≠ 0)

/-- The file has a line for the counter, and no NUL in it; or it has none, and the C string of its last line
    is not one of its lines. -/
def Answered (file : List UInt8) (counter : Nat) : Prop :=
  match (lines newline file)[counter]? with
  | some line => 0 ∉ line
  | none => beforeNul ((lines newline file).getLastD []) ∉ lines newline file

/-! ### The loop -/

/-- The bytes of the C string that is returned. -/
def fetchedText (stored : List UInt8) : List UInt8 := beforeNul (stored.takeWhile (· ≠ newline))

variable {stringNew : Nat} {file line rest stored : List UInt8} {count counter : Nat}

theorem beforeNul_eq_self_iff : beforeNul line = line ↔ 0 ∉ line := by
  rw [beforeNul, List.takeWhile_eq_self_iff]
  constructor
  · intro all member
    simpa using all 0 member
  · intro free byte member
    simpa using fun isNul : byte = 0 => free (isNul ▸ member)

theorem readLines_nil (count : Nat) (line : List UInt8) :
    readLines stringNew count line [] = some line := by
  induction count with
  | zero => rfl
  | succ count ih => exact ih

theorem readLines_step {next : List UInt8} (read : fgets file = some (next, rest)) (count : Nat)
    (line : List UInt8) :
    readLines stringNew (count + 1) line file =
      if next.length < stringNew then readLines stringNew count next rest else none := by
  rw [readLines, read]

/-- A line that `fgets` has no room for does not fit the block either. -/
theorem readLines_long (small : stringNew < 1024) (free : newline ∉ line)
    (long : 1023 ≤ line.length) (count : Nat) (before : List UInt8) :
    readLines stringNew (count + 1) before (line ++ rest) = none := by
  have first : (line ++ rest).take 1023 = line.take 1023 := List.take_append_of_le_length long
  have nonempty : line ++ rest ≠ [] := by
    rintro empty
    rw [(List.append_eq_nil_iff.mp empty).1] at long
    exact absurd long (by decide)
  have read : fgets (line ++ rest) = some _ :=
    readLine_long (by rw [first]; exact fun member => free (List.mem_of_mem_take member)) nonempty
  rw [readLines_step read, if_neg]
  rw [first, List.length_take, Nat.min_eq_left long]
  omega

theorem fitsBlock_last (free : newline ∉ line) (nonempty : line ≠ []) (count : Nat) :
    FitsBlock stringNew line (count + 1) ↔ line.length < stringNew := by
  have noBreak : line.getLast? ≠ some newline := fun isBreak => free (List.mem_of_getLast? isBreak)
  rw [FitsBlock, lines_last free nonempty]
  constructor
  · intro fits
    rcases fits 0 (Nat.succ_pos count) line rfl with fits | ⟨fits, _⟩
    · exact Nat.lt_of_succ_lt fits
    · exact fits
  · intro fits index _ other isLine
    cases index with
    | zero =>
        obtain rfl := Option.some.inj isLine
        exact .inr ⟨fits, rfl, noBreak⟩
    | succ index => cases isLine

theorem fitsBlock_cons (free : newline ∉ line) (rest : List UInt8) (count : Nat) :
    FitsBlock stringNew (line ++ newline :: rest) (count + 1) ↔
      line.length + 2 ≤ stringNew ∧ FitsBlock stringNew rest count := by
  have ends : (lines newline rest) ≠ [] →
      (line ++ newline :: rest).getLast? = rest.getLast? := by
    intro more
    obtain ⟨byte, isLast⟩ := Option.ne_none_iff_exists'.mp
      (mt List.getLast?_eq_none_iff.mp (mt lines_eq_nil_iff.mpr more))
    rw [List.append_cons, List.getLast?_append, isLast]
    rfl
  have broken : lines newline rest = [] → (line ++ newline :: rest).getLast? = some newline := by
    intro none
    rw [lines_eq_nil_iff.mp none]
    exact List.getLast?_concat
  rw [FitsBlock, lines_cons free, Nat.forall_lt_succ_left]
  simp only [List.getElem?_cons_zero, List.getElem?_cons_succ, Option.mem_some_iff, forall_eq',
    List.length_cons, Nat.add_right_cancel_iff]
  apply and_congr
  · constructor
    · rintro (fits | ⟨_, isLast, noBreak⟩)
      · exact fits
      · exact absurd (broken (List.length_eq_zero_iff.mp isLast.symm)) noBreak
    · exact .inl
  · apply forall₂_congr
    intro index _
    apply forall₂_congr
    intro other isLine
    have more : lines newline rest ≠ [] := by
      intro none
      rw [none] at isLine
      cases isLine
    rw [ends more]

/-- What the loop has stored when it ends: the line of the counter, or the last one; and it ends if and only
    if the lines that it reads fit the block. -/
theorem readLines_eq (small : stringNew < 1024) (nonempty : file ≠ []) (counter : Nat)
    (before : List UInt8) :
    (FitsBlock stringNew file (counter + 1) →
        ∃ stored, readLines stringNew (counter + 1) before file = some stored ∧
          fetchedText stored = beforeNul
            ((lines newline file)[counter]?.getD ((lines newline file).getLastD []))) ∧
      (¬ FitsBlock stringNew file (counter + 1) →
        readLines stringNew (counter + 1) before file = none) := by
  induction file using Lines.induction newline generalizing counter before with
  | nil => exact absurd rfl nonempty
  | last line free _ =>
      rw [fitsBlock_last free nonempty, lines_last free nonempty]
      by_cases long : 1023 ≤ line.length
      · have overrun : readLines stringNew (counter + 1) before (line ++ []) = none :=
          readLines_long small free long counter before
        rw [List.append_nil] at overrun
        exact ⟨fun fits => absurd fits (by omega), fun _ => overrun⟩
      · have read : fgets line = some (line, []) := readLine_last free nonempty (by omega)
        rw [readLines_step read, readLines_nil]
        constructor
        · intro fits
          refine ⟨line, if_pos fits, ?_⟩
          rw [fetchedText, takeWhile_free free]
          cases counter <;> rfl
        · exact fun tooLong => if_neg tooLong
  | cons line rest free ih =>
      rw [fitsBlock_cons free, lines_cons free]
      by_cases long : 1023 ≤ line.length
      · exact ⟨fun fits => absurd fits.1 (by omega), fun _ =>
          readLines_long small free long counter before⟩
      · have read : fgets (line ++ newline :: rest) = some (line ++ [newline], rest) :=
          readLine_fits free (by omega) rest
        have text : fetchedText (line ++ [newline]) = beforeNul line := by
          rw [fetchedText, takeWhile_newline free]
        rw [readLines_step read, List.length_append, List.length_singleton]
        cases counter with
        | zero =>
            constructor
            · intro fits
              exact ⟨line ++ [newline], if_pos fits.1, text⟩
            · intro tooLong
              exact if_neg fun fits => tooLong ⟨fits, fun _ below => absurd below (Nat.not_lt_zero _)⟩
        | succ counter =>
            by_cases isLast : rest = []
            · subst isLast
              rw [readLines_nil]
              constructor
              · intro fits
                exact ⟨line ++ [newline], if_pos fits.1, text⟩
              · intro tooLong
                refine if_neg fun fits => tooLong ⟨fits, ?_⟩
                intro index _ other isLine
                cases isLine
            · obtain ⟨stores, overruns⟩ := ih isLast counter (line ++ [newline])
              have more : lines newline rest ≠ [] := mt lines_eq_nil_iff.mp isLast
              constructor
              · rintro ⟨fits, others⟩
                obtain ⟨stored, read, same⟩ := stores others
                refine ⟨stored, (if_pos fits).trans read, ?_⟩
                rw [same, List.getElem?_cons_succ, List.getLastD_cons]
                rw [List.getLastD_eq_getLast?, List.getLastD_eq_getLast?,
                  List.getLast?_eq_some_getLast more]
                rfl
              · intro tooLong
                by_cases fits : line.length + 1 < stringNew
                · rw [if_pos fits]
                  exact overruns fun others => tooLong ⟨fits, others⟩
                · exact if_neg fits

/-! ### The function -/

/-- For the last `int` the loop does not end. -/
theorem fetchesLine_iff_readLines {programCounter : Int32} (counts : 0 ≤ programCounter) :
    FetchesLine stringNew file programCounter ↔
      programCounter ≠ Int32.maxValue ∧
        ∃ stored, readLines stringNew (programCounter.toInt.toNat + 1) [] file = some stored ∧
          match (lines newline file)[programCounter.toInt.toNat]? with
          | some line => fetchedText stored = line
          | none => ∀ line ∈ lines newline file, fetchedText stored ≠ line := by
  have nonneg : 0 ≤ programCounter.toInt := Int32.le_iff_toInt_le.mp counts
  have isLast : programCounter.toInt = 2 ^ 31 - 1 ↔ programCounter = Int32.maxValue :=
    Int32.toInt_inj (y := Int32.maxValue)
  have turns : (programCounter.toInt + 1).toNat = programCounter.toInt.toNat + 1 := by omega
  rw [FetchesLine, getInstructionFromFile]
  simp only [Option.bind_eq_bind, Option.bind_some, isLast, turns]
  by_cases never : programCounter = Int32.maxValue
  · simp [never]
  · simp only [if_neg never, Option.bind_eq_some_iff, Option.pure_def, Option.some.injEq]
    refine ⟨?_, ?_⟩
    · rintro ⟨instruction, ⟨stored, read, rfl⟩, right⟩
      rw [cBytes_ofCBytes] at right
      exact ⟨never, stored, read, right⟩
    · rintro ⟨_, stored, read, right⟩
      refine ⟨_, ⟨stored, read, rfl⟩, ?_⟩
      rw [cBytes_ofCBytes]
      exact right

/-- One fetch is right if and only if its loop ends, nothing is read or the lines that are read fit the block
    that `string_new` made, and the file answers the counter. -/
theorem fetchesLine_iff (stringNew : Nat) (file : List UInt8) (programCounter : Int32)
    (small : stringNew < 1024) (counts : 0 ≤ programCounter) :
    FetchesLine stringNew file programCounter ↔
      programCounter ≠ Int32.maxValue ∧
        (file = [] ∨ FitsBlock stringNew file (programCounter.toInt.toNat + 1) ∧
          Answered file programCounter.toInt.toNat) := by
  rw [fetchesLine_iff_readLines counts]
  apply and_congr_right
  intro _
  by_cases empty : file = []
  · subst empty
    rw [readLines_nil]
    simp
  · simp only [empty, false_or]
    obtain ⟨stores, overruns⟩ := readLines_eq small empty programCounter.toInt.toNat []
    by_cases fits : FitsBlock stringNew file (programCounter.toInt.toNat + 1)
    · obtain ⟨stored, read, text⟩ := stores fits
      simp only [read, Option.some.injEq, exists_eq_left', fits, true_and, text, Answered]
      cases (lines newline file)[programCounter.toInt.toNat]? with
      | some line => exact beforeNul_eq_self_iff
      | none =>
          rw [Option.getD_none]
          exact ⟨fun others member => others _ member rfl, fun others line member same =>
            others (same ▸ member)⟩
    · simp only [overruns fits, fits, false_and, reduceCtorEq, exists_false]

/-- The second of two lines, behind one with a NUL, in a block of 24 bytes. -/
theorem fetchesLine_iff_second :
    FetchesLine 24 (cBytes "SET" ++ 0 :: cBytes " AX\nEXIT") 1 ↔
      (1 : Int32) ≠ Int32.maxValue ∧
        (cBytes "SET" ++ 0 :: cBytes " AX\nEXIT" = [] ∨
          FitsBlock 24 (cBytes "SET" ++ 0 :: cBytes " AX\nEXIT") ((1 : Int32).toInt.toNat + 1) ∧
            Answered (cBytes "SET" ++ 0 :: cBytes " AX\nEXIT") (1 : Int32).toInt.toNat) :=
  fetchesLine_iff 24 _ 1 (by decide) (by decide)

/-- A file of one line, and the counter after it. -/
theorem last_line_again : ¬ FetchesLine 24 (cBytes "SET AX 1") 1 := by
  rintro ⟨instruction, returned, others⟩
  have again : getInstructionFromFile 24 (some (cBytes "SET AX 1")) 1 = some "SET AX 1" := by
    decide
  rw [again] at returned
  obtain rfl := Option.some.inj returned
  exact others (cBytes "SET AX 1") (by decide) rfl

end OsSimulator
