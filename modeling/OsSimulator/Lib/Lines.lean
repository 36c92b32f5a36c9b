/-
Module: OsSimulator.Lib.Lines
Purpose: The lines of a text, and a reader with a buffer that stores at most so many characters of a line
  at a time.  A text is empty, or a last line without a break, or a line with its break before a text.
Main exports: Lines.lines, Lines.readLine, Lines.induction, Lines.readLine_fits, Lines.readLine_last,
  Lines.readLine_long, Lines.readLine_spec
-/
import Mathlib.Data.List.Basic
import Mathlib.Data.List.TakeWhile

namespace Lines

variable {α : Type} [DecidableEq α]

/-- The lines of a text without their breaks; the last line may have none. -/
def lines (newline : α) : List α → List (List α)
  | [] => []
  | char :: text =>
      if char = newline then
        [] :: lines newline text
      else
        match lines newline text with
        | [] => [[char]]
        | line :: others => (char :: line) :: others

/-- Read a line: what is stored, with the break if it is reached, and the text that is left.  At the end
    of the text nothing is stored. -/
def readLine (newline : α) (limit : Nat) (text : List α) : Option (List α × List α) :=
  if text = [] then
    none
  else
    let first := text.take limit
    let line := first.take ((first.takeWhile (· ≠ newline)).length + 1)
    some (line, text.drop line.length)

variable {newline : α} {limit : Nat} {line text rest : List α}

/-- A property of texts, line by line. -/
@[elab_as_elim]
theorem induction (newline : α) {motive : List α → Prop} (nil : motive [])
    (last : ∀ line, newline ∉ line → line ≠ [] → motive line)
    (cons : ∀ line rest, newline ∉ line → motive rest → motive (line ++ newline :: rest))
    (text : List α) : motive text := by
  by_cases empty : text = []
  · rw [empty]
    exact nil
  · have free : newline ∉ text.takeWhile (· ≠ newline) := by
      intro member
      simpa using List.mem_takeWhile_imp member
    have parts : text.takeWhile (· ≠ newline) ++ text.dropWhile (· ≠ newline) = text :=
      List.takeWhile_append_dropWhile
    cases follows : text.dropWhile (· ≠ newline) with
    | nil =>
        rw [follows, List.append_nil] at parts
        rw [parts] at free
        exact last text free empty
    | cons char rest =>
        have isBreak : char = newline := by
          have first := List.head?_dropWhile_not (· ≠ newline) text
          rw [follows] at first
          simpa using first
        have shorter : rest.length < text.length := by
          rw [← parts, follows, List.length_append, List.length_cons]
          omega
        rw [← parts, follows, isBreak]
        exact cons _ rest free (induction newline nil last cons rest)
termination_by text.length

/-! ### Lines -/

@[simp] theorem lines_nil : lines newline [] = [] := rfl

/-- A last line without a break. -/
theorem lines_last (free : newline ∉ line) (nonempty : line ≠ []) :
    lines newline line = [line] := by
  induction line with
  | nil => exact absurd rfl nonempty
  | cons char line ih =>
      rw [List.mem_cons, not_or] at free
      rw [lines, if_neg (Ne.symm free.1)]
      by_cases empty : line = []
      · rw [empty]
        rfl
      · rw [ih free.2 empty]

theorem lines_cons (free : newline ∉ line) (rest : List α) :
    lines newline (line ++ newline :: rest) = line :: lines newline rest := by
  induction line with
  | nil => rw [List.nil_append, lines, if_pos rfl]
  | cons char line ih =>
      rw [List.mem_cons, not_or] at free
      rw [List.cons_append, lines, if_neg (Ne.symm free.1), ih free.2]

theorem lines_eq_nil_iff : lines newline text = [] ↔ text = [] := by
  constructor
  · intro none
    induction text using induction newline with
    | nil => rfl
    | last line free nonempty =>
        rw [lines_last free nonempty] at none
        cases none
    | cons line rest free _ =>
        rw [lines_cons free] at none
        cases none
  · rintro rfl
    rfl

/-! ### Reading -/

theorem takeWhile_newline (free : newline ∉ line) (rest : List α) :
    (line ++ newline :: rest).takeWhile (· ≠ newline) = line := by
  rw [List.takeWhile_append_of_pos, List.takeWhile_cons_of_neg, List.append_nil]
  · simp
  · intro char member
    simpa using fun same : char = newline => free (same ▸ member)

theorem takeWhile_free (free : newline ∉ line) : line.takeWhile (· ≠ newline) = line := by
  rw [List.takeWhile_eq_self_iff]
  intro char member
  simpa using fun same : char = newline => free (same ▸ member)

@[simp] theorem readLine_nil : readLine newline limit [] = none := rfl

/-- A line that fits with its break. -/
theorem readLine_fits (free : newline ∉ line) (short : line.length < limit) (rest : List α) :
    readLine newline limit (line ++ newline :: rest) = some (line ++ [newline], rest) := by
  obtain ⟨more, rfl⟩ : ∃ more, limit = line.length + 1 + more := ⟨limit - line.length - 1, by omega⟩
  have first : (line ++ newline :: rest).take (line.length + 1 + more) =
      line ++ newline :: rest.take more := by
    rw [Nat.add_assoc, List.take_length_add_append, Nat.add_comm 1, List.take_succ_cons]
  have stored : (line ++ newline :: rest.take more).take (line.length + 1) = line ++ [newline] := by
    rw [List.take_length_add_append, List.take_succ_cons, List.take_zero]
  simp only [readLine, first, takeWhile_newline free, stored]
  rw [if_neg (by simp), List.length_append, List.drop_length_add_append]
  rfl

/-- A last line that fits. -/
theorem readLine_last (free : newline ∉ line) (nonempty : line ≠ []) (short : line.length ≤ limit) :
    readLine newline limit line = some (line, []) := by
  have stored : line.take (line.length + 1) = line := List.take_of_length_le (Nat.le_succ _)
  simp only [readLine, if_neg nonempty, List.take_of_length_le short, takeWhile_free free, stored,
    List.drop_length]

/-- The beginning of a line that does not fit. -/
theorem readLine_long (free : newline ∉ text.take limit) (nonempty : text ≠ []) :
    readLine newline limit text = some (text.take limit, text.drop limit) := by
  have stored : (text.take limit).take ((text.take limit).length + 1) = text.take limit :=
    List.take_of_length_le (Nat.le_succ _)
  simp only [readLine, if_neg nonempty, takeWhile_free free, stored]
  by_cases long : limit ≤ text.length
  · rw [List.length_take, Nat.min_eq_left long]
  · rw [List.length_take, Nat.min_eq_right (by omega), List.drop_length,
      List.drop_of_length_le (by omega)]

/-- What is stored is the beginning of the text, and the rest is left. -/
theorem readLine_spec {stored : List α} (read : readLine newline limit text = some (stored, rest)) :
    stored ++ rest = text ∧ (0 < limit → stored ≠ []) := by
  unfold readLine at read
  split at read
  · cases read
  · next nonempty =>
      obtain ⟨rfl, rfl⟩ := Prod.mk.inj (Option.some.inj read)
      obtain ⟨char, others, rfl⟩ := List.exists_cons_of_ne_nil nonempty
      constructor
      · exact List.prefix_iff_eq_append.mp ((List.take_prefix _ _).trans (List.take_prefix _ _))
      · intro room
        obtain ⟨more, rfl⟩ := Nat.exists_eq_succ_of_ne_zero (Nat.ne_of_gt room)
        rw [List.take_succ_cons, List.take_succ_cons]
        exact List.cons_ne_nil _ _

/-- There is something to read until the end of the text. -/
theorem exists_readLine (nonempty : text ≠ []) :
    ∃ stored rest, readLine newline limit text = some (stored, rest) := by
  rw [readLine, if_neg nonempty]
  exact ⟨_, _, rfl⟩

end Lines
