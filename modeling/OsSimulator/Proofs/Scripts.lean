/-
Module: OsSimulator.Proofs.Scripts
Purpose: A script against its lines typed one by one.  `read_file` leaves the line break at the end of the
  last argument, and cuts a line after 99 bytes, so that the two only agree where no break is read.
Main exports: TrimsSpace, SplitsOnSpaces, ScriptAgrees, ReadsAsTyped, scriptAgrees_iff
-/
import OsSimulator.Console.Console
import OsSimulator.Proofs.InstructionSemantics
import OsSimulator.Proofs.RoundTrip
import Mathlib.Data.List.DropRight

namespace OsSimulator

open Lines

/-! ### What is assumed of the strings -/

/-- `string_trim` removes the white space around a text. -/
def TrimsSpace (stringTrim : String → String) : Prop :=
  ∀ text, ∃ before after, text.toList = before ++ (stringTrim text).toList ++ after ∧
    (∀ char ∈ before, isSpace char) ∧ (∀ char ∈ after, isSpace char) ∧
    (∀ char ∈ (stringTrim text).toList.head?, isSpace char = false) ∧
    (∀ char ∈ (stringTrim text).toList.getLast?, isSpace char = false)

/-- `string_split` splits a text at every single space. -/
def SplitsOnSpaces (stringSplit : String → List String) : Prop :=
  ∀ text, (stringSplit text).map String.toList = text.toList.splitOn ' '

/-- The script runs `start_console` on the same arguments as its lines do when they are typed, and the
    kernel receives the same messages. -/
structure ScriptAgrees (stringTrim : String → String) (stringSplit : String → List String)
    (stale : List UInt8) (script : Script) : Prop where
  started : (readFile stringSplit stale script.bytes .initial).started =
    (startManualConsole stringTrim stringSplit stale script.lines .initial).started
  sent : (readFile stringSplit stale script.bytes .initial).sent =
    (startManualConsole stringTrim stringSplit stale script.lines .initial).sent

/-- The command of this text ends the console. -/
def EndsConsole (stringSplit : String → List String) (stale : List UInt8) (text : String) : Prop :=
  (startConsole stale (stringSplit text)).2 ≠ .running

/-- The script is empty, or one line without a break and without white space around it that fits, or its
    first line does not fit with its break, is what fits of it but for white space, and ends the
    console. -/
def ReadsAsTyped (stringTrim : String → String) (stringSplit : String → List String)
    (stale : List UInt8) (script : Script) : Prop :=
  script.bytes = [] ∨
    (newline ∉ script.bytes ∧ script.bytes.length ≤ 99 ∧
      stringTrim (ofCBytes script.bytes) = ofCBytes script.bytes) ∨
    (newline ∉ script.bytes.take 99 ∧ 99 ≤ script.bytes.length ∧
      (∃ line ∈ script.lines.head?, stringTrim line = ofCBytes (script.bytes.take 99)) ∧
      EndsConsole stringSplit stale (ofCBytes (script.bytes.take 99)))

variable {stringTrim : String → String} {stringSplit : String → List String} {stale : List UInt8}
  {console : Console} {script : Script}

theorem SplitsOnSpaces.injective (splits : SplitsOnSpaces stringSplit) {first second : String}
    (same : stringSplit first = stringSplit second) : first = second := by
  have lists := congrArg (List.map String.toList) same
  rw [splits, splits] at lists
  have joined : [' '].intercalate (first.toList.splitOn ' ') = first.toList :=
    List.intercalate_splitOn ' '
  rw [lists, List.intercalate_splitOn] at joined
  exact (String.toList_inj.mp joined).symm

/-- A text that begins with white space is not what is left of a line. -/
theorem TrimsSpace.ne_of_head (trims : TrimsSpace stringTrim) {char : Char} {chars : List Char}
    (space : isSpace char = true) (line : String) : stringTrim line ≠ String.ofList (char :: chars) := by
  obtain ⟨_, _, _, _, _, head, _⟩ := trims line
  intro same
  rw [same, String.toList_ofList] at head
  rw [head char rfl] at space
  cases space

/-- Nor is a text that ends with white space. -/
theorem TrimsSpace.ne_of_last (trims : TrimsSpace stringTrim) {char : Char} {chars : List Char}
    (space : isSpace char = true) (line : String) :
    stringTrim line ≠ String.ofList (chars ++ [char]) := by
  obtain ⟨_, _, _, _, _, _, last⟩ := trims line
  intro same
  rw [same, String.toList_ofList] at last
  rw [last char List.getLast?_concat] at space
  cases space

/-- Where the beginning of a line is all of it but white space, the rest is white space. -/
theorem TrimsSpace.rest_isSpace (trims : TrimsSpace stringTrim) {char : Char}
    {beginning rest : List Char}
    (trimmed : stringTrim (String.ofList (char :: beginning ++ rest)) =
      String.ofList (char :: beginning)) : ∀ other ∈ rest, isSpace other := by
  obtain ⟨before, after, parts, leading, trailing, head, _⟩ :=
    trims (String.ofList (char :: beginning ++ rest))
  rw [trimmed, String.toList_ofList, String.toList_ofList] at parts
  rw [trimmed, String.toList_ofList] at head
  cases before with
  | nil =>
      rw [List.nil_append, List.append_cancel_left_eq] at parts
      rw [parts]
      exact trailing
  | cons space others =>
      obtain ⟨rfl, _⟩ := List.cons.inj parts
      have isSpaceFirst := leading char List.mem_cons_self
      rw [head char rfl] at isSpaceFirst
      cases isSpaceFirst

/-! ### The console at work -/

theorem start_running (running : console.status = .running) (arguments : List String) :
    console.start stale arguments =
      { started := console.started ++ [arguments]
        sent := console.sent ++ (startConsole stale arguments).1
        status := (startConsole stale arguments).2 } := by
  rw [Console.start, if_pos running]

theorem start_ended (ended : console.status ≠ .running) (arguments : List String) :
    console.start stale arguments = console := by
  rw [Console.start, if_neg ended]

/-- The first arguments. -/
theorem start_initial (stale : List UInt8) (arguments : List String) :
    Console.initial.start stale arguments =
      { started := [arguments]
        sent := (startConsole stale arguments).1
        status := (startConsole stale arguments).2 } :=
  start_running rfl arguments

/-- The second ones, if the console goes on. -/
theorem started_start_start {arguments : List String}
    (goesOn : (startConsole stale arguments).2 = .running) (others : List String) :
    ((Console.initial.start stale arguments).start stale others).started = [arguments, others] := by
  rw [start_initial, start_running goesOn]
  rfl

theorem readFileLoop_ended (ended : console.status ≠ .running) (turns : Nat) (file : List UInt8) :
    readFileLoop stringSplit stale turns file console = console := by
  induction turns generalizing file with
  | zero => rfl
  | succ turns ih =>
      rw [readFileLoop]
      split
      · rfl
      · rw [start_ended ended]
        exact ih _

theorem startManualConsole_ended (ended : console.status ≠ .running) (lines : List String) :
    startManualConsole stringTrim stringSplit stale lines console = console := by
  induction lines with
  | nil => rfl
  | cons line lines ih =>
      rw [startManualConsole, List.foldl_cons, start_ended ended]
      exact ih

theorem started_prefix_start (console : Console) (arguments : List String) :
    console.started <+: (console.start stale arguments).started := by
  by_cases running : console.status = .running
  · rw [start_running running]
    exact List.prefix_append ..
  · simp only [start_ended running, List.prefix_rfl]

theorem started_prefix_readFileLoop (turns : Nat) (file : List UInt8) (console : Console) :
    console.started <+: (readFileLoop stringSplit stale turns file console).started := by
  induction turns generalizing file console with
  | zero => exact List.prefix_refl _
  | succ turns ih =>
      rw [readFileLoop]
      split
      · exact List.prefix_refl _
      · exact (started_prefix_start console _).trans (ih _ _)

theorem started_prefix_startManualConsole (lines : List String) (console : Console) :
    console.started <+:
      (startManualConsole stringTrim stringSplit stale lines console).started := by
  induction lines generalizing console with
  | nil => exact List.prefix_refl _
  | cons line lines ih => exact (started_prefix_start console _).trans (ih _)

/-- What was sent is what the commands that were run sent. -/
def Console.Consistent (stale : List UInt8) (console : Console) : Prop :=
  console.sent = console.started.flatMap fun arguments => (startConsole stale arguments).1

theorem Console.Consistent.start (consistent : console.Consistent stale) (arguments : List String) :
    (console.start stale arguments).Consistent stale := by
  by_cases running : console.status = .running
  · rw [start_running running, Consistent, List.flatMap_append, ← consistent, List.flatMap_singleton]
  · rwa [start_ended running]

theorem Console.Consistent.readFileLoop (consistent : console.Consistent stale)
    (stringSplit : String → List String) (turns : Nat) (file : List UInt8) :
    (readFileLoop stringSplit stale turns file console).Consistent stale := by
  induction turns generalizing file console with
  | zero => exact consistent
  | succ turns ih =>
      rw [OsSimulator.readFileLoop]
      split
      · exact consistent
      · exact ih (consistent.start _) _

theorem Console.Consistent.startManualConsole (consistent : console.Consistent stale)
    (stringTrim : String → String) (stringSplit : String → List String) (lines : List String) :
    (startManualConsole stringTrim stringSplit stale lines console).Consistent stale := by
  induction lines generalizing console with
  | nil => exact consistent
  | cons line lines ih => exact ih (consistent.start _)

/-- The messages agree where the arguments do. -/
theorem scriptAgrees_iff_started :
    ScriptAgrees stringTrim stringSplit stale script ↔
      (readFile stringSplit stale script.bytes .initial).started =
        (startManualConsole stringTrim stringSplit stale script.lines .initial).started := by
  refine ⟨ScriptAgrees.started, fun started => ⟨started, ?_⟩⟩
  have initial : Console.initial.Consistent stale := rfl
  have read := initial.readFileLoop stringSplit script.bytes.length script.bytes
  have typed := initial.startManualConsole stringTrim stringSplit script.lines
  rw [← readFile] at read
  rw [read, typed, started]

/-! ### The first two lines -/

theorem readFileLoop_step {file stored rest : List UInt8}
    (read : readLine newline 99 file = some (stored, rest)) (turns : Nat) (console : Console) :
    readFileLoop stringSplit stale (turns + 1) file console =
      readFileLoop stringSplit stale turns rest
        (console.start stale (stringSplit (ofCBytes stored))) := by
  rw [readFileLoop, read]

/-- Reading goes on after the first piece, with enough turns for what is left. -/
theorem readFile_first (stringSplit : String → List String) (stale : List UInt8)
    {file stored rest : List UInt8} (read : readLine newline 99 file = some (stored, rest))
    (console : Console) :
    ∃ turns, rest.length ≤ turns ∧
      readFile stringSplit stale file console =
        readFileLoop stringSplit stale turns rest
          (console.start stale (stringSplit (ofCBytes stored))) := by
  obtain ⟨parts, nonempty⟩ := readLine_spec read
  have length := congrArg List.length parts
  rw [List.length_append] at length
  have positive := List.length_pos_iff.mpr (nonempty (by decide))
  obtain ⟨turns, more⟩ : ∃ turns, file.length = turns + 1 := ⟨file.length - 1, by omega⟩
  refine ⟨turns, by omega, ?_⟩
  rw [readFile, more, readFileLoop_step read]

/-- If the console goes on and there is more to read, the arguments of the next piece are run too. -/
theorem readFile_second {file stored rest next others : List UInt8}
    (read : readLine newline 99 file = some (stored, rest))
    (goesOn : ¬ EndsConsole stringSplit stale (ofCBytes stored))
    (further : readLine newline 99 rest = some (next, others)) :
    [stringSplit (ofCBytes stored), stringSplit (ofCBytes next)] <+:
      (readFile stringSplit stale file .initial).started := by
  obtain ⟨turns, enough, whole⟩ := readFile_first stringSplit stale read .initial
  obtain ⟨parts, nonempty⟩ := readLine_spec further
  have length := congrArg List.length parts
  rw [List.length_append] at length
  have positive := List.length_pos_iff.mpr (nonempty (by decide))
  obtain ⟨fewer, rfl⟩ : ∃ fewer, turns = fewer + 1 := ⟨turns - 1, by omega⟩
  have running : (startConsole stale (stringSplit (ofCBytes stored))).2 = .running :=
    not_not.mp goesOn
  rw [whole, readFileLoop_step further, ← started_start_start running]
  exact started_prefix_readFileLoop ..

section

variable {stored rest : List UInt8} {line : String} {lines : List String}

/-- Where the two agree, the first piece is the first line as it is typed. -/
theorem ScriptAgrees.first (agrees : ScriptAgrees stringTrim stringSplit stale script)
    (splits : SplitsOnSpaces stringSplit)
    (read : readLine newline 99 script.bytes = some (stored, rest))
    (typed : script.lines = line :: lines) : stringTrim line = ofCBytes stored := by
  obtain ⟨turns, _, whole⟩ := readFile_first stringSplit stale read .initial
  have readFirst : [stringSplit (ofCBytes stored)] <+:
      (readFile stringSplit stale script.bytes .initial).started := by
    have started : (Console.start stale .initial (stringSplit (ofCBytes stored))).started =
        [stringSplit (ofCBytes stored)] := by
      rw [start_initial]
    rw [whole, ← started]
    exact started_prefix_readFileLoop ..
  have typedFirst : [stringSplit (stringTrim line)] <+:
      (startManualConsole stringTrim stringSplit stale script.lines .initial).started := by
    rw [typed]
    exact started_prefix_startManualConsole lines (.start stale .initial _)
  rw [← agrees.started] at typedFirst
  have same := (List.prefix_of_prefix_length_le typedFirst readFirst (Nat.le_refl 1))
  exact splits.injective (List.cons.inj (same.eq_of_length rfl)).1

/-- Where the two agree and the console goes on, the next piece is the next line as it is typed. -/
theorem ScriptAgrees.second {next others : List UInt8}
    (agrees : ScriptAgrees stringTrim stringSplit stale script)
    (splits : SplitsOnSpaces stringSplit)
    (read : readLine newline 99 script.bytes = some (stored, rest))
    (typed : script.lines = line :: lines)
    (goesOn : ¬ EndsConsole stringSplit stale (ofCBytes stored))
    (further : readLine newline 99 rest = some (next, others)) :
    ∃ other ∈ lines, stringTrim other = ofCBytes next := by
  have readBoth := readFile_second read goesOn further
  have running : (startConsole stale (enterCommand stringTrim stringSplit line)).2 = .running := by
    rw [enterCommand, agrees.first splits read typed]
    exact not_not.mp goesOn
  have started := agrees.started
  rw [typed] at started
  rw [started] at readBoth
  cases lines with
  | nil =>
      rw [startManualConsole, List.foldl_cons, List.foldl_nil, start_initial] at readBoth
      exact absurd readBoth.length_le (by decide : ¬ 2 ≤ 1)
  | cons other lines =>
      refine ⟨other, List.mem_cons_self, ?_⟩
      have typedBoth : [stringSplit (stringTrim line), stringSplit (stringTrim other)] <+:
          (startManualConsole stringTrim stringSplit stale (line :: other :: lines)
            .initial).started := by
        have started := started_start_start running (enterCommand stringTrim stringSplit other)
        rw [startManualConsole, List.foldl_cons, List.foldl_cons]
        rw [enterCommand, enterCommand] at started
        rw [← started]
        exact started_prefix_startManualConsole lines _
      have same := List.prefix_of_prefix_length_le typedBoth readBoth (Nat.le_refl 2)
      exact splits.injective (List.cons.inj (List.cons.inj (same.eq_of_length rfl)).2).1

/-- The two agree where the first line ends the console, or is the only one. -/
theorem scriptAgrees_of_first (read : readLine newline 99 script.bytes = some (stored, rest))
    (typed : script.lines = line :: lines) (trimmed : stringTrim line = ofCBytes stored)
    (stops : EndsConsole stringSplit stale (ofCBytes stored) ∨ rest = [] ∧ lines = []) :
    ScriptAgrees stringTrim stringSplit stale script := by
  obtain ⟨turns, _, whole⟩ := readFile_first stringSplit stale read .initial
  rw [scriptAgrees_iff_started, whole, typed, startManualConsole, List.foldl_cons, enterCommand,
    trimmed]
  rcases stops with ends | ⟨rfl, rfl⟩
  · have ended : (Console.start stale .initial (stringSplit (ofCBytes stored))).status ≠
        .running := by
      rw [start_initial]
      exact ends
    rw [readFileLoop_ended ended]
    exact congrArg Console.started (startManualConsole_ended ended lines).symm
  · cases turns with
    | zero => rfl
    | succ turns => rfl

end

/-! ### Scripts -/

/-- Bytes without a NUL are the C string that starts with them. -/
theorem ofCBytes_of_text {bytes : List UInt8} (text : 0 ∉ bytes) :
    ofCBytes bytes = String.ofList (bytes.map charOfByte) := by
  rw [ofCBytes, takeWhile_free text]

/-- Where the first bytes of a line are all of it but white space, the others are white space. -/
theorem TrimsSpace.drop_isSpace (trims : TrimsSpace stringTrim) {line : List UInt8} {count : Nat}
    (text : 0 ∉ line) (nonempty : line.take count ≠ [])
    (trimmed : stringTrim (ofCBytes line) = ofCBytes (line.take count)) :
    ∀ byte ∈ line.drop count, isSpace (charOfByte byte) := by
  obtain ⟨byte, others, beginning⟩ := List.exists_cons_of_ne_nil nonempty
  rw [ofCBytes_of_text text, ofCBytes_of_text fun member => text (List.mem_of_mem_take member),
    ← List.take_append_drop count (line.map charOfByte), ← List.map_take, ← List.map_drop,
    beginning, List.map_cons] at trimmed
  intro other member
  exact trims.rest_isSpace trimmed _ (List.mem_map.mpr ⟨other, member, rfl⟩)

/-- A script of one line without a break. -/
theorem scriptAgrees_iff_last (splits : SplitsOnSpaces stringSplit) (free : newline ∉ script.bytes)
    (nonempty : script.bytes ≠ []) :
    ScriptAgrees stringTrim stringSplit stale script ↔
      ReadsAsTyped stringTrim stringSplit stale script := by
  have lines : script.lines = [ofCBytes script.bytes] := by
    rw [Script.lines, lines_last free nonempty]
    rfl
  have freeFirst : newline ∉ script.bytes.take 99 := fun member => free (List.mem_of_mem_take member)
  have read : readLine newline 99 script.bytes =
      some (script.bytes.take 99, script.bytes.drop 99) := readLine_long freeFirst nonempty
  constructor
  · intro agrees
    have trimmed := agrees.first splits read lines
    by_cases short : script.bytes.length ≤ 99
    · rw [List.take_of_length_le short] at trimmed
      exact .inr (.inl ⟨free, short, trimmed⟩)
    · refine .inr (.inr ⟨freeFirst, by omega, ⟨_, by rw [lines]; rfl, trimmed⟩, ?_⟩)
      by_contra goesOn
      have more : script.bytes.drop 99 ≠ [] := by
        rw [← List.length_pos_iff, List.length_drop]
        omega
      obtain ⟨next, others, further⟩ := exists_readLine more
      obtain ⟨other, member, _⟩ := agrees.second splits read lines goesOn further
      cases member
  · rintro (empty | ⟨_, short, trimmed⟩ | ⟨_, _, ⟨line, isFirst, trimmed⟩, ends⟩)
    · exact absurd empty nonempty
    · refine scriptAgrees_of_first read lines ?_ (.inr ⟨List.drop_of_length_le short, rfl⟩)
      rw [List.take_of_length_le short]
      exact trimmed
    · rw [lines, List.head?_cons, Option.mem_some_iff] at isFirst
      exact scriptAgrees_of_first read lines (by rw [isFirst]; exact trimmed) (.inl ends)

section

variable {line rest : List UInt8}

theorem lines_of_cons (isScript : script.bytes = line ++ newline :: rest) (free : newline ∉ line) :
    script.lines = ofCBytes line :: (Lines.lines newline rest).map ofCBytes := by
  rw [Script.lines, isScript, lines_cons free]
  rfl

/-- A break that is read is at the end of the last argument. -/
theorem not_scriptAgrees_of_short (trims : TrimsSpace stringTrim)
    (splits : SplitsOnSpaces stringSplit) (isScript : script.bytes = line ++ newline :: rest)
    (free : newline ∉ line) (short : line.length < 99) :
    ¬ ScriptAgrees stringTrim stringSplit stale script := by
  intro agrees
  have read : readLine newline 99 script.bytes = some (line ++ [newline], rest) := by
    rw [isScript]
    exact readLine_fits free short rest
  have noNul : 0 ∉ line ++ [newline] := by
    intro member
    apply script.text
    rw [isScript, List.append_cons]
    exact List.mem_append_left rest member
  have trimmed := agrees.first splits read (lines_of_cons isScript free)
  rw [ofCBytes_of_text noNul, List.map_append, List.map_singleton] at trimmed
  exact trims.ne_of_last (by decide) _ trimmed

theorem not_readsAsTyped_of_short (isScript : script.bytes = line ++ newline :: rest)
    (short : line.length < 99) : ¬ ReadsAsTyped stringTrim stringSplit stale script := by
  have hasBreak : newline ∈ script.bytes.take 99 := by
    obtain ⟨more, fits⟩ : ∃ more, 99 = line.length + (1 + more) := ⟨98 - line.length, by omega⟩
    rw [isScript, fits, List.take_length_add_append, Nat.add_comm 1, List.take_succ_cons]
    simp
  rintro (empty | ⟨noBreak, _⟩ | ⟨noBreak, _⟩)
  · rw [empty] at hasBreak
    cases hasBreak
  · exact noBreak (List.mem_of_mem_take hasBreak)
  · exact noBreak hasBreak

/-- A piece that begins with white space is not a line as it is typed. -/
theorem TrimsSpace.ne_of_piece (trims : TrimsSpace stringTrim) {file stored left : List UInt8}
    (text : 0 ∉ file) (read : readLine newline 99 file = some (stored, left))
    (space : ∀ byte ∈ file.head?, isSpace (charOfByte byte)) (typed : String) :
    stringTrim typed ≠ ofCBytes stored := by
  obtain ⟨rfl, nonempty⟩ := readLine_spec read
  obtain ⟨byte, bytes, rfl⟩ := List.exists_cons_of_ne_nil (nonempty (by decide))
  rw [ofCBytes_of_text fun member => text (List.mem_append_left left member), List.map_cons]
  exact trims.ne_of_head (space byte rfl) typed

/-- Where the first 99 bytes of a line are all of it but white space, what is left to read begins with
    white space, its break if nothing else. -/
theorem TrimsSpace.left_isSpace (trims : TrimsSpace stringTrim) (text : 0 ∉ line)
    (long : 99 ≤ line.length) (trimmed : stringTrim (ofCBytes line) = ofCBytes (line.take 99)) :
    ∀ byte ∈ (line.drop 99 ++ newline :: rest).head?, isSpace (charOfByte byte) := by
  have nonempty : line.take 99 ≠ [] := by
    rw [← List.length_pos_iff, List.length_take]
    omega
  have white := trims.drop_isSpace text nonempty trimmed
  intro byte isFirst
  cases ends : line.drop 99 with
  | nil =>
      rw [ends, List.nil_append, List.head?_cons, Option.mem_some_iff] at isFirst
      rw [← isFirst]
      decide
  | cons first more =>
      rw [ends, List.cons_append, List.head?_cons, Option.mem_some_iff] at isFirst
      apply white
      rw [ends, isFirst]
      exact List.mem_cons_self

/-- A script whose first line does not fit with its break. -/
theorem scriptAgrees_iff_long (trims : TrimsSpace stringTrim) (splits : SplitsOnSpaces stringSplit)
    (isScript : script.bytes = line ++ newline :: rest) (free : newline ∉ line)
    (long : 99 ≤ line.length) :
    ScriptAgrees stringTrim stringSplit stale script ↔
      ReadsAsTyped stringTrim stringSplit stale script := by
  have lines := lines_of_cons isScript free
  have beginning : script.bytes.take 99 = line.take 99 := by
    rw [isScript, List.take_append_of_le_length long]
  have left : script.bytes.drop 99 = line.drop 99 ++ newline :: rest := by
    rw [isScript, List.drop_append_of_le_length long]
  have freeFirst : newline ∉ script.bytes.take 99 := by
    rw [beginning]
    exact fun member => free (List.mem_of_mem_take member)
  have hasBreak : newline ∈ script.bytes := by
    rw [isScript]
    simp
  have nonempty := List.ne_nil_of_mem hasBreak
  have read : readLine newline 99 script.bytes =
      some (script.bytes.take 99, script.bytes.drop 99) := readLine_long freeFirst nonempty
  constructor
  · intro agrees
    have trimmed := agrees.first splits read lines
    refine .inr (.inr ⟨freeFirst, ?_, ⟨_, by rw [lines]; rfl, trimmed⟩, ?_⟩)
    · rw [isScript, List.length_append]
      omega
    · -- If the console went on, the rest of the line would be read as the next one.
      by_contra goesOn
      have more : script.bytes.drop 99 ≠ [] := by
        rw [left]
        simp
      obtain ⟨next, others, further⟩ := exists_readLine more
      obtain ⟨other, _, trimmedNext⟩ := agrees.second splits read lines goesOn further
      have text : 0 ∉ line := by
        intro member
        apply script.text
        rw [isScript]
        exact List.mem_append_left _ member
      rw [beginning] at trimmed
      have space : ∀ byte ∈ (line.drop 99 ++ newline :: rest).head?, isSpace (charOfByte byte) :=
        trims.left_isSpace text long trimmed
      rw [← left] at space
      exact trims.ne_of_piece (fun member => script.text (List.mem_of_mem_drop member)) further space
        other trimmedNext
  · rintro (empty | ⟨noBreak, _⟩ | ⟨_, _, ⟨first, isFirst, trimmed⟩, ends⟩)
    · exact absurd empty nonempty
    · exact absurd hasBreak noBreak
    · rw [lines, List.head?_cons, Option.mem_some_iff] at isFirst
      exact scriptAgrees_of_first read lines (by rw [isFirst]; exact trimmed) (.inl ends)

/-- A script whose first line has a break. -/
theorem scriptAgrees_iff_cons (trims : TrimsSpace stringTrim) (splits : SplitsOnSpaces stringSplit)
    (isScript : script.bytes = line ++ newline :: rest) (free : newline ∉ line) :
    ScriptAgrees stringTrim stringSplit stale script ↔
      ReadsAsTyped stringTrim stringSplit stale script := by
  by_cases short : line.length < 99
  · exact iff_of_false (not_scriptAgrees_of_short trims splits isScript free short)
      (not_readsAsTyped_of_short isScript short)
  · exact scriptAgrees_iff_long trims splits isScript free (Nat.le_of_not_lt short)

end

/-- A script agrees with its lines if and only if it is read as they are typed. -/
theorem scriptAgrees_iff (stringTrim : String → String) (trims : TrimsSpace stringTrim)
    (stringSplit : String → List String) (splits : SplitsOnSpaces stringSplit)
    (stale : List UInt8) (script : Script) :
    ScriptAgrees stringTrim stringSplit stale script ↔
      ReadsAsTyped stringTrim stringSplit stale script := by
  by_cases empty : script.bytes = []
  · have lines : script.lines = [] := by
      rw [Script.lines, empty]
      rfl
    have agrees : ScriptAgrees stringTrim stringSplit stale script := by
      rw [scriptAgrees_iff_started, lines, empty]
      rfl
    exact iff_of_true agrees (.inl empty)
  · have cases : newline ∉ script.bytes ∨
        ∃ line rest, newline ∉ line ∧ script.bytes = line ++ newline :: rest := by
      generalize script.bytes = bytes at empty
      induction bytes using Lines.induction newline with
      | nil => exact absurd rfl empty
      | last line free _ => exact .inl free
      | cons line rest free _ => exact .inr ⟨line, rest, free, rfl⟩
    rcases cases with free | ⟨line, rest, free, isScript⟩
    · exact scriptAgrees_iff_last splits free empty
    · exact scriptAgrees_iff_cons trims splits isScript free

/-- Remove the white space around a text. -/
def trimSpace (text : String) : String :=
  .ofList ((text.toList.dropWhile isSpace).rdropWhile isSpace)

theorem trimSpace_trims : TrimsSpace trimSpace := by
  intro text
  let left := text.toList.dropWhile isSpace
  refine ⟨text.toList.takeWhile isSpace, left.rtakeWhile isSpace, ?_, ?_, ?_, ?_, ?_⟩
  · rw [trimSpace, String.toList_ofList, List.append_assoc, List.rdropWhile_append_rtakeWhile]
    exact List.takeWhile_append_dropWhile.symm
  · exact fun char member => List.mem_takeWhile_imp member
  · exact fun char member => List.mem_rtakeWhile_imp member
  · intro char isFirst
    rw [trimSpace, String.toList_ofList, Option.mem_def] at isFirst
    obtain ⟨spaces, parts⟩ := List.rdropWhile_prefix (p := isSpace) (l := left)
    have isHead : left.head? = some char := by
      rw [← parts, List.head?_append, isFirst, Option.some_or]
    have first := List.head?_dropWhile_not isSpace text.toList
    simp only [left] at isHead
    rw [isHead] at first
    exact first
  · intro char isLast
    rw [trimSpace, String.toList_ofList, Option.mem_def] at isLast
    have nonempty : left.rdropWhile isSpace ≠ [] := by
      intro empty
      rw [empty] at isLast
      cases isLast
    have last := List.rdropWhile_last_not isSpace left nonempty
    rw [List.getLast?_eq_some_getLast nonempty] at isLast
    rw [Option.some.inj isLast] at last
    simpa using last

theorem splitAtSpaces_splitsOnSpaces : SplitsOnSpaces splitAtSpaces := by
  intro text
  rw [splitAtSpaces, List.map_map]
  exact List.map_id'' (fun _ => String.toList_ofList) _

/-- A script of one line without a break. -/
theorem scriptAgrees_iff_procesoEstado :
    ScriptAgrees trimSpace splitAtSpaces [] ⟨cBytes "PROCESO_ESTADO", by decide⟩ ↔
      ReadsAsTyped trimSpace splitAtSpaces [] ⟨cBytes "PROCESO_ESTADO", by decide⟩ :=
  scriptAgrees_iff trimSpace trimSpace_trims splitAtSpaces splitAtSpaces_splitsOnSpaces []
    ⟨cBytes "PROCESO_ESTADO", by decide⟩

/-- Of two lines, the first is not even taken for a command. -/
theorem first_line_lost :
    ¬ ScriptAgrees trimSpace splitAtSpaces []
      ⟨cBytes "DETENER_PLANIFICACION\nINICIAR_PLANIFICACION", by decide⟩ := by
  intro agrees
  have oneMessage := congrArg List.length agrees.sent
  revert oneMessage
  decide

end OsSimulator
