import RuleDispatch.Console.Lines
import RuleDispatch.Proofs.Console.Grammar

/-! # The lines of console input

Input is cut into lines at its line feeds. Input that is empty or ends with a line feed can be cut off:
what comes after it makes the same lines as alone. A line asks for a command, or it is ignored; which
commands are asked for does not change when a line that is no command is taken out, or when a line ends
in another way.

* `Console.Complete`, `Console.IsText` — input that ends where a line does, and input that is all text.
* `Console.splitLines_append`, `Console.exists_broken` — lines of what is put together, and up to the first
  line that is no text.
* `Console.doings` — what lines ask for.
* `Console.Retyped`, `Console.askAlike_of_retyped` — input typed in another way. -/

namespace RuleDispatch.Console

/-! ## 1. Lines as bytes -/

/-- Input that **ends where a line does**: it is empty, or its last byte is a line feed. -/
def Complete (bytes : List UInt8) : Prop :=
  ∀ b ∈ bytes.getLast?, b = lineFeed

/-- Input whose lines are **all text**. -/
abbrev IsText (bytes : List UInt8) : Prop :=
  none ∉ readLines bytes

/-- What holds of no input and of a last line that does not end, and goes on from what follows a line to
the line together with it, holds of **all input**. -/
theorem induct_lines {P : List UInt8 → Prop} (nil : P [])
    (last : ∀ line, line ≠ [] → lineFeed ∉ line → P line)
    (more : ∀ line rest, lineFeed ∉ line → P rest → P (line ++ lineFeed :: rest))
    (bytes : List UInt8) : P bytes := by
  by_cases ends : lineFeed ∈ bytes
  · obtain ⟨line, rest, whole, within⟩ := List.eq_append_cons_of_mem ends
    rw [whole]
    exact more line rest within (induct_lines nil last more rest)
  · by_cases nothing : bytes = []
    · rw [nothing]
      exact nil
    · exact last bytes nothing ends
termination_by bytes.length
decreasing_by
  rw [whole, List.length_append, List.length_cons]
  omega

/-- Bytes before the first line feed **belong to the line that was begun**. -/
theorem splitLinesFrom_append {line : List UInt8} (within : lineFeed ∉ line) (met rest : List UInt8) :
    splitLinesFrom met (line ++ rest) = splitLinesFrom (met ++ line) rest := by
  induction line generalizing met with
  | nil => rw [List.nil_append, List.append_nil]
  | cons b line ih =>
    obtain ⟨other, within⟩ := not_or.mp (List.mem_cons.not.mp within)
    rw [List.cons_append, splitLinesFrom, if_neg (Ne.symm other), ih within, List.append_assoc,
      List.singleton_append]

/-- **A line that ends**, and the lines after it. -/
theorem splitLines_line {line : List UInt8} (within : lineFeed ∉ line) (rest : List UInt8) :
    splitLines (line ++ lineFeed :: rest) = chomp line :: splitLines rest := by
  rw [splitLines, splitLinesFrom_append within, List.nil_append, splitLinesFrom, if_pos rfl]
  rfl

/-- **A last line** that does not end. -/
theorem splitLines_last {line : List UInt8} (within : lineFeed ∉ line) (some_line : line ≠ []) :
    splitLines line = [line] := by
  have whole := splitLinesFrom_append within [] []
  rw [List.append_nil, List.nil_append] at whole
  rw [splitLines, whole, splitLinesFrom, if_neg some_line]

/-- **No input** ends where a line does. -/
theorem complete_nil : Complete [] := nofun

/-- A line that ends, **in front of complete input**, makes complete input. -/
theorem complete_line {rest : List UInt8} (complete : Complete rest) (line : List UInt8) :
    Complete (line ++ lineFeed :: rest) := by
  intro b last
  rw [List.getLast?_append_of_ne_nil _ (List.cons_ne_nil _ _)] at last
  cases rest with
  | nil => exact (Option.mem_some_iff.mp last).symm
  | cons c rest => exact complete b (by rwa [List.getLast?_cons_cons] at last)

/-- What follows a line is complete **if both together are**. -/
theorem Complete.of_line {line rest : List UInt8} (complete : Complete (line ++ lineFeed :: rest)) :
    Complete rest := by
  intro b last
  refine complete b ?_
  rw [List.getLast?_append_of_ne_nil _ (List.cons_ne_nil _ _)]
  cases rest with
  | nil => cases last
  | cons c rest => rwa [List.getLast?_cons_cons]

/-- What comes **after complete input** makes the same lines as alone. -/
theorem splitLines_append {a : List UInt8} (complete : Complete a) (b : List UInt8) :
    splitLines (a ++ b) = splitLines a ++ splitLines b := by
  induction a using induct_lines with
  | nil => rfl
  | last line some_line within =>
    -- a last line that does not end is not complete
    have ends := complete _ (List.getLast?_eq_getLast_of_ne_nil some_line)
    exact absurd (ends ▸ List.getLast_mem some_line) within
  | more line rest within ih =>
    rw [List.append_assoc, List.cons_append, splitLines_line within, splitLines_line within,
      ih complete.of_line, List.cons_append]

/-- The lines of complete input and more are the lines of the first **and then those of the second**. -/
theorem readLines_append {a : List UInt8} (complete : Complete a) (b : List UInt8) :
    readLines (a ++ b) = readLines a ++ readLines b := by
  rw [readLines, splitLines_append complete, List.map_append]
  rfl

/-- A line that ends is **read by itself**, and then the rest is. -/
theorem readLines_line {line : List UInt8} (within : lineFeed ∉ line) (rest : List UInt8) :
    readLines (line ++ lineFeed :: rest) = decodeLine? (chomp line) :: readLines rest := by
  rw [readLines, splitLines_line within, List.map_cons]
  rfl

/-- Complete input that is not all text is **text up to its first line that is none**. -/
theorem exists_broken {a : List UInt8} (complete : Complete a) (broken : ¬ IsText a) :
    ∃ p r, a = p ++ r ∧ Complete p ∧ IsText p ∧ Complete r ∧ (readLines r).head? = some none := by
  induction a using induct_lines with
  | nil => exact absurd List.not_mem_nil broken
  | last line some_line within =>
    have ends := complete _ (List.getLast?_eq_getLast_of_ne_nil some_line)
    exact absurd (ends ▸ List.getLast_mem some_line) within
  | more line rest within ih =>
    cases text : decodeLine? (chomp line) with
    | none =>
      refine ⟨[], line ++ lineFeed :: rest, rfl, complete_nil, List.not_mem_nil, complete, ?_⟩
      rw [readLines_line within, text]
      rfl
    | some line' =>
      have broken' : ¬ IsText rest := by
        intro all
        refine broken ?_
        rw [IsText, readLines_line within, text]
        simpa using all
      obtain ⟨p, r, rfl, complete', all, later⟩ := ih complete.of_line broken'
      refine ⟨line ++ lineFeed :: p, r, by simp, complete_line complete' line, ?_, later⟩
      rw [IsText, readLines_line within, text]
      simpa using all

/-! ## 2. What lines ask for -/

/-- What a line **asks for**: it is noted and ignored, or it is a command. -/
inductive Doing where
  /-- It is noted, with the reason why it is no command. -/
  | ignore (line reason : String)
  /-- It is carried out. -/
  | obey (command : Command)

/-- What one line asks for; a blank one does not ask for anything. -/
def doing? (line : String) : Option Doing :=
  match Command.read line with
  | .ok command => some (.obey command)
  | .error .empty => none
  | .error e => some (.ignore line e.message)

/-- What lines ask for **up to the first that is no text**. -/
def doings : List (Option String) → List Doing
  | [] => []
  | none :: _ => []
  | some line :: rest => (doing? line).toList ++ doings rest

/-- The command that is asked for. -/
def Doing.command? : Doing → Option Command
  | .ignore _ _ => none
  | .obey command => some command

/-- The **commands** that lines ask for. -/
def commands (lines : List (Option String)) : List Command :=
  (doings lines).filterMap Doing.command?

/-- Whether some line is no text. -/
def breaksOff (lines : List (Option String)) : Bool :=
  lines.any Option.isNone

/-- Input whose lines are all text **does not break off**. -/
theorem breaksOff_eq_false {lines : List (Option String)} (all : none ∉ lines) :
    breaksOff lines = false := by
  refine List.any_eq_false.mpr fun line member => ?_
  cases line with
  | none => exact absurd member all
  | some line => exact Bool.false_ne_true

/-- Input whose lines are all text is **done to its end**, and then the rest is. -/
theorem doings_append {lines : List (Option String)} (all : none ∉ lines)
    (more : List (Option String)) : doings (lines ++ more) = doings lines ++ doings more := by
  induction lines with
  | nil => rfl
  | cons line rest ih =>
    obtain ⟨text, later⟩ := not_or.mp (List.mem_cons.not.mp all)
    obtain ⟨line, rfl⟩ := Option.ne_none_iff_exists'.mp (Ne.symm text)
    rw [List.cons_append, doings, doings, ih later, List.append_assoc]

/-- A line that is no text **ends the input**. -/
theorem doings_append_none {lines : List (Option String)} (all : none ∉ lines)
    {more : List (Option String)} (broken : more.head? = some none) :
    doings (lines ++ more) = doings lines := by
  obtain ⟨rest, rfl⟩ := List.head?_eq_some_iff.mp broken
  rw [doings_append all, doings, List.append_nil]

/-- The commands are those of the first line, if it is one, **and then of the others**. -/
theorem commands_cons (line : String) (rest : List (Option String)) :
    commands (some line :: rest) = (Command.read line).toOption.toList ++ commands rest := by
  have one : (doing? line).toList.filterMap Doing.command? = (Command.read line).toOption.toList := by
    unfold doing?
    split <;> next read => rw [read]; rfl
  rw [commands, doings, List.filterMap_append, one]
  rfl

/-! ## 3. Input typed in another way -/

/-- Input **typed in another way**: a line that is no command is taken out, or a line ends with a carriage
return before its line feed. -/
inductive Retype : List UInt8 → List UInt8 → Prop where
  /-- A line that is no command is left out. -/
  | drop {front line rest : List UInt8} {text : String} (complete : Complete front)
      (within : lineFeed ∉ line) (reads : decodeLine? (chomp line) = some text)
      (refused : ∀ command, Command.read text ≠ .ok command) :
      Retype (front ++ (line ++ lineFeed :: rest)) (front ++ rest)
  /-- So is one at the end that no line feed ends. -/
  | dropLast {front line : List UInt8} {text : String} (complete : Complete front)
      (within : lineFeed ∉ line) (reads : decodeLine? line = some text)
      (refused : ∀ command, Command.read text ≠ .ok command) : Retype (front ++ line) front
  /-- A carriage return is put in at the end of a line. -/
  | ending {front line rest : List UInt8} (complete : Complete front) (within : lineFeed ∉ line) :
      Retype (front ++ (line ++ lineFeed :: rest)) (front ++ (line ++ carriageReturn :: lineFeed :: rest))

/-- Input typed in another way, **any number of times**, there and back. -/
abbrev Retyped : List UInt8 → List UInt8 → Prop :=
  Relation.EqvGen Retype

/-- A carriage return **belongs to the end** of a line. -/
theorem chomp_append (line : List UInt8) : chomp (line ++ [carriageReturn]) = line := by
  rw [chomp, List.getLast?_concat, if_pos rfl, List.dropLast_concat]

/-- A line is what is left of it **or ends with a carriage return**. -/
theorem chomp_or (line : List UInt8) : chomp line = line ∨ line = chomp line ++ [carriageReturn] := by
  unfold chomp
  split_ifs with ends
  · right
    exact (List.dropLast_append_getLast? _ ends).symm
  · left
    rfl

/-- Bytes are text **if they are with a carriage return behind them**: it begins a character of its own. -/
theorem isValidUTF8_of_append {front : ByteArray} (valid : (front ++ "\r".toByteArray).IsValidUTF8) :
    front.IsValidUTF8 := by
  let text : String := ⟨front ++ "\r".toByteArray, valid⟩
  have size : front.size < text.utf8ByteSize := by
    show front.size < (front ++ "\r".toByteArray).size
    rw [ByteArray.size_append]
    exact Nat.lt_succ_self _
  have byte : text.getUTF8Byte ⟨front.size⟩ size = carriageReturn := by
    show (front ++ "\r".toByteArray)[front.size] = carriageReturn
    simp only [ByteArray.getElem_append_right (le_refl _), Nat.sub_self]
    rfl
  have starts : (String.Pos.Raw.mk front.size).IsValid text := by
    refine String.Pos.Raw.isValid_iff_isUTF8FirstByte.mpr (.inr ⟨size, ?_⟩)
    rw [byte]
    exact .inl rfl
  have whole := (String.Pos.Raw.isValid_iff_isValidUTF8_extract_zero.mp starts).2
  rwa [show text.toByteArray = front ++ "\r".toByteArray from rfl, ByteArray.extract_append_eq_left rfl] at whole

/-- Bytes are text **whether or not a carriage return follows**. -/
theorem decodeLine?_append (line : List UInt8) :
    decodeLine? (line ++ [carriageReturn]) = (decodeLine? line).map (· ++ "\r") := by
  have bytes : ByteArray.mk (line ++ [carriageReturn]).toArray
      = ByteArray.mk line.toArray ++ "\r".toByteArray := by
    refine ByteArray.ext ?_
    rw [ByteArray.data_append, ← List.append_toArray]
    rfl
  rw [decodeLine?, bytes, decodeLine?]
  unfold String.fromUTF8?
  by_cases valid : (ByteArray.mk line.toArray).IsValidUTF8
  · have both := valid.append "\r".isValidUTF8
    rw [dif_pos both, dif_pos valid]
    rfl
  · have neither := mt isValidUTF8_of_append valid
    rw [dif_neg neither, dif_neg valid]
    rfl

/-- A line means the same **whether or not a carriage return follows**. -/
theorem read_append (line : String) : Command.read (line ++ "\r") = Command.read line := by
  have blank : Text.Blanks "\r".toList := List.all_eq_true.mp rfl
  have same : Text.trim (line ++ "\r").toList = Text.trim line.toList := by
    rw [String.toList_append]
    obtain blanks | ⟨gap, inner, gap', blanks, trimmed, blanks', split⟩ :=
      Text.blanks_or_exists_trimmed line.toList
    · have blanks' : Text.Blanks (line.toList ++ "\r".toList) := fun c member =>
        (List.mem_append.mp member).elim (blanks c) (blank c)
      rw [Text.trim_blanks blanks, Text.trim_blanks blanks']
    · have behind : Text.Blanks (gap' ++ "\r".toList) := fun c member =>
        (List.mem_append.mp member).elim (blanks' c) (blank c)
      rw [split, trimmed.trim blanks blanks', List.append_assoc, List.append_assoc,
        trimmed.trim blanks behind]
  unfold Command.read
  rw [same]

/-- Lines that **ask for the same commands**, and break off or not alike. -/
def AskAlike (lines lines' : List (Option String)) : Prop :=
  commands lines = commands lines' ∧ breaksOff lines = breaksOff lines'

/-- What comes **after the same lines** may be asked for in another way. -/
theorem AskAlike.append {more more' : List (Option String)} (alike : AskAlike more more')
    (lines : List (Option String)) : AskAlike (lines ++ more) (lines ++ more') := by
  induction lines with
  | nil => exact alike
  | cons line rest ih =>
    cases line with
    | none => exact ⟨rfl, rfl⟩
    | some line =>
      refine ⟨?_, ih.2⟩
      rw [List.cons_append, List.cons_append, commands_cons, commands_cons, ih.1]

/-- A line that is **no command** does not ask for anything. -/
theorem askAlike_drop {text : String} (refused : ∀ command, Command.read text ≠ .ok command)
    (rest : List (Option String)) : AskAlike (some text :: rest) rest := by
  refine ⟨?_, rfl⟩
  rw [commands_cons]
  cases read : Command.read text with
  | error e => rfl
  | ok command => exact absurd read (refused command)

/-- **However a line ends**, it asks for the same. -/
theorem askAlike_ending (line : List UInt8) (rest : List (Option String)) :
    AskAlike (decodeLine? (chomp line) :: rest) (decodeLine? line :: rest) := by
  rcases chomp_or line with same | ends
  · rw [same]
    exact ⟨rfl, rfl⟩
  · have whole := decodeLine?_append (chomp line)
    rw [← ends] at whole
    rw [whole]
    cases decodeLine? (chomp line) with
    | none => exact ⟨rfl, rfl⟩
    | some text =>
      refine ⟨?_, rfl⟩
      rw [Option.map_some, commands_cons, commands_cons, read_append]

/-- Input typed in another way in one place **asks for the same commands**. -/
theorem askAlike_of_retype {a b : List UInt8} (retype : Retype a b) :
    AskAlike (readLines a) (readLines b) := by
  cases retype with
  | drop complete within reads refused =>
    rw [readLines_append complete, readLines_append complete, readLines_line within, reads]
    exact (askAlike_drop refused _).append _
  | @dropLast _ line _ complete within reads refused =>
    by_cases nothing : line = []
    · rw [nothing, List.append_nil]
      exact ⟨rfl, rfl⟩
    · have alone : readLines line = [decodeLine? line] := by
        rw [readLines, splitLines_last within nothing]
        rfl
      have shorter := (askAlike_drop refused []).append (readLines b)
      rw [readLines_append complete, alone, reads]
      rwa [List.append_nil] at shorter
  | @ending front line rest complete within =>
    have within' : lineFeed ∉ line ++ [carriageReturn] := by
      simpa [lineFeed, carriageReturn] using within
    have longer := readLines_line within' rest
    rw [List.append_assoc, chomp_append] at longer
    rw [readLines_append complete, readLines_append complete, readLines_line within]
    exact longer ▸ (askAlike_ending line _).append _

/-- Input **typed in another way** asks for the same commands, and breaks off or not alike. -/
theorem askAlike_of_retyped {a b : List UInt8} (retyped : Retyped a b) :
    AskAlike (readLines a) (readLines b) := by
  induction retyped with
  | rel a b retype => exact askAlike_of_retype retype
  | refl a => exact ⟨rfl, rfl⟩
  | symm a b _ ih => exact ⟨ih.1.symm, ih.2.symm⟩
  | trans a b c _ _ ih ih' => exact ⟨ih.1.trans ih'.1, ih.2.trans ih'.2⟩

end RuleDispatch.Console
