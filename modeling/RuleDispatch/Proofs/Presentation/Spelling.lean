import Mathlib
import RuleDispatch.Proofs.Presentation.Lexemes

/-! # Documents however they are spelled

One value can be spelled in many ways: with blanks between its parts, with its numbers in any
notation, with characters escaped or plain, with the fields of its objects in any order. The reader
makes the same of all of them, as long as each number and each text in them can be read and lists
and objects do not nest too deep.

* `Json.Passage`, `Json.Spells` — the grammar: what a passage of a document spells.
* `Json.writesText_iff`, `Json.exists_writesNumber_iff` — which texts are those of a text or a number.
* `Json.Spells.read` — the reader gives what is spelled.
* `Json.Document`, `Json.read_document` — whole documents. -/

namespace RuleDispatch

namespace Json

/-! ## 1. The grammar -/

/-- Nothing but blanks. -/
def Blank (text : List Char) : Prop :=
  ∀ c ∈ text, isSpace c = true

/-- The text of **a number** that can be held, by itself: a numeral that is not out of range. -/
def WritesNumber (text : List Char) (n : Number) : Prop :=
  readNumber text = .ok (n, [])

/-- The text of **characters** that can be held, by itself, from after the opening quote to the closing
one: each of them plain or escaped. -/
def WritesText (text : List Char) (s : String) : Prop :=
  readText text.length text = .ok (s, [])

/-- What a passage of a document spells: a value, a field, or the entries of a list or of an
object. -/
inductive Passage where
  | value (v : Json)
  | items (items : List Json)
  | field (field : String × Json)
  | fields (fields : List (String × Json))

/-- A text **spells** a passage with lists and objects nested so deep at most. Blanks may stand around
every value, and around the name of a field. -/
inductive Spells : Nat → Passage → List Char → Prop
  /-- The word null. -/
  | null {depth : Nat} : Spells depth (.value .null) ['n', 'u', 'l', 'l']
  /-- The word true. -/
  | yes {depth : Nat} : Spells depth (.value (.bool true)) ['t', 'r', 'u', 'e']
  /-- The word false. -/
  | no {depth : Nat} : Spells depth (.value (.bool false)) ['f', 'a', 'l', 's', 'e']
  /-- A number. -/
  | number {depth : Nat} {n : Number} {text : List Char} (writes : WritesNumber text n) :
      Spells depth (.value (.num n)) text
  /-- A text between quotes. -/
  | text {depth : Nat} {s : String} {chars : List Char} (writes : WritesText chars s) :
      Spells depth (.value (.str s)) ('"' :: chars)
  /-- A list without items, one level deeper. -/
  | noItems {depth : Nat} {gap : List Char} (blank : Blank gap) :
      Spells (depth + 1) (.value (.arr [])) ('[' :: (gap ++ [']']))
  /-- A list with items, one level deeper. -/
  | list {depth : Nat} {items : List Json} {text : List Char}
      (entries : Spells depth (.items items) text) :
      Spells (depth + 1) (.value (.arr items)) ('[' :: (text ++ [']']))
  /-- An object without fields, one level deeper. -/
  | noFields {depth : Nat} {gap : List Char} (blank : Blank gap) :
      Spells (depth + 1) (.value (ofFields [])) ('\x7b' :: (gap ++ ['\x7d']))
  /-- An object with fields, one level deeper; of fields with one name the last one counts. -/
  | object {depth : Nat} {fields : List (String × Json)} {text : List Char}
      (entries : Spells depth (.fields fields) text) :
      Spells (depth + 1) (.value (ofFields fields)) ('\x7b' :: (text ++ ['\x7d']))
  /-- Blanks around a value. -/
  | padded {depth : Nat} {v : Json} {before text after : List Char} (front : Blank before)
      (value : Spells depth (.value v) text) (back : Blank after) :
      Spells depth (.value v) (before ++ (text ++ after))
  /-- The last item of a list. -/
  | lastItem {depth : Nat} {v : Json} {text : List Char} (value : Spells depth (.value v) text) :
      Spells depth (.items [v]) text
  /-- An item and a comma, with others after it. -/
  | moreItems {depth : Nat} {v : Json} {items : List Json} {text more : List Char}
      (value : Spells depth (.value v) text) (others : Spells depth (.items items) more) :
      Spells depth (.items (v :: items)) (text ++ ',' :: more)
  /-- A field: its name between quotes, a colon and its value. -/
  | field {depth : Nat} {name : String} {v : Json} {before chars after text : List Char}
      (front : Blank before) (writes : WritesText chars name) (back : Blank after)
      (value : Spells depth (.value v) text) :
      Spells depth (.field (name, v)) (before ++ '"' :: (chars ++ (after ++ ':' :: text)))
  /-- The last field of an object. -/
  | lastField {depth : Nat} {field : String × Json} {text : List Char}
      (first : Spells depth (.field field) text) : Spells depth (.fields [field]) text
  /-- A field and a comma, with others after it. -/
  | moreFields {depth : Nat} {field : String × Json} {fields : List (String × Json)}
      {text more : List Char} (first : Spells depth (.field field) text)
      (others : Spells depth (.fields fields) more) :
      Spells depth (.fields (field :: fields)) (text ++ ',' :: more)

/-- **Nothing** is blank. -/
theorem blank_nil : Blank [] := fun _ member => absurd member List.not_mem_nil

/-- Blanks **one after another** are blank. -/
theorem Blank.append {gap more : List Char} (blank : Blank gap) (blank' : Blank more) :
    Blank (gap ++ more) := fun c member =>
  (List.mem_append.mp member).elim (blank c) (blank' c)

/-! ## 2. Tokens, whatever follows -/

/-- A text is written by **what stands inside its quotes**, with the closing one. -/
theorem writesText_iff {text : List Char} {s : String} :
    WritesText text s ↔ ∃ inside, text = inside ++ ['"'] ∧ Quotes inside s.toList := by
  constructor
  · exact exists_quotes_of_readText
  · rintro ⟨inside, rfl, quotes⟩
    exact quotes.readText (by simp) []

/-- Numbers are written **as numerals**, each of them that is not out of range. -/
theorem exists_writesNumber_iff {text : List Char} : (∃ n, WritesNumber text n)
    ↔ StandardNumeral text
      ∧ ∀ fault, readNumber text = .error fault → fault.cause ≠ .numberOutOfRange := by
  constructor
  · rintro ⟨n, h⟩
    obtain ⟨used, split, numeral⟩ := exists_standardNumeral h
    rw [List.append_nil] at split
    refine ⟨split ▸ numeral, fun fault refused => ?_⟩
    rw [h] at refused
    cases refused
  · rintro ⟨numeral, in_range⟩
    rcases numeral.read with held | ⟨fault, refused, out_of_range⟩
    · exact held
    · exact absurd out_of_range (in_range fault refused)

/-- A **text** is read whatever follows its closing quote. -/
theorem WritesText.readText {text : List Char} {s : String} (h : WritesText text s) {fuel : Nat}
    {rest : List Char} (enough : (text ++ rest).length ≤ fuel) :
    Json.readText fuel (text ++ rest) = .ok (s, rest) := by
  obtain ⟨inside, rfl, quotes⟩ := writesText_iff.mp h
  have short : inside.length < fuel := by
    simp only [List.length_append, List.length_singleton] at enough
    omega
  rw [List.append_assoc, List.singleton_append]
  exact quotes.readText short rest

/-- A **number** is read whatever ends it. -/
theorem WritesNumber.readNumber {text : List Char} {n : Number} (h : WritesNumber text n)
    {rest : List Char} (ends : Ends rest) : Json.readNumber (text ++ rest) = .ok (n, rest) := by
  have some_text : text ≠ [] := by
    rintro rfl
    cases h
  refine eq_ok_of_toOption ?_
  rw [readNumber_append ends some_text, show Json.readNumber text = .ok (n, []) from h]
  rfl

/-- A number **begins like one**. -/
theorem WritesNumber.opens {text : List Char} {n : Number} (h : WritesNumber text n) :
    ∃ c more, text = c :: more ∧ opensNumeral c = true :=
  (exists_writesNumber_iff.mp ⟨n, h⟩).1.opens

/-! ## 3. Blanks -/

/-- Blanks in front **are skipped**. -/
theorem skipSpaces_append {gap : List Char} (blank : Blank gap) (text : List Char) :
    skipSpaces (gap ++ text) = skipSpaces text := by
  induction gap with
  | nil => rfl
  | cons c gap ih =>
    rw [List.cons_append, skipSpaces, List.dropWhile_cons_of_pos (blank c List.mem_cons_self)]
    exact ih fun d member => blank d (List.mem_cons_of_mem c member)

/-- Blanks in front are passed over **up to the first character that is none**. -/
theorem skipSpaces_append_of_eq {text more : List Char} {c : Char}
    (h : skipSpaces text = c :: more) (rest : List Char) :
    skipSpaces (text ++ rest) = c :: (more ++ rest) := by
  induction text with
  | nil => cases h
  | cons d text ih =>
    by_cases blank : isSpace d = true
    · rw [skipSpaces, List.dropWhile_cons_of_pos blank] at h
      rw [List.cons_append, skipSpaces, List.dropWhile_cons_of_pos blank]
      exact ih h
    · rw [Bool.not_eq_true] at blank
      rw [skipSpaces_cons blank] at h
      obtain ⟨rfl, rfl⟩ := List.cons.inj h
      exact skipSpaces_cons blank _

/-- After blanks stands **no further blank**. -/
theorem isSpace_of_skipSpaces {text more : List Char} {c : Char} (h : skipSpaces text = c :: more) :
    isSpace c = false := by
  induction text with
  | nil => cases h
  | cons d text ih =>
    by_cases blank : isSpace d = true
    · rw [skipSpaces, List.dropWhile_cons_of_pos blank] at h
      exact ih h
    · rw [Bool.not_eq_true] at blank
      rw [skipSpaces_cons blank] at h
      obtain ⟨rfl, rfl⟩ := List.cons.inj h
      exact blank

/-- Blanks **end a number**, and so does what follows them if it does. -/
theorem Blank.ends_append {gap rest : List Char} (blank : Blank gap) (ends : Ends rest) :
    Ends (gap ++ rest) := by
  cases gap with
  | nil => exact ends
  | cons c gap =>
    intro d first
    obtain rfl : c = d := Option.some.inj first
    have space : ((c = ' ' ∨ c = '\n') ∨ c = '\t') ∨ c = '\r' := by
      simpa [isSpace] using blank c List.mem_cons_self
    rcases space with ((rfl | rfl) | rfl) | rfl <;> rfl

/-- Blanks in front of a value **do not matter**. -/
theorem readValue_congr {text text' : List Char} (same : skipSpaces text = skipSpaces text')
    (fuel depth : Nat) : readValue (fuel + 1) depth text = readValue (fuel + 1) depth text' := by
  rw [readValue, readValue, same]

/-- Skipping blanks again **skips nothing**. -/
theorem skipSpaces_skipSpaces (text : List Char) : skipSpaces (skipSpaces text) = skipSpaces text :=
  List.dropWhile_idempotent isSpace text

/-! ## 4. The reader gives what is spelled -/

/-- A text **begins like a value**, blanks apart. -/
def BeginsValue (text : List Char) : Prop :=
  ∃ c more, skipSpaces text = c :: more ∧ opensValue c = true

/-- **One field** of an object, from its name on. -/
def readField (fuel depth : Nat) (text : List Char) :
    Except Fault ((String × Json) × List Char) := do
  let (name, rest) ← readName fuel text
  let rest ← readColon rest
  let (value, rest) ← readValue fuel depth rest
  return ((name, value), rest)

/-- A field is read by its **name, colon and value**, and reading goes on behind it. -/
theorem readField_bind {α : Type} (fuel depth : Nat) (text : List Char)
    (next : (String × Json) × List Char → Except Fault α) :
    (readField fuel depth text >>= next) = (do
      let (name, rest) ← readName fuel text
      let rest ← readColon rest
      let (value, rest) ← readValue fuel depth rest
      next ((name, value), rest)) := by
  simp only [readField, bind_assoc, pure_bind]

/-- The fields of an object are **one field** and what comes after it. -/
theorem readMoreFields_eq (fuel depth : Nat) (text : List Char) :
    readMoreFields (fuel + 1) depth text = (do
      let (field, rest) ← readField fuel depth text
      match ← readSeparator '\x7d' .endInObject .expectedObjectEnd (skipSpaces rest) with
      | none => return ([field], (skipSpaces rest).tail)
      | some next =>
        let (fields, rest) ← readMoreFields fuel depth next
        return (field :: fields, rest)) := by
  rw [readMoreFields]
  refine Eq.trans ?_ (readField_bind fuel depth text _).symm
  rfl

/-- What the reader makes of a text that **spells a passage**, whatever ends the passage. After a
value it leaves the blanks that stand there. -/
def Passage.Read (depth : Nat) (text : List Char) : Passage → Prop
  | .value v => BeginsValue text ∧ ∃ gap, Blank gap ∧ ∀ fuel room rest, Ends rest → depth < room →
      3 * (text ++ rest).length + 1 ≤ fuel →
        readValue fuel room (text ++ rest) = .ok (v, gap ++ rest)
  | .items entries => BeginsValue text ∧ ∀ fuel room rest, depth < room →
      3 * (text ++ ']' :: rest).length + 2 ≤ fuel →
        readMoreItems fuel room (skipSpaces (text ++ ']' :: rest)) = .ok (entries, rest)
  | .field entry => (∃ more, skipSpaces text = '"' :: more) ∧ ∃ gap, Blank gap ∧
      ∀ fuel room rest, Ends rest → depth < room → 3 * (text ++ rest).length + 1 ≤ fuel →
        readField fuel room (skipSpaces (text ++ rest)) = .ok (entry, gap ++ rest)
  | .fields entries => (∃ more, skipSpaces text = '"' :: more) ∧ ∀ fuel room rest, depth < room →
      3 * (text ++ '\x7d' :: rest).length + 2 ≤ fuel →
        readMoreFields fuel room (skipSpaces (text ++ '\x7d' :: rest)) = .ok (entries, rest)

/-- After a comma the next entry is read **from its first character on**. -/
theorem readSeparator_next {close c : Char} {text more : List Char} (mark : close ≠ ',')
    (front : skipSpaces text = c :: more) (other : c ≠ close) (unfinished unexpected : Cause) :
    readSeparator close unfinished unexpected (',' :: text) = .ok (some (skipSpaces text)) := by
  simp [readSeparator, mark.symm, front, other]

/-- A value is read if it is read **up to its end**, and nothing behind it. -/
theorem Passage.read_of_exact {depth : Nat} {text : List Char} {v : Json}
    (begins : BeginsValue text)
    (exact : ∀ fuel room rest, Ends rest → depth < room → 3 * (text ++ rest).length ≤ fuel →
      (readValue (fuel + 1) room (text ++ rest)).toOption = some (v, rest)) :
    (Passage.value v).Read depth text := by
  refine ⟨begins, [], blank_nil, fun fuel room rest ends shallow enough => eq_ok_of_toOption ?_⟩
  obtain ⟨fuel, rfl⟩ := Nat.exists_eq_add_one_of_ne_zero (by omega : fuel ≠ 0)
  exact exact fuel room rest ends shallow (Nat.le_of_succ_le_succ enough)

/-- The word **null** is read. -/
theorem read_null (depth : Nat) : (Passage.value .null).Read depth ['n', 'u', 'l', 'l'] :=
  Passage.read_of_exact ⟨_, _, rfl, rfl⟩ fun fuel room rest _ _ _ => by
    simp [readValue, skipSpaces_cons (by decide : isSpace 'n' = false), readWord, ok_bind,
      Except.toOption, pure, Except.pure]

/-- The word **true** is read. -/
theorem read_true (depth : Nat) : (Passage.value (.bool true)).Read depth ['t', 'r', 'u', 'e'] :=
  Passage.read_of_exact ⟨_, _, rfl, rfl⟩ fun fuel room rest _ _ _ => by
    simp [readValue, skipSpaces_cons (by decide : isSpace 't' = false), readWord, ok_bind,
      Except.toOption, pure, Except.pure]

/-- The word **false** is read. -/
theorem read_false (depth : Nat) :
    (Passage.value (.bool false)).Read depth ['f', 'a', 'l', 's', 'e'] :=
  Passage.read_of_exact ⟨_, _, rfl, rfl⟩ fun fuel room rest _ _ _ => by
    simp [readValue, skipSpaces_cons (by decide : isSpace 'f' = false), readWord, ok_bind,
      Except.toOption, pure, Except.pure]

/-- A number **written as numbers are** is read. -/
theorem read_number {text : List Char} {n : Number} (h : WritesNumber text n) (depth : Nat) :
    (Passage.value (.num n)).Read depth text := by
  obtain ⟨c, more, rfl, opens⟩ := h.opens
  have value : opensValue c = true := by simp [opensValue, opens]
  have front := skipSpaces_cons (opensValue_apart value).1 more
  refine Passage.read_of_exact ⟨c, more, front, value⟩ fun fuel room rest ends _ _ => ?_
  rw [List.cons_append, readValue_of_opensNumeral opens, ← List.cons_append, h.readNumber ends]
  rfl

/-- A text **between quotes** is read. -/
theorem read_string {chars : List Char} {s : String} (h : WritesText chars s) (depth : Nat) :
    (Passage.value (.str s)).Read depth ('"' :: chars) := by
  refine Passage.read_of_exact ⟨_, _, rfl, rfl⟩ fun fuel room rest _ _ enough => ?_
  rw [List.cons_append, List.length_cons] at enough
  rw [List.cons_append, readValue_quote, h.readText (by omega)]
  rfl

/-- A list **without items** is read. -/
theorem read_noItems {gap : List Char} (blank : Blank gap) (depth : Nat) :
    (Passage.value (.arr [])).Read (depth + 1) ('[' :: (gap ++ [']'])) := by
  refine Passage.read_of_exact ⟨_, _, rfl, rfl⟩ fun fuel room rest _ shallow enough => ?_
  simp only [List.cons_append, List.append_assoc, List.length_cons, List.nil_append] at enough ⊢
  obtain ⟨fuel, rfl⟩ := Nat.exists_eq_add_one_of_ne_zero (by omega : fuel ≠ 0)
  rw [readValue_bracket (by omega), readItems, skipSpaces_append blank]
  rfl

/-- A **list** is read if its items are. -/
theorem read_list {text : List Char} {items : List Json} {depth : Nat}
    (entries : (Passage.items items).Read depth text) :
    (Passage.value (.arr items)).Read (depth + 1) ('[' :: (text ++ [']'])) := by
  obtain ⟨⟨c, more, front, opens⟩, read⟩ := entries
  refine Passage.read_of_exact ⟨_, _, rfl, rfl⟩ fun fuel room rest _ shallow enough => ?_
  simp only [List.cons_append, List.append_assoc, List.length_cons, List.nil_append] at enough ⊢
  obtain ⟨fuel, rfl⟩ := Nat.exists_eq_add_one_of_ne_zero (by omega : fuel ≠ 0)
  -- inside there is room for one level less, and the bracket has left three steps more than needed
  have inside := read fuel (room - 1) rest (by omega)
    (by simp only [List.length_append, List.length_cons] at enough ⊢; omega)
  have front' := skipSpaces_append_of_eq front (']' :: rest)
  rw [front'] at inside
  rw [readValue_bracket (by omega), readItems, front']
  simp only [if_neg (opensValue_apart opens).2.1, inside]
  rfl

/-- An object **without fields** is read. -/
theorem read_noFields {gap : List Char} (blank : Blank gap) (depth : Nat) :
    (Passage.value (ofFields [])).Read (depth + 1) ('\x7b' :: (gap ++ ['\x7d'])) := by
  refine Passage.read_of_exact ⟨_, _, rfl, rfl⟩ fun fuel room rest _ shallow enough => ?_
  simp only [List.cons_append, List.append_assoc, List.length_cons, List.nil_append] at enough ⊢
  obtain ⟨fuel, rfl⟩ := Nat.exists_eq_add_one_of_ne_zero (by omega : fuel ≠ 0)
  rw [readValue_brace (by omega), readFields, skipSpaces_append blank]
  rfl

/-- An **object** is read if its fields are. -/
theorem read_object {text : List Char} {fields : List (String × Json)} {depth : Nat}
    (entries : (Passage.fields fields).Read depth text) :
    (Passage.value (ofFields fields)).Read (depth + 1) ('\x7b' :: (text ++ ['\x7d'])) := by
  obtain ⟨⟨more, front⟩, read⟩ := entries
  refine Passage.read_of_exact ⟨_, _, rfl, rfl⟩ fun fuel room rest _ shallow enough => ?_
  simp only [List.cons_append, List.append_assoc, List.length_cons, List.nil_append] at enough ⊢
  obtain ⟨fuel, rfl⟩ := Nat.exists_eq_add_one_of_ne_zero (by omega : fuel ≠ 0)
  have inside := read fuel (room - 1) rest (by omega)
    (by simp only [List.length_append, List.length_cons] at enough ⊢; omega)
  have front' := skipSpaces_append_of_eq front ('\x7d' :: rest)
  rw [front'] at inside
  rw [readValue_brace (by omega), readFields, front']
  simp only [if_neg (by decide : ¬ '"' = '\x7d'), inside]
  rfl

/-- A value is read **between blanks** as well. -/
theorem read_padded {depth : Nat} {v : Json} {before text after : List Char} (front : Blank before)
    (value : (Passage.value v).Read depth text) (back : Blank after) :
    (Passage.value v).Read depth (before ++ (text ++ after)) := by
  obtain ⟨⟨c, more, first, opens⟩, gap, blank, read⟩ := value
  refine ⟨⟨c, more ++ after, ?_, opens⟩, gap ++ after, blank.append back,
    fun fuel room rest ends shallow enough => ?_⟩
  · rw [skipSpaces_append front, skipSpaces_append_of_eq first]
  · simp only [List.append_assoc, List.length_append] at enough ⊢
    obtain ⟨fuel, rfl⟩ := Nat.exists_eq_add_one_of_ne_zero (by omega : fuel ≠ 0)
    rw [readValue_congr (skipSpaces_append front _), read _ _ _ (back.ends_append ends) shallow
      (by simp only [List.length_append]; omega)]

/-- One item is read **up to the end of its list**. -/
theorem read_item {depth : Nat} {v : Json} {text : List Char}
    (value : (Passage.value v).Read depth text) : (Passage.items [v]).Read depth text := by
  obtain ⟨begins, gap, blank, read⟩ := value
  refine ⟨begins, fun fuel room rest shallow enough => ?_⟩
  obtain ⟨fuel, rfl⟩ := Nat.exists_eq_add_one_of_ne_zero (by omega : fuel ≠ 0)
  obtain ⟨fuel, rfl⟩ := Nat.exists_eq_add_one_of_ne_zero (by omega : fuel ≠ 0)
  have here := read (fuel + 1) room (']' :: rest) (closed_cons rfl rest).ends shallow (by omega)
  rw [← readValue_congr (skipSpaces_skipSpaces _)] at here
  rw [readMoreItems, here, ok_bind]
  dsimp only
  rw [skipSpaces_append blank, skipSpaces_cons (by decide), readSeparator_close, ok_bind]
  rfl

/-- Items are read **the first and then the others**. -/
theorem read_moreItems {depth : Nat} {v : Json} {items : List Json} {text more : List Char}
    (value : (Passage.value v).Read depth text) (others : (Passage.items items).Read depth more) :
    (Passage.items (v :: items)).Read depth (text ++ ',' :: more) := by
  obtain ⟨⟨c, start, first, opens⟩, gap, blank, read⟩ := value
  obtain ⟨⟨d, next, front, opens'⟩, later⟩ := others
  refine ⟨⟨c, start ++ ',' :: more, skipSpaces_append_of_eq first _, opens⟩,
    fun fuel room rest shallow enough => ?_⟩
  simp only [List.append_assoc, List.cons_append] at enough ⊢
  obtain ⟨fuel, rfl⟩ := Nat.exists_eq_add_one_of_ne_zero (by omega : fuel ≠ 0)
  obtain ⟨fuel, rfl⟩ := Nat.exists_eq_add_one_of_ne_zero (by omega : fuel ≠ 0)
  -- the first item ends at the comma, the others end where the list does
  have here := read (fuel + 1) room (',' :: (more ++ ']' :: rest)) (closed_cons rfl _).ends
    shallow (by omega)
  have there := later (fuel + 1) room rest shallow
    (by simp only [List.length_append, List.length_cons] at enough ⊢; omega)
  rw [← readValue_congr (skipSpaces_skipSpaces _)] at here
  rw [readMoreItems, here, ok_bind]
  dsimp only
  rw [skipSpaces_append blank, skipSpaces_cons (by decide),
    readSeparator_next (by decide) (skipSpaces_append_of_eq front _) (opensValue_apart opens').2.1,
    ok_bind]
  dsimp only
  rw [there]
  rfl

/-- A field is read **from its name on**, the blanks before it apart. -/
theorem read_field {depth : Nat} {name : String} {v : Json} {before chars after text : List Char}
    (front : Blank before) (writes : WritesText chars name) (back : Blank after)
    (value : (Passage.value v).Read depth text) :
    (Passage.field (name, v)).Read depth
      (before ++ '"' :: (chars ++ (after ++ ':' :: text))) := by
  obtain ⟨-, gap, blank, read⟩ := value
  refine ⟨⟨chars ++ (after ++ ':' :: text), skipSpaces_append front _⟩, gap, blank,
    fun fuel room rest ends shallow enough => ?_⟩
  simp only [List.append_assoc, List.cons_append, List.length_append, List.length_cons] at enough ⊢
  have here := read fuel room rest ends shallow (by rw [List.length_append]; omega)
  have named : Json.readText fuel (chars ++ (after ++ ':' :: (text ++ rest)))
      = .ok (name, after ++ ':' :: (text ++ rest)) :=
    writes.readText (by simp only [List.length_append, List.length_cons]; omega)
  rw [skipSpaces_append front, skipSpaces_cons (by decide), readField, readName, named, ok_bind]
  dsimp only
  rw [readColon, skipSpaces_append back, skipSpaces_cons (by decide)]
  simp only [if_pos, ok_bind, here]
  rfl

/-- One field is read **up to the end of its object**. -/
theorem read_lastField {depth : Nat} {field : String × Json} {text : List Char}
    (first : (Passage.field field).Read depth text) : (Passage.fields [field]).Read depth text := by
  obtain ⟨begins, gap, blank, read⟩ := first
  refine ⟨begins, fun fuel room rest shallow enough => ?_⟩
  obtain ⟨fuel, rfl⟩ := Nat.exists_eq_add_one_of_ne_zero (by omega : fuel ≠ 0)
  rw [readMoreFields_eq, read fuel room _ (closed_cons rfl rest).ends shallow (by omega), ok_bind]
  dsimp only
  rw [skipSpaces_append blank, skipSpaces_cons (by decide), readSeparator_close, ok_bind]
  rfl

/-- Fields are read the first and then the others. -/
theorem read_moreFields {depth : Nat} {field : String × Json} {fields : List (String × Json)}
    {text more : List Char} (first : (Passage.field field).Read depth text)
    (others : (Passage.fields fields).Read depth more) :
    (Passage.fields (field :: fields)).Read depth (text ++ ',' :: more) := by
  obtain ⟨⟨start, begins⟩, gap, blank, read⟩ := first
  obtain ⟨⟨next, front⟩, later⟩ := others
  refine ⟨⟨start ++ ',' :: more, skipSpaces_append_of_eq begins _⟩,
    fun fuel room rest shallow enough => ?_⟩
  simp only [List.append_assoc, List.cons_append] at enough ⊢
  obtain ⟨fuel, rfl⟩ := Nat.exists_eq_add_one_of_ne_zero (by omega : fuel ≠ 0)
  have there := later fuel room rest shallow
    (by simp only [List.length_append, List.length_cons] at enough ⊢; omega)
  rw [readMoreFields_eq, read fuel room _ (closed_cons rfl _).ends shallow (by omega), ok_bind]
  dsimp only
  rw [skipSpaces_append blank, skipSpaces_cons (by decide),
    readSeparator_next (by decide) (skipSpaces_append_of_eq front _) (by decide), ok_bind]
  dsimp only
  rw [there]
  rfl

/-- **What is spelled is read.** -/
theorem Spells.read {depth : Nat} {passage : Passage} {text : List Char}
    (spells : Spells depth passage text) : passage.Read depth text := by
  induction spells with
  | null => exact read_null _
  | yes => exact read_true _
  | no => exact read_false _
  | number writes => exact read_number writes _
  | text writes => exact read_string writes _
  | noItems blank => exact read_noItems blank _
  | list _ entries => exact read_list entries
  | noFields blank => exact read_noFields blank _
  | object _ entries => exact read_object entries
  | padded front _ back value => exact read_padded front value back
  | lastItem _ value => exact read_item value
  | moreItems _ _ value others => exact read_moreItems value others
  | field front writes back _ value => exact read_field front writes back value
  | lastField _ first => exact read_lastField first
  | moreFields _ _ first others => exact read_moreFields first others

/-! ## 5. Documents -/

/-- A **document** of a value: a text that spells it, with lists and objects nested up to the limit. -/
def Document (text : String) (v : Json) : Prop :=
  Spells (depthLimit - 1) (.value v) text.toList

/-- **Every document is read** as the value that it spells. -/
theorem Document.read {text : String} {v : Json} (h : Document text v) : Json.read text = .ok v := by
  obtain ⟨-, gap, blank, read⟩ := Spells.read h
  have whole := read (stepBound text.toList) depthLimit [] (closed_nil).ends (by decide)
    (by rw [List.append_nil, stepBound]; omega)
  rw [List.append_nil, List.append_nil] at whole
  -- only blanks stand behind the value
  have none_left : skipSpaces gap = [] := by
    rw [← List.append_nil gap, skipSpaces_append blank, skipSpaces_nil]
  rw [Json.read, readDocument, whole, ok_bind]
  dsimp only
  rw [none_left]
  rfl

end Json

end RuleDispatch
