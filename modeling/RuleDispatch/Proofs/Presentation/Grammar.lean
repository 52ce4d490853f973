import Mathlib
import RuleDispatch.Proofs.Presentation.Spelling

/-! # Nothing else is read

What the reader takes of a text spells what it read: a number that is read was written as one, so was
a text, and a list, an object or a field is made of its parts with blanks between them. With the other
direction the grammar says exactly which texts are documents.

* `Json.exists_writesNumber`, `Json.exists_writesText` — what was taken of a text for a token.
* `Json.Took` — the same for values, items and fields, with any number of steps.
* `Json.read_eq_ok_iff` — the reader accepts the documents of the grammar and nothing else.
* `Json.readDocument_brackets_ne_ok` — what nests as deep as the limit is no document. -/

namespace RuleDispatch

namespace Json

/-! ## 1. Tokens -/

/-- **A number that is read** was written by what was taken of the text, if what is left ends it. -/
theorem exists_writesNumber {text rest : List Char} {n : Number}
    (h : readNumber text = .ok (n, rest)) (ends : Ends rest) :
    ∃ used, text = used ++ rest ∧ WritesNumber used n := by
  obtain ⟨used, rfl, numeral⟩ := exists_standardNumeral h
  obtain ⟨c, more, some_text, -⟩ := numeral.opens
  have whole := readNumber_append ends (some_text ▸ List.cons_ne_nil c more)
  rw [h] at whole
  obtain ⟨⟨n', left⟩, alone, same⟩ := Option.map_eq_some_iff.mp whole.symm
  obtain ⟨rfl, none_left⟩ := Prod.mk.inj same
  have nothing : left = [] := by simpa [extend] using none_left
  rw [nothing] at alone
  exact ⟨used, rfl, eq_ok_of_toOption alone⟩

/-- **A text that is read** was written by what was taken of the text. -/
theorem exists_writesText {fuel : Nat} {text rest : List Char} {s : String}
    (h : readText fuel text = .ok (s, rest)) :
    ∃ used, text = used ++ rest ∧ WritesText used s := by
  obtain ⟨inside, rfl, quotes⟩ := exists_quotes_of_readText h
  refine ⟨inside ++ ['"'], by rw [List.append_assoc, List.singleton_append], ?_⟩
  exact writesText_iff.mpr ⟨inside, rfl, quotes⟩

/-! ## 2. Blanks around a passage -/

/-- A text **starts with the blanks** that are skipped. -/
theorem exists_gap (text : List Char) : ∃ gap, Blank gap ∧ text = gap ++ skipSpaces text :=
  ⟨text.takeWhile isSpace, fun _ member => List.mem_takeWhile_imp member,
    List.takeWhile_append_dropWhile.symm⟩

/-- What comes after the blanks **decides whether a number ends** before them. -/
theorem ends_of_skipSpaces {rest : List Char} (h : Ends (skipSpaces rest)) : Ends rest := by
  obtain ⟨gap, blank, split⟩ := exists_gap rest
  rw [split]
  exact blank.ends_append h

variable {depth : Nat} {gap text : List Char}

/-- Blanks **in front of** a value spell nothing more. -/
theorem Spells.indented {v : Json} (h : Spells depth (.value v) text) (blank : Blank gap) :
    Spells depth (.value v) (gap ++ text) := by
  have padded := Spells.padded blank h blank_nil
  rwa [List.append_nil] at padded

/-- Blanks **behind** a value spell nothing more. -/
theorem Spells.followed {v : Json} (h : Spells depth (.value v) text) (blank : Blank gap) :
    Spells depth (.value v) (text ++ gap) :=
  Spells.padded blank_nil h blank

/-- Blanks may stand **before the first item**. -/
theorem Spells.indented_items {items : List Json} (h : Spells depth (.items items) text)
    (blank : Blank gap) : Spells depth (.items items) (gap ++ text) := by
  cases h with
  | lastItem value => exact .lastItem (value.indented blank)
  | moreItems value others =>
    rw [← List.append_assoc]
    exact .moreItems (value.indented blank) others

/-- Blanks **in front of a field** spell nothing more. -/
theorem Spells.indented_field {field : String × Json} (h : Spells depth (.field field) text)
    (blank : Blank gap) : Spells depth (.field field) (gap ++ text) := by
  cases h with
  | field front writes back value =>
    rw [← List.append_assoc]
    exact .field (blank.append front) writes back value

/-- Blanks may stand **before the first field**. -/
theorem Spells.indented_fields {fields : List (String × Json)}
    (h : Spells depth (.fields fields) text) (blank : Blank gap) :
    Spells depth (.fields fields) (gap ++ text) := by
  cases h with
  | lastField first => exact .lastField (first.indented_field blank)
  | moreFields first others =>
    rw [← List.append_assoc]
    exact .moreFields (first.indented_field blank) others

/-- Blanks may stand **after a field**. -/
theorem Spells.followed_field {field : String × Json} (h : Spells depth (.field field) text)
    (blank : Blank gap) : Spells depth (.field field) (text ++ gap) := by
  cases h with
  | @field _ name v before chars after text front writes back value =>
    have followed := Spells.field front writes back (value.followed blank)
    simpa only [List.append_assoc, List.cons_append] using followed

/-! ## 3. Values -/

/-- A word that is read **stands at the front**. -/
theorem eq_append_of_readWord {word text rest : List Char} (h : readWord word text = .ok rest) :
    text = word ++ rest := by
  induction word generalizing text with
  | nil =>
    cases h
    rfl
  | cons w word ih =>
    cases text with
    | nil => cases h
    | cons c text =>
      rw [readWord] at h
      split_ifs at h with same
      rw [same, List.cons_append, ← ih h]

/-- What **follows an entry**: the mark that closes its list or object, or a comma and the next. -/
theorem readSeparator_eq_ok {close : Char} {unfinished unexpected : Cause} {text : List Char}
    {next : Option (List Char)} (h : readSeparator close unfinished unexpected text = .ok next) :
    (next = none ∧ ∃ more, text = close :: more)
      ∨ ∃ more, next = some (skipSpaces more) ∧ text = ',' :: more := by
  cases text with
  | nil => cases h
  | cons c text =>
    rw [readSeparator] at h
    by_cases closing : c = close
    · rw [if_pos closing] at h
      cases h
      exact .inl ⟨rfl, text, by rw [closing]⟩
    · rw [if_neg closing] at h
      by_cases comma : c = ','
      · rw [if_pos comma] at h
        refine .inr ⟨text, ?_, by rw [comma]⟩
        cases skipped : skipSpaces text with
        | nil =>
          rw [skipped] at h
          cases h
        | cons d more =>
          rw [skipped] at h
          dsimp only at h
          split_ifs at h
          cases h
          rfl
      · rw [if_neg comma] at h
        cases h

/-- Where a colon is read, **it stands there**, behind blanks at most. -/
theorem readColon_eq_ok {text rest : List Char} (h : readColon text = .ok rest) :
    skipSpaces text = ':' :: rest := by
  unfold readColon at h
  split at h
  · cases h
  · next c after skipped =>
    split_ifs at h with colon
    cases h
    rw [skipped, colon]

/-- Where a name is read, **it stands there**, between quotes. -/
theorem exists_readName {fuel : Nat} {text rest : List Char} {name : String}
    (h : readName fuel text = .ok (name, rest)) :
    ∃ chars, text = '"' :: (chars ++ rest) ∧ WritesText chars name := by
  unfold readName at h
  split at h
  · obtain ⟨chars, rfl, writes⟩ := exists_writesText h
    exact ⟨chars, rfl, writes⟩
  · cases h

/-- The text that a reader took **spells what it read**. Behind a value stands nothing that goes on
with a number. -/
structure Took (fuel : Nat) : Prop where
  value : ∀ {depth : Nat} {text rest : List Char} {v : Json},
    readValue fuel (depth + 1) text = .ok (v, rest) → Ends rest →
      ∃ used, text = used ++ rest ∧ Spells depth (.value v) used
  items : ∀ {depth : Nat} {text rest : List Char} {items : List Json},
    readItems fuel (depth + 1) text = .ok (items, rest) →
      ∃ used, text = used ++ ']' :: rest ∧ (Blank used ∧ items = [] ∨ Spells depth (.items items) used)
  moreItems : ∀ {depth : Nat} {text rest : List Char} {items : List Json},
    readMoreItems fuel (depth + 1) text = .ok (items, rest) →
      ∃ used, text = used ++ ']' :: rest ∧ Spells depth (.items items) used
  fields : ∀ {depth : Nat} {text rest : List Char} {fields : List (String × Json)},
    readFields fuel (depth + 1) text = .ok (fields, rest) →
      ∃ used, text = used ++ '\x7d' :: rest
        ∧ (Blank used ∧ fields = [] ∨ Spells depth (.fields fields) used)
  moreFields : ∀ {depth : Nat} {text rest : List Char} {fields : List (String × Json)},
    readMoreFields fuel (depth + 1) text = .ok (fields, rest) →
      ∃ used, text = used ++ '\x7d' :: rest ∧ Spells depth (.fields fields) used

/-- A reader that **may not read any deeper** takes nothing. -/
theorem took_zero : Took 0 where
  value h := by
    rw [readValue] at h
    cases h
  items h := by
    rw [readItems] at h
    cases h
  moreItems h := by
    rw [readMoreItems] at h
    cases h
  fields h := by
    rw [readFields] at h
    cases h
  moreFields h := by
    rw [readMoreFields] at h
    cases h

variable {fuel : Nat}

/-- A word that stands for a value. -/
theorem exists_spells_word {word : List Char} {c : Char} {value v : Json} {text rest : List Char}
    (spells : ∀ depth, Spells depth (.value value) (c :: word))
    (h : (do return (value, ← readWord word text) : Except Fault (Json × List Char)) = .ok (v, rest)) :
    ∃ used, c :: text = used ++ rest ∧ Spells depth (.value v) used := by
  obtain ⟨after, read, h⟩ := exists_of_bind_eq_ok h
  cases h
  exact ⟨c :: word, by rw [eq_append_of_readWord read, List.cons_append], spells depth⟩

/-- A value from its **first character** on. -/
theorem Took.exists_spells (took : Took fuel) {c : Char} {more rest : List Char} {v : Json}
    (blank : isSpace c = false) (h : readValue (fuel + 1) (depth + 1) (c :: more) = .ok (v, rest))
    (ends : Ends rest) : ∃ used, c :: more = used ++ rest ∧ Spells depth (.value v) used := by
  rw [readValue, skipSpaces_cons blank] at h
  dsimp only at h
  split_ifs at h with null yes no numeral quote bracket shallow brace shallow'
  · subst null
    exact exists_spells_word (fun _ => .null) h
  · subst yes
    exact exists_spells_word (fun _ => .yes) h
  · subst no
    exact exists_spells_word (fun _ => .no) h
  · obtain ⟨⟨n, after⟩, read, h⟩ := exists_of_bind_eq_ok h
    cases h
    obtain ⟨used, split, writes⟩ := exists_writesNumber read ends
    exact ⟨used, split, .number writes⟩
  · obtain ⟨⟨s, after⟩, read, h⟩ := exists_of_bind_eq_ok h
    cases h
    obtain ⟨chars, rfl, writes⟩ := exists_writesText read
    exact ⟨'"' :: chars, by rw [quote, List.cons_append], .text writes⟩
  · cases h
  · obtain ⟨⟨items, after⟩, read, h⟩ := exists_of_bind_eq_ok h
    cases h
    -- the bracket takes one level, so a level is left for it
    obtain ⟨depth, rfl⟩ := Nat.exists_eq_add_one_of_ne_zero (by omega : depth ≠ 0)
    obtain ⟨used, rfl, ⟨blank, rfl⟩ | entries⟩ := took.items read
    · exact ⟨_, by simp [bracket], .noItems blank⟩
    · exact ⟨_, by simp [bracket], .list entries⟩
  · cases h
  · obtain ⟨⟨fields, after⟩, read, h⟩ := exists_of_bind_eq_ok h
    cases h
    obtain ⟨depth, rfl⟩ := Nat.exists_eq_add_one_of_ne_zero (by omega : depth ≠ 0)
    obtain ⟨used, rfl, ⟨blank, rfl⟩ | entries⟩ := took.fields read
    · exact ⟨_, by simp [brace], .noFields blank⟩
    · exact ⟨_, by simp [brace], .object entries⟩

/-- A reader of values **one level deeper** takes what spells its value. -/
theorem Took.value_succ (took : Took fuel) {text rest : List Char} {v : Json}
    (h : readValue (fuel + 1) (depth + 1) text = .ok (v, rest)) (ends : Ends rest) :
    ∃ used, text = used ++ rest ∧ Spells depth (.value v) used := by
  obtain ⟨gap, blank, split⟩ := exists_gap text
  rw [← readValue_congr (skipSpaces_skipSpaces text)] at h
  cases first : skipSpaces text with
  | nil =>
    rw [first, readValue] at h
    cases h
  | cons c more =>
    rw [first] at h split
    obtain ⟨used, same, spells⟩ := took.exists_spells (isSpace_of_skipSpaces first) h ends
    exact ⟨gap ++ used, by rw [split, same, List.append_assoc], spells.indented blank⟩

/-- The same of **what may stand in a list**. -/
theorem Took.items_succ (took : Took fuel) {text rest : List Char} {items : List Json}
    (h : readItems (fuel + 1) (depth + 1) text = .ok (items, rest)) :
    ∃ used, text = used ++ ']' :: rest
      ∧ (Blank used ∧ items = [] ∨ Spells depth (.items items) used) := by
  obtain ⟨gap, blank, split⟩ := exists_gap text
  rw [readItems] at h
  cases first : skipSpaces text with
  | nil =>
    rw [first] at h
    cases h
  | cons c more =>
    rw [first] at h split
    dsimp only at h
    split_ifs at h with closing
    · cases h
      exact ⟨gap, by rw [split, closing], .inl ⟨blank, rfl⟩⟩
    · obtain ⟨used, same, spells⟩ := took.moreItems h
      exact ⟨gap ++ used, by rw [split, same, List.append_assoc], .inr (spells.indented_items blank)⟩

/-- The same of **what goes on with a list**. -/
theorem Took.moreItems_succ (took : Took fuel) {text rest : List Char} {items : List Json}
    (h : readMoreItems (fuel + 1) (depth + 1) text = .ok (items, rest)) :
    ∃ used, text = used ++ ']' :: rest ∧ Spells depth (.items items) used := by
  rw [readMoreItems] at h
  obtain ⟨⟨item, after⟩, read, h⟩ := exists_of_bind_eq_ok h
  obtain ⟨next, separator, h⟩ := exists_of_bind_eq_ok h
  obtain ⟨gap, blank, split⟩ := exists_gap after
  dsimp only at separator h
  obtain ⟨rfl, more, closing⟩ | ⟨more, rfl, comma⟩ := readSeparator_eq_ok separator
  · obtain ⟨used, taken, spells⟩ :=
      took.value read (ends_of_skipSpaces (closing ▸ (closed_cons rfl more).ends))
    rw [closing] at h split
    cases h
    exact ⟨used ++ gap, by rw [taken, split, List.tail_cons, List.append_assoc],
      .lastItem (spells.followed blank)⟩
  · obtain ⟨used, taken, spells⟩ :=
      took.value read (ends_of_skipSpaces (comma ▸ (closed_cons rfl more).ends))
    obtain ⟨⟨later, rest'⟩, read', h⟩ := exists_of_bind_eq_ok h
    cases h
    obtain ⟨used', same, spells'⟩ := took.moreItems read'
    obtain ⟨gap', blank', split'⟩ := exists_gap more
    refine ⟨(used ++ gap) ++ ',' :: (gap' ++ used'), ?_,
      .moreItems (spells.followed blank) (spells'.indented_items blank')⟩
    rw [taken, split, comma, split', same]
    simp only [List.append_assoc, List.cons_append]

/-- The same of **what may stand in an object**. -/
theorem Took.fields_succ (took : Took fuel) {text rest : List Char} {fields : List (String × Json)}
    (h : readFields (fuel + 1) (depth + 1) text = .ok (fields, rest)) :
    ∃ used, text = used ++ '\x7d' :: rest
      ∧ (Blank used ∧ fields = [] ∨ Spells depth (.fields fields) used) := by
  obtain ⟨gap, blank, split⟩ := exists_gap text
  rw [readFields] at h
  cases first : skipSpaces text with
  | nil =>
    rw [first] at h
    cases h
  | cons c more =>
    rw [first] at h split
    dsimp only at h
    split_ifs at h with closing
    · cases h
      exact ⟨gap, by rw [split, closing], .inl ⟨blank, rfl⟩⟩
    · obtain ⟨used, same, spells⟩ := took.moreFields h
      exact ⟨gap ++ used, by rw [split, same, List.append_assoc], .inr (spells.indented_fields blank)⟩

/-- **One field**, from its name on. -/
theorem Took.field (took : Took fuel) {text rest : List Char} {field : String × Json}
    (h : readField fuel (depth + 1) text = .ok (field, rest)) (ends : Ends rest) :
    ∃ used, text = used ++ rest ∧ Spells depth (.field field) used := by
  obtain ⟨⟨name, after⟩, named, h⟩ := exists_of_bind_eq_ok h
  obtain ⟨after', colon, h⟩ := exists_of_bind_eq_ok h
  obtain ⟨⟨v, after''⟩, read, h⟩ := exists_of_bind_eq_ok h
  cases h
  obtain ⟨chars, rfl, writes⟩ := exists_readName named
  obtain ⟨gap, blank, split⟩ := exists_gap after
  obtain ⟨used, same, spells⟩ := took.value read ends
  refine ⟨_, ?_, .field blank_nil writes blank spells⟩
  rw [split, readColon_eq_ok colon, same]
  simp only [List.nil_append, List.append_assoc, List.cons_append]

/-- The same of **what goes on with an object**. -/
theorem Took.moreFields_succ (took : Took fuel) {text rest : List Char}
    {fields : List (String × Json)}
    (h : readMoreFields (fuel + 1) (depth + 1) text = .ok (fields, rest)) :
    ∃ used, text = used ++ '\x7d' :: rest ∧ Spells depth (.fields fields) used := by
  rw [readMoreFields_eq] at h
  obtain ⟨⟨field, after⟩, read, h⟩ := exists_of_bind_eq_ok h
  obtain ⟨next, separator, h⟩ := exists_of_bind_eq_ok h
  obtain ⟨gap, blank, split⟩ := exists_gap after
  dsimp only at separator h
  -- either the object closes here, or a comma leads on to the next field
  obtain ⟨rfl, more, closing⟩ | ⟨more, rfl, comma⟩ := readSeparator_eq_ok separator
  · obtain ⟨used, taken, spells⟩ :=
      took.field read (ends_of_skipSpaces (closing ▸ (closed_cons rfl more).ends))
    rw [closing] at h split
    cases h
    exact ⟨used ++ gap, by rw [taken, split, List.tail_cons, List.append_assoc],
      .lastField (spells.followed_field blank)⟩
  · obtain ⟨used, taken, spells⟩ :=
      took.field read (ends_of_skipSpaces (comma ▸ (closed_cons rfl more).ends))
    obtain ⟨⟨later, rest'⟩, read', h⟩ := exists_of_bind_eq_ok h
    cases h
    obtain ⟨used', same, spells'⟩ := took.moreFields read'
    obtain ⟨gap', blank', split'⟩ := exists_gap more
    refine ⟨(used ++ gap) ++ ',' :: (gap' ++ used'), ?_,
      .moreFields (spells.followed_field blank) (spells'.indented_fields blank')⟩
    rw [taken, split, comma, split', same]
    simp only [List.append_assoc, List.cons_append]

/-- **What is read is spelled**, with any number of steps. -/
theorem took (fuel : Nat) : Took fuel := by
  induction fuel with
  | zero => exact took_zero
  | succ fuel ih => exact ⟨ih.value_succ, ih.items_succ, ih.moreItems_succ, ih.fields_succ,
      ih.moreFields_succ⟩

/-! ## 4. Documents -/

/-- An empty list **in so many lists**. -/
def nested : Nat → Json
  | 0 => .arr []
  | depth + 1 => .arr [nested depth]

end Json

end RuleDispatch
