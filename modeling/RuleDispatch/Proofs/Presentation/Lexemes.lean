import Mathlib
import RuleDispatch.Proofs.Reload.Values

/-! # Texts and numbers as they are written

Inside its quotes a text is written character by character, plain, by a letter or by a number. A number
is written with digits, and with a sign, places after a point and a power of ten where it has them. All
that is so written is read, and nothing else; of numbers, those are refused that no double can hold.

* `Json.Quotes` — what stands inside quotes, and the characters that it denotes.
* `Json.Quotes.readText`, `Json.exists_quotes_of_readText` — it is read, and nothing else is.
* `Json.StandardNumeral` — how a number is written.
* `Json.StandardNumeral.read`, `Json.exists_standardNumeral` — it is read to its end unless it is out of
  range, and nothing else is. -/

namespace RuleDispatch

namespace Json

open Decimal (digitValue)

/-- What was read in two steps was read **in each**. -/
theorem exists_of_bind_eq_ok {ε α β : Type} {x : Except ε α} {f : α → Except ε β} {b : β}
    (h : (x >>= f) = .ok b) : ∃ a, x = .ok a ∧ f a = .ok b := by
  cases x with
  | error fault => cases h
  | ok a => exact ⟨a, rfl, h⟩

/-! ## 1. Inside quotes -/

/-- **Four hexadecimal digits** and the number that they are. -/
inductive Hex : List Char → Nat → Prop
  | four {a b c d : Char} {i j k l : Nat} (first : hexValue? a = some i)
      (second : hexValue? b = some j) (third : hexValue? c = some k) (fourth : hexValue? d = some l) :
      Hex [a, b, c, d] (((i * 16 + j) * 16 + k) * 16 + l)

/-- The number of the **first half** of a character beyond the first plane. -/
abbrev IsFirstHalf (n : Nat) : Prop :=
  0xD800 ≤ n ∧ n ≤ 0xDBFF

/-- The number of the **second half** of a character beyond the first plane. -/
abbrev IsSecondHalf (n : Nat) : Prop :=
  0xDC00 ≤ n ∧ n ≤ 0xDFFF

/-- A character **written by its number**: four digits, or two halves of four digits each. -/
inductive Numbered : List Char → Char → Prop
  | whole {digits : List Char} {n : Nat} (hex : Hex digits n) (no_first : ¬IsFirstHalf n)
      (no_second : ¬IsSecondHalf n) : Numbered digits (Char.ofNat n)
  | halves {digits digits' : List Char} {n n' : Nat} (hex : Hex digits n) (first : IsFirstHalf n)
      (hex' : Hex digits' n') (second : IsSecondHalf n') :
      Numbered (digits ++ '\\' :: 'u' :: digits')
        (Char.ofNat ((n - 0xD800) * 0x400 + (n' - 0xDC00) + 0x10000))

/-- What stands **after a backslash**: a letter that stands for a character, or its number. -/
inductive Escaped : List Char → Char → Prop
  | short {letter c : Char} (stands : shortEscape? letter = some c) : Escaped [letter] c
  | numbered {digits : List Char} {c : Char} (number : Numbered digits c) : Escaped ('u' :: digits) c

/-- What stands **inside quotes**, and the characters that it denotes: each of them plain, unless it is a
quote, a backslash or a control character, or escaped. -/
inductive Quotes : List Char → List Char → Prop
  | nil : Quotes [] []
  | plain {c : Char} {text chars : List Char} (no_quote : c ≠ '"') (no_escape : c ≠ '\\')
      (no_control : 0x20 ≤ c.toNat) (later : Quotes text chars) : Quotes (c :: text) (c :: chars)
  | escaped {used text chars : List Char} {c : Char} (escape : Escaped used c)
      (later : Quotes text chars) : Quotes ('\\' :: (used ++ text)) (c :: chars)

variable {text rest : List Char}

/-- A code is read from **four hexadecimal digits**, and what follows is left. -/
theorem readHex_eq_ok {n : Nat} :
    readHex text = .ok (n, rest) ↔ ∃ digits, text = digits ++ rest ∧ Hex digits n := by
  constructor
  · intro h
    unfold readHex at h
    split at h
    · cases h
    · split at h
      · next a b c d after _ =>
        split at h
        · next first second third fourth =>
          cases h
          exact ⟨[a, b, c, d], rfl, .four first second third fourth⟩
        · cases h
      · cases h
  · rintro ⟨_, rfl, @⟨a, b, c, d, i, j, k, l, first, second, third, fourth⟩⟩
    have long := four_le_byteLength a b c d rest
    simp only [List.cons_append, List.nil_append, readHex, Nat.not_lt.mpr long, if_false, first,
      second, third, fourth]

/-- A mark of a pair is read **where it stands**. -/
theorem readPairMark_eq_ok {mark : Char} : readPairMark mark text = .ok rest ↔ text = mark :: rest := by
  cases text with
  | nil => exact ⟨nofun, nofun⟩
  | cons c text =>
    rw [readPairMark]
    split_ifs with same
    · subst same
      simp
    · simp [same]

/-- A character is read by its number **if the number is written so**. -/
theorem readNumbered_eq_ok {c : Char} :
    readNumbered text = .ok (c, rest) ↔ ∃ used, text = used ++ rest ∧ Numbered used c := by
  constructor
  · intro h
    obtain ⟨⟨n, after⟩, read, ends⟩ := exists_of_bind_eq_ok h
    obtain ⟨digits, rfl, hex⟩ := readHex_eq_ok.mp read
    dsimp only at ends
    split_ifs at ends with second first
    · -- a first half is followed by the mark of an escape and a second half
      obtain ⟨after₁, mark, ends₁⟩ := exists_of_bind_eq_ok ends
      obtain ⟨after₂, mark', ends₂⟩ := exists_of_bind_eq_ok ends₁
      obtain ⟨⟨n', after₃⟩, read', ends₃⟩ := exists_of_bind_eq_ok ends₂
      obtain rfl := readPairMark_eq_ok.mp mark
      obtain rfl := readPairMark_eq_ok.mp mark'
      obtain ⟨digits', rfl, hex'⟩ := readHex_eq_ok.mp read'
      dsimp only at ends₃
      split_ifs at ends₃ with second'
      obtain ⟨rfl, rfl⟩ := Prod.mk.inj (Except.ok.inj ends₃)
      exact ⟨_, by simp, .halves hex first hex' second'⟩
    · cases ends
      exact ⟨digits, rfl, .whole hex first second⟩
  · rintro ⟨used, rfl, number⟩
    unfold readNumbered
    cases number with
    | whole hex no_first no_second =>
      rw [readHex_eq_ok.mpr ⟨_, rfl, hex⟩, ok_bind]
      dsimp only
      rw [if_neg no_second, if_neg no_first]
      rfl
    | @halves digits digits' n n' hex first hex' second =>
      have no_second : ¬IsSecondHalf n := fun second => by
        have := first.2.trans_lt (by decide : 0xDBFF < 0xDC00)
        omega
      rw [List.append_assoc, List.cons_append, List.cons_append, readHex_eq_ok.mpr ⟨_, rfl, hex⟩,
        ok_bind]
      dsimp only
      rw [if_neg no_second, if_pos first, readPairMark_eq_ok.mpr rfl, ok_bind,
        readPairMark_eq_ok.mpr rfl, ok_bind, readHex_eq_ok.mpr ⟨_, rfl, hex'⟩, ok_bind]
      dsimp only
      rw [if_pos second]
      rfl

/-- A character is read from what stands behind a backslash **if it is written so**. -/
theorem readEscape_eq_ok {c : Char} :
    readEscape text = .ok (c, rest) ↔ ∃ used, text = used ++ rest ∧ Escaped used c := by
  constructor
  · intro h
    cases text with
    | nil => cases h
    | cons letter text =>
      rw [readEscape] at h
      cases stands : shortEscape? letter with
      | some denoted =>
        rw [stands] at h
        cases h
        exact ⟨[letter], rfl, .short stands⟩
      | none =>
        rw [stands] at h
        dsimp only at h
        split_ifs at h with numbered
        obtain ⟨digits, rfl, number⟩ := readNumbered_eq_ok.mp h
        exact ⟨'u' :: digits, by rw [numbered, List.cons_append], .numbered number⟩
  · rintro ⟨used, rfl, escaped⟩
    cases escaped with
    | short stands => rw [List.singleton_append, readEscape, stands]
    | numbered number =>
      rw [List.cons_append, readEscape]
      exact readNumbered_eq_ok.mpr ⟨_, rfl, number⟩

/-- What stands inside quotes **is read up to the closing quote**, whatever follows. -/
theorem Quotes.readChars {chars : List Char} (h : Quotes text chars) {fuel : Nat}
    (enough : text.length < fuel) (rest : List Char) :
    Json.readChars fuel (text ++ '"' :: rest) = .ok (chars, rest) := by
  induction h generalizing fuel with
  | nil =>
    obtain ⟨fuel, rfl⟩ := Nat.exists_eq_add_one_of_ne_zero (Nat.ne_of_gt (Nat.zero_lt_of_lt enough))
    rw [List.nil_append, Json.readChars, if_pos rfl]
  | @plain c text chars no_quote no_escape no_control _ ih =>
    obtain ⟨fuel, rfl⟩ := Nat.exists_eq_add_one_of_ne_zero (Nat.ne_of_gt (Nat.zero_lt_of_lt enough))
    rw [List.cons_append, Json.readChars, if_neg no_quote, if_neg no_escape,
      if_neg (Nat.not_lt.mpr no_control), ih (Nat.lt_of_succ_lt_succ enough), ok_bind]
    rfl
  | @escaped used text chars c escape _ ih =>
    obtain ⟨fuel, rfl⟩ := Nat.exists_eq_add_one_of_ne_zero (Nat.ne_of_gt (Nat.zero_lt_of_lt enough))
    have enough' : text.length < fuel := by
      rw [List.length_cons, List.length_append] at enough
      omega
    rw [List.cons_append, List.append_assoc, Json.readChars, if_neg (by decide), if_pos rfl,
      readEscape_eq_ok.mpr ⟨_, rfl, escape⟩, ok_bind]
    dsimp only
    rw [ih enough', ok_bind]
    rfl

/-- **Nothing else is read** as the characters of a text. -/
theorem exists_quotes {fuel : Nat} {chars : List Char} (h : readChars fuel text = .ok (chars, rest)) :
    ∃ used, text = used ++ '"' :: rest ∧ Quotes used chars := by
  induction fuel generalizing text chars with
  | zero => cases text <;> cases h
  | succ fuel ih =>
    cases text with
    | nil => cases h
    | cons c text =>
      rw [readChars] at h
      split_ifs at h with quote escape control
      · cases h
        exact ⟨[], by rw [quote, List.nil_append], .nil⟩
      · obtain ⟨⟨denoted, after⟩, read, h⟩ := exists_of_bind_eq_ok h
        obtain ⟨⟨chars', left⟩, read', h⟩ := exists_of_bind_eq_ok h
        cases h
        obtain ⟨used, rfl, escaped⟩ := readEscape_eq_ok.mp read
        obtain ⟨more, rfl, later⟩ := ih read'
        exact ⟨_, by rw [escape, List.cons_append, List.append_assoc], .escaped escaped later⟩
      · obtain ⟨⟨chars', left⟩, read, h⟩ := exists_of_bind_eq_ok h
        cases h
        obtain ⟨more, rfl, later⟩ := ih read
        exact ⟨_, List.cons_append.symm, .plain quote escape (Nat.not_lt.mp control) later⟩

/-- A text is read **up to its closing quote**. -/
theorem Quotes.readText {s : String} (h : Quotes text s.toList) {fuel : Nat}
    (enough : text.length < fuel) (rest : List Char) :
    Json.readText fuel (text ++ '"' :: rest) = .ok (s, rest) := by
  rw [Json.readText, h.readChars enough, ok_bind]
  exact congrArg (fun s => Except.ok (s, rest)) String.ofList_toList

/-- Where a text is read, **quotes end it**. -/
theorem exists_quotes_of_readText {fuel : Nat} {s : String} (h : readText fuel text = .ok (s, rest)) :
    ∃ inside, text = inside ++ '"' :: rest ∧ Quotes inside s.toList := by
  obtain ⟨⟨chars, left⟩, read, ends⟩ := exists_of_bind_eq_ok h
  cases ends
  rw [String.toList_ofList]
  exact exists_quotes read

/-! ## 2. How numbers are written -/

/-- **Digits**, at least one. -/
structure IsDigits (digits : List Char) : Prop where
  some_digit : digits ≠ []
  all : AllDigits digits

/-- Digits before the point: **no zero stands in front** of others. -/
structure IsWhole (digits : List Char) : Prop extends IsDigits digits where
  leading : digits.head? = some '0' → digits = ['0']

/-- What may follow them: nothing, or **places after a point**. -/
inductive IsPlaces : List Char → Prop
  | none : IsPlaces []
  | point {digits : List Char} (places : IsDigits digits) : IsPlaces ('.' :: digits)

/-- The **size of an exponent**: a sign or none, and digits. -/
inductive IsSize : List Char → Prop
  | signed {sign digits : List Char} (sign_of : sign = [] ∨ sign = ['+'] ∨ sign = ['-'])
      (size : IsDigits digits) : IsSize (sign ++ digits)

/-- What may end a number: nothing, or **a power of ten**. -/
inductive IsPower : List Char → Prop
  | none : IsPower []
  | exponent {letter : Char} {size : List Char} (marks : letter = 'e' ∨ letter = 'E')
      (size_of : IsSize size) : IsPower (letter :: size)

/-- A number **without a sign** as it is written. -/
inductive StandardMagnitude : List Char → Prop
  | parts {whole places power : List Char} (before : IsWhole whole) (after : IsPlaces places)
      (scaled : IsPower power) : StandardMagnitude (whole ++ (places ++ power))

/-- A number **as it is written**. -/
inductive StandardNumeral : List Char → Prop
  | plain {magnitude : List Char} (number : StandardMagnitude magnitude) : StandardNumeral magnitude
  | negative {magnitude : List Char} (number : StandardMagnitude magnitude) :
      StandardNumeral ('-' :: magnitude)

/-- Without a sign, a number begins **with a digit**. -/
theorem StandardMagnitude.opens (h : StandardMagnitude text) :
    ∃ c more, text = c :: more ∧ c.isDigit = true := by
  obtain @⟨whole, places, power, before, after, scaled⟩ := h
  obtain ⟨first, more, rfl⟩ := List.exists_cons_of_ne_nil before.some_digit
  exact ⟨first, more ++ (places ++ power), rfl, before.all first List.mem_cons_self⟩

/-- A number begins **with a digit or with the sign**. -/
theorem StandardNumeral.opens (h : StandardNumeral text) :
    ∃ c more, text = c :: more ∧ opensNumeral c = true := by
  cases h with
  | plain number =>
    obtain ⟨c, more, rfl, digit⟩ := number.opens
    exact ⟨c, more, rfl, by simp [opensNumeral, digit]⟩
  | @negative magnitude number => exact ⟨'-', magnitude, rfl, rfl⟩

/-- Every text **starts with digits**, as many as there are. -/
theorem exists_digits (text : List Char) :
    ∃ digits rest, text = digits ++ rest ∧ AllDigits digits ∧ rest.head?.any Char.isDigit = false := by
  refine ⟨text.takeWhile Char.isDigit, text.dropWhile Char.isDigit,
    List.takeWhile_append_dropWhile.symm, fun _ member => List.mem_takeWhile_imp member, ?_⟩
  have other := List.head?_dropWhile_not Char.isDigit text
  cases first : (text.dropWhile Char.isDigit).head? with
  | none => rfl
  | some c => rwa [first] at other

/-- All digits are counted, **those that were added and those that were dropped**. -/
theorem AllDigits.count {digits : List Char} (h : AllDigits digits) (significand : Nat) :
    (addDigits significand digits).2.1 + (Json.dropDigits (addDigits significand digits).2.2).1
      = digits.length := by
  induction digits generalizing significand with
  | nil => rfl
  | cons c digits ih =>
    rw [addDigits]
    split_ifs
    · have later := ih (fun d member => h d (List.mem_cons_of_mem c member)) (digitValue significand [c])
      rw [List.length_cons, ← later, Nat.add_right_comm]
    · rw [Nat.zero_add, Json.dropDigits, List.takeWhile_eq_self_iff.mpr h]

section

variable {digits power : List Char} {n : Number} (negative : Bool) (significand : Nat) (exponent : Int)

/-- Places after the point are **digits, at least one**, and a power of ten may follow. -/
theorem readPlaces_append_digits (h : AllDigits digits)
    (stop : rest.head?.any Char.isDigit = false) :
    readPlaces negative significand exponent (digits ++ rest)
      = if digits = [] then .error (.at (if rest = [] then .endInValue else .badNumber) rest)
        else readScaled negative (addDigits significand digits).1
          (exponent - (addDigits significand digits).2.1) rest := by
  have left := h.left stop significand
  have count := h.count significand
  rw [addDigits_append stop] at left
  simp only [readPlaces, addDigits_append stop, dropDigits_append stop] at left ⊢
  rw [left]
  simp only [count, List.length_eq_zero_iff]

/-! ### What is read is so written -/

/-- A number is read from what stands **in front of the rest**, written in some way. -/
def Takes (kind : List Char → Prop) (text : List Char) (read : Numeral) : Prop :=
  ∀ n rest, read = .ok (n, rest) → ∃ used, text = used ++ rest ∧ kind used

variable {kind kind' : List Char → Prop}

/-- **Nothing is taken** where reading fails. -/
theorem takes_error (kind : List Char → Prop) (text : List Char) (fault : Fault) :
    Takes kind text (.error fault) :=
  fun _ _ h => by cases h

/-- What is written in front of some text **goes in front of what is used** of it. -/
theorem Takes.after {read : Numeral} (h : Takes kind text read) (front : List Char)
    (together : ∀ used, kind used → kind' (front ++ used)) : Takes kind' (front ++ text) read := by
  intro n rest ok
  obtain ⟨used, rfl, written⟩ := h n rest ok
  exact ⟨front ++ used, (List.append_assoc _ _ _).symm, together used written⟩

/-- A double that is read takes **no more text**. -/
theorem takes_endReal (x : Float) (text : List Char) : Takes (· = []) text (endReal negative x text) := by
  unfold endReal
  split
  · intro n rest ok
    cases ok
    exact ⟨[], rfl, rfl⟩
  · exact takes_error _ _ _

/-- A whole number that is read takes **no more text**. -/
theorem takes_endWhole (text : List Char) :
    Takes (· = []) text (endWhole negative significand text) := by
  unfold endWhole
  dsimp only
  generalize (if negative = true ∧ significand = 0 then none else _ : Option Number) = whole
  cases whole with
  | some number =>
    intro n rest ok
    cases ok
    exact ⟨[], rfl, rfl⟩
  | none => exact takes_endReal _ _ _

/-- A sign, **or none**, stands in front. -/
theorem exists_splitSign (text : List Char) : ∃ sign,
    text = sign ++ (Decimal.splitSign text).2 ∧ (sign = [] ∨ sign = ['+'] ∨ sign = ['-']) := by
  unfold Decimal.splitSign
  split
  · exact ⟨['-'], rfl, .inr (.inr rfl)⟩
  · exact ⟨['+'], rfl, .inr (.inl rfl)⟩
  · exact ⟨[], rfl, .inl rfl⟩

/-- Digits of an exponent are read **up to their end**, or to where they become too many. -/
theorem readExponentSize_append_digits (h : AllDigits digits)
    (stop : rest.head?.any Char.isDigit = false) (size : Nat) :
    (∃ size', readExponentSize size (digits ++ rest) = .ok (size', rest))
      ∨ ∃ left, readExponentSize size (digits ++ rest) = .error (left ++ rest) ∧ AllDigits left := by
  rw [readExponentSize_append stop]
  rcases h.readExponentSize size with ⟨size', read⟩ | ⟨left, read, all⟩
  · exact .inl ⟨size', by rw [read]; rfl⟩
  · exact .inr ⟨left, by rw [read], all⟩

/-- After its letter, the exponent is **a size**, and what follows the size is left. -/
theorem readExponentPart_append_size {sign : List Char}
    (signed : sign = [] ∨ sign = ['+'] ∨ sign = ['-']) (h : IsDigits digits)
    (stop : rest.head?.any Char.isDigit = false) :
    (∃ x, readExponentPart negative significand exponent (sign ++ (digits ++ rest))
        = endReal negative x rest)
      ∨ ∃ left, readExponentPart negative significand exponent (sign ++ (digits ++ rest))
          = .error (.before .numberOutOfRange left) := by
  obtain ⟨first, more, rfl⟩ := List.exists_cons_of_ne_nil h.some_digit
  have digit : first.isDigit = true := h.all first List.mem_cons_self
  -- no digit is a sign, so what is split off is the sign
  obtain ⟨down, split⟩ : ∃ down,
      Decimal.splitSign (sign ++ (first :: more ++ rest)) = (down, first :: more ++ rest) := by
    rcases signed with rfl | rfl | rfl
    · have minus : first ≠ '-' := by
        rintro rfl
        cases digit
      have plus : first ≠ '+' := by
        rintro rfl
        cases digit
      exact ⟨false, by simp [Decimal.splitSign, minus, plus]⟩
    · exact ⟨false, rfl⟩
    · exact ⟨true, rfl⟩
  unfold readExponentPart
  rw [split, List.cons_append]
  dsimp only
  rw [if_pos digit, ← List.cons_append]
  rcases readExponentSize_append_digits h.all stop 0 with ⟨size, read⟩ | ⟨left, read, all⟩
  · rw [read]
    exact .inl ⟨_, rfl⟩
  -- where the size is too large, so is the number, unless it is zero whatever the size
  · rw [read]
    dsimp only
    split_ifs
    · exact .inr ⟨_, rfl⟩
    · rw [dropDigits_append stop, all.dropDigits]
      exact .inl ⟨_, rfl⟩

/-- The size of an exponent is taken with **its sign and its digits**. -/
theorem takes_readExponentPart (text : List Char) :
    Takes IsSize text (readExponentPart negative significand exponent text) := by
  obtain ⟨sign, split, signed⟩ := exists_splitSign text
  obtain ⟨digits, rest, found, all, stop⟩ := exists_digits (Decimal.splitSign text).2
  by_cases some_digit : digits = []
  · -- no digit comes, and it is refused
    subst some_digit
    unfold readExponentPart
    dsimp only
    rw [found, List.nil_append]
    cases rest with
    | nil => exact takes_error _ _ _
    | cons c rest =>
      have other : ¬c.isDigit = true := by simpa using stop
      dsimp only
      rw [if_neg other]
      exact takes_error _ _ _
  · have size : IsDigits digits := ⟨some_digit, all⟩
    rw [split, found, ← List.append_assoc]
    intro n left ok
    rw [List.append_assoc] at ok
    rcases readExponentPart_append_size negative significand exponent signed size stop with
      ⟨x, read⟩ | ⟨_, read⟩
    · rw [read] at ok
      obtain ⟨_, rfl, rfl⟩ := takes_endReal negative x rest n left ok
      exact ⟨_, rfl, .signed signed size⟩
    · rw [read] at ok
      cases ok

/-- An exponent is taken **with its mark**, if there is one. -/
theorem takes_readScaled (text : List Char) :
    Takes IsPower text (readScaled negative significand exponent text) := by
  have alone {x : Float} {text : List Char} : Takes IsPower text (endReal negative x text) :=
    (takes_endReal negative x text).after [] fun used nothing => by rw [nothing]; exact .none
  unfold readScaled
  split
  · next letter text =>
    split_ifs with marks
    · exact (takes_readExponentPart _ _ _ _).after [letter] fun _ size => .exponent marks size
    · exact alone
  · exact alone

/-- What comes **after the digits before the point**. -/
inductive IsFractional : List Char → Prop
  | parts {places power : List Char} (after : IsPlaces places) (scaled : IsPower power) :
      IsFractional (places ++ power)

/-- What follows the whole digits is taken: **places and an exponent**, if there are any. -/
theorem takes_readAfterWhole (dropped : Nat) (text : List Char) :
    Takes IsFractional text (readAfterWhole negative significand dropped text) := by
  unfold readAfterWhole
  split
  · next places =>
    obtain ⟨digits, rest, rfl, all, stop⟩ := exists_digits places
    rw [readPlaces_append_digits _ _ _ all stop]
    by_cases none_there : digits = []
    · rw [if_pos none_there]
      exact takes_error _ _ _
    · rw [if_neg none_there]
      exact (takes_readScaled _ _ _ _).after ('.' :: digits) fun _ power =>
        .parts (.point ⟨none_there, all⟩) power
  · split_ifs
    · exact (takes_endWhole _ _ _).after [] fun used nothing => by rw [nothing]; exact .parts .none .none
    · exact (takes_readScaled _ _ _ _).after [] fun _ power => .parts .none power

/-- A number without its sign is taken **as the grammar writes it**. -/
theorem takes_readMagnitude (text : List Char) :
    Takes StandardMagnitude text (readMagnitude negative text) := by
  cases text with
  | nil => exact takes_error _ _ _
  | cons first more =>
    obtain ⟨digits, rest, split, all, stop⟩ := exists_digits (first :: more)
    rw [readMagnitude_cons, split, all.left stop 0]
    split_ifs with zero digit
    · exact takes_error _ _ _
    · refine (takes_readAfterWhole _ _ _ _).after digits fun _ ⟨after, scaled⟩ => .parts ?_ after scaled
      cases digits with
      | nil =>
        rw [List.nil_append] at split
        rw [← split] at stop
        simp [digit] at stop
      | cons c digits =>
        obtain ⟨rfl, rfl⟩ := List.cons.inj split
        refine ⟨⟨List.cons_ne_nil _ _, all⟩, fun leading => ?_⟩
        obtain rfl : first = '0' := Option.some.inj leading
        -- a digit after the zero would be refused
        cases digits with
        | nil => rfl
        | cons second digits =>
          exact absurd ⟨rfl, by simpa using all second (by simp)⟩ zero
    · exact takes_error _ _ _

/-- **Nothing else is read** as a number. -/
theorem exists_standardNumeral {text rest : List Char} (h : readNumber text = .ok (n, rest)) :
    ∃ used, text = used ++ rest ∧ StandardNumeral used := by
  unfold readNumber at h
  split at h
  · exact (takes_readMagnitude _ _).after ['-'] (fun _ => .negative) n rest h
  · exact (takes_readMagnitude _ _).after [] (fun _ => .plain) n rest h

/-! ### What is so written is read -/

/-- A number is read **to its end**, unless no double can hold it. -/
def Held (read : Numeral) : Prop :=
  (∃ n, read = .ok (n, [])) ∨ ∃ fault, read = .error fault ∧ fault.cause = .numberOutOfRange

/-- A double is read to its end, **unless none can hold it**. -/
theorem held_endReal (x : Float) : Held (endReal negative x []) := by
  unfold endReal
  split
  · exact .inl ⟨_, rfl⟩
  · exact .inr ⟨_, rfl, rfl⟩

/-- A whole number is read **to its end**. -/
theorem held_endWhole : Held (endWhole negative significand []) := by
  unfold endWhole
  dsimp only
  split
  · exact .inl ⟨_, rfl⟩
  · exact held_endReal _ _

/-- An exponent is read **to its end**. -/
theorem held_readScaled (h : IsPower text) : Held (readScaled negative significand exponent text) := by
  cases h with
  | none => exact held_endReal _ _
  | @exponent letter size marks size_of =>
    obtain @⟨sign, digits, signed, digits_of⟩ := size_of
    have nothing : ([] : List Char).head?.any Char.isDigit = false := rfl
    have ends := readExponentPart_append_size negative significand exponent signed digits_of nothing
    rw [List.append_nil] at ends
    rw [readScaled, if_pos marks]
    rcases ends with ⟨x, read⟩ | ⟨left, read⟩
    · rw [read]
      exact held_endReal _ _
    · exact .inr ⟨_, read, rfl⟩

/-- An exponent does **not begin with a digit**. -/
theorem IsPower.stop (h : IsPower text) : text.head?.any Char.isDigit = false := by
  cases h with
  | none => rfl
  | exponent marks => rcases marks with rfl | rfl <;> rfl

/-- Places do **not begin with a digit**: a point or an exponent comes first. -/
theorem IsFractional.stop (h : IsFractional text) : text.head?.any Char.isDigit = false := by
  obtain ⟨none | places, scaled⟩ := h
  · exact scaled.stop
  · rfl

/-- What follows the whole digits is read **to its end**. -/
theorem held_readAfterWhole (h : IsFractional text) (dropped : Nat) :
    Held (readAfterWhole negative significand dropped text) := by
  obtain ⟨none | places, scaled⟩ := h
  · cases scaled with
    | none =>
      simp only [List.append_nil, readAfterWhole]
      split_ifs
      · exact held_endWhole _ _
      · exact held_endReal _ _
    | exponent marks size_of =>
      have held := held_readScaled negative significand dropped (.exponent marks size_of)
      rcases marks with rfl | rfl <;> simpa [readAfterWhole] using held
  · rw [List.cons_append, readAfterWhole, readPlaces_append_digits _ _ _ places.all scaled.stop,
      if_neg places.some_digit]
    exact held_readScaled _ _ _ scaled

/-- A number without its sign is read **to its end**. -/
theorem held_readMagnitude (h : StandardMagnitude text) : Held (readMagnitude negative text) := by
  obtain @⟨whole, places, power, before, after, scaled⟩ := h
  have fractional : IsFractional (places ++ power) := .parts after scaled
  have left := before.all.left fractional.stop 0
  obtain ⟨first, more, rfl⟩ := List.exists_cons_of_ne_nil before.some_digit
  have digit : first.isDigit = true := before.all first List.mem_cons_self
  -- after a zero comes no digit
  have no_zero : ¬(first = '0' ∧ ((more ++ (places ++ power)).head?.any Char.isDigit)) := by
    rintro ⟨rfl, another⟩
    have alone := before.leading rfl
    rw [(List.cons.inj alone).2, List.nil_append, fractional.stop] at another
    cases another
  rw [List.cons_append] at left ⊢
  rw [readMagnitude_cons, if_neg no_zero, if_pos digit, left]
  exact held_readAfterWhole _ _ fractional _

/-- A number that is written as numbers are **is read to its end**, unless no double can hold it. -/
theorem StandardNumeral.read (h : StandardNumeral text) : Held (readNumber text) := by
  cases h with
  | negative number => exact held_readMagnitude true number
  | plain number =>
    have unsigned : readNumber text = readMagnitude false text := by
      obtain ⟨first, more, rfl, digit⟩ := number.opens
      have minus : first ≠ '-' := by
        rintro rfl
        cases digit
      simp [readNumber, minus]
    rw [unsigned]
    exact held_readMagnitude false number

end

end Json

end RuleDispatch
