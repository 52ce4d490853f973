import Mathlib
import RuleDispatch.Json.Printer
import RuleDispatch.Json.Reader

/-! # Texts and numbers inside a document

What is written of a text or of a number is read back from the front of whatever follows it, as long
as that does not go on with the number. A number is read to its last character or not at
all.

* `Json.Closed`, `Json.Ends` — what may follow an entry, and what ends a number.
* `Json.readText_writeText` — texts read back.
* `Json.readNumber_append` — what follows a number does not matter to it.
* `Json.readNumber_intText` — whole numbers read back.
* `Json.IsNumeral`, `Json.isNumeral_writeNumber` — every number is written as a numeral, and a numeral
  is never read in part.
* `Json.readsReal_readNumber` — what is written of a double is never read as a whole number. -/

namespace RuleDispatch

namespace Json

open Decimal (digitValue)

/-! ## 1. What follows an entry -/

/-- Whether a character **closes an entry**. -/
def isClosing (c : Char) : Bool :=
  c = ',' || c = ']' || c = '}'

/-- What **follows an entry**: nothing, or a mark that closes it. -/
def Closed (rest : List Char) : Prop :=
  ∀ c ∈ rest.head?, isClosing c = true

/-- Nothing **follows a last entry**. -/
theorem closed_nil : Closed [] := by
  simp [Closed]

/-- A mark that closes **may follow an entry**. -/
theorem closed_cons {c : Char} (closing : isClosing c = true) (rest : List Char) :
    Closed (c :: rest) := by
  simpa [Closed] using closing

/-- A mark that closes an entry is **one of three**. -/
theorem isClosing_iff {c : Char} : isClosing c = true ↔ c = ',' ∨ c = ']' ∨ c = '}' := by
  simp [isClosing, or_assoc]

/-- Whether a character **goes on with a number**. -/
def continuesNumeral (c : Char) : Bool :=
  c.isDigit || c = '.' || c = 'e' || c = 'E' || c = '+' || c = '-'

/-- What **ends a number**: nothing, or a character that does not go on with one. -/
def Ends (rest : List Char) : Prop :=
  ∀ c ∈ rest.head?, continuesNumeral c = false

/-- A mark that closes an entry **ends a number** before it. -/
theorem Closed.ends {rest : List Char} (h : Closed rest) : Ends rest := fun c first => by
  rcases isClosing_iff.mp (h c first) with rfl | rfl | rfl <;> rfl

/-- What does **not go on with a number**: no digit, point, sign or mark of an exponent. -/
theorem continuesNumeral_eq_false_iff {c : Char} : continuesNumeral c = false ↔
    c.isDigit = false ∧ c ≠ '.' ∧ c ≠ 'e' ∧ c ≠ 'E' ∧ c ≠ '+' ∧ c ≠ '-' := by
  simp [continuesNumeral, and_assoc]

/-- What ends a number **begins with no digit**. -/
theorem Ends.isDigit_head? {rest : List Char} (h : Ends rest) :
    rest.head?.any Char.isDigit = false := by
  cases rest with
  | nil => rfl
  | cons c rest => exact (continuesNumeral_eq_false_iff.mp (h c rfl)).1

/-! ## 2. Texts -/

/-- A hexadecimal digit is **read back**. -/
theorem hexValue?_digitChar {d : Nat} (h : d < 16) : hexValue? (Nat.digitChar d) = some d := by
  revert d
  decide

/-- Four characters are at least four bytes. -/
theorem four_le_byteLength (a b c d : Char) (rest : List Char) :
    4 ≤ byteLength (a :: b :: c :: d :: rest) := by
  have := a.utf8Size_pos
  have := b.utf8Size_pos
  have := c.utf8Size_pos
  have := d.utf8Size_pos
  simp only [byteLength_cons]
  omega

/-- A number of up to four hexadecimal digits is read back. -/
theorem readHex_hexPadded {n : Nat} (h : n < 65536) (rest : List Char) :
    readHex (Text.hexPadded 4 n ++ rest) = .ok (n, rest) := by
  have long := four_le_byteLength (Nat.digitChar (n / 16 / 16 / 16 % 16))
    (Nat.digitChar (n / 16 / 16 % 16)) (Nat.digitChar (n / 16 % 16)) (Nat.digitChar (n % 16)) rest
  have value : ((n / 16 / 16 / 16 % 16 * 16 + n / 16 / 16 % 16) * 16 + n / 16 % 16) * 16 + n % 16
      = n := by omega
  simp only [Text.hexPadded, List.nil_append, List.cons_append, readHex, Nat.not_lt.mpr long,
    if_false, hexValue?_digitChar (Nat.mod_lt _ (by decide : 0 < 16)), value]

/-- A control character is read back **from its number**. -/
theorem readNumbered_hexPadded {c : Char} (h : c.toNat < 32) (rest : List Char) :
    readNumbered (Text.hexPadded 4 c.toNat ++ rest) = .ok (c, rest) := by
  have below : ¬(0xDC00 ≤ c.toNat ∧ c.toNat ≤ 0xDFFF) := by omega
  have below' : ¬(0xD800 ≤ c.toNat ∧ c.toNat ≤ 0xDBFF) := by omega
  simp only [readNumbered, readHex_hexPadded (Nat.lt_trans h (by decide : 32 < 65536)), bind,
    Except.bind, if_neg below, if_neg below', Char.ofNat_toNat]
  rfl

/-- **One character** inside the quotes is read back, whatever follows. -/
theorem readChars_escapeChar (fuel : Nat) (c : Char) (text : List Char) :
    readChars (fuel + 1) (escapeChar c ++ text)
      = (readChars fuel text).map fun read => (c :: read.1, read.2) := by
  have finish (denoted : Char) :
      (readChars fuel text >>= fun read => pure (denoted :: read.1, read.2))
        = (readChars fuel text).map fun read => (denoted :: read.1, read.2) := by
    cases readChars fuel text <;> rfl
  unfold escapeChar
  split
  case h_8 quote backslash _ _ _ _ _ =>
    split
    · next control =>
      -- a control character without a short escape is written by its number
      have escaped : readEscape ('u' :: (Text.hexPadded 4 c.toNat ++ text)) = .ok (c, text) := by
        rw [readEscape]
        exact readNumbered_hexPadded control text
      simp only [List.cons_append, List.nil_append, readChars, Char.reduceEq, if_false, if_true,
        escaped]
      exact finish c
    · next printable =>
      simp only [List.cons_append, List.nil_append, readChars, if_neg quote, if_neg backslash,
        if_neg printable]
      exact finish c
  all_goals exact finish _

/-- The **characters of a text** are read back up to the closing quote. -/
theorem readChars_flatMap_escapeChar (chars : List Char) {fuel : Nat} (enough : chars.length < fuel)
    (rest : List Char) :
    readChars fuel (chars.flatMap escapeChar ++ '"' :: rest) = .ok (chars, rest) := by
  induction chars generalizing fuel with
  | nil =>
    obtain ⟨fuel, rfl⟩ := Nat.exists_eq_add_of_lt enough
    simp [readChars]
  | cons c chars ih =>
    obtain ⟨fuel, rfl⟩ := Nat.exists_eq_add_one_of_ne_zero (Nat.ne_of_gt (Nat.zero_lt_of_lt enough))
    rw [List.flatMap_cons, List.append_assoc, readChars_escapeChar,
      ih (Nat.lt_of_succ_lt_succ enough)]
    rfl

/-- No character takes less than itself when it is written. -/
theorem length_le_flatMap_escapeChar (chars : List Char) :
    chars.length ≤ (chars.flatMap escapeChar).length := by
  induction chars with
  | nil => exact Nat.le_refl 0
  | cons c chars ih =>
    have here : 1 ≤ (escapeChar c).length := by
      unfold escapeChar
      split <;> try exact Nat.le_add_left 1 1
      split <;> simp
    simp only [List.flatMap_cons, List.length_append, List.length_cons]
    omega

/-- A **text** is read back from after its opening quote. -/
theorem readText_writeText (s : String) {fuel : Nat} {rest : List Char}
    (enough : (s.toList.flatMap escapeChar ++ '"' :: rest).length ≤ fuel) :
    readText fuel (s.toList.flatMap escapeChar ++ '"' :: rest) = .ok (s, rest) := by
  have short : s.toList.length < fuel := by
    have := length_le_flatMap_escapeChar s.toList
    simp only [List.length_append, List.length_cons] at enough
    omega
  simp only [readText, readChars_flatMap_escapeChar _ short, bind, Except.bind, String.ofList_toList]
  rfl

/-! ## 3. Numbers, whatever follows -/

/-- Where no digit stands, **none is added**. -/
theorem addDigits_of_not_isDigit {rest : List Char} (h : rest.head?.any Char.isDigit = false)
    (significand : Nat) : addDigits significand rest = (significand, 0, rest) := by
  cases rest with
  | nil => rfl
  | cons c rest =>
    have other : c.isDigit = false := by simpa using h
    simp [addDigits, other]

/-- Digits are added **up to the same place**, whatever follows that is none. -/
theorem addDigits_append {rest : List Char} (stop : rest.head?.any Char.isDigit = false)
    (significand : Nat) (text : List Char) :
    addDigits significand (text ++ rest)
      = ((addDigits significand text).1, (addDigits significand text).2.1,
          (addDigits significand text).2.2 ++ rest) := by
  induction text generalizing significand with
  | nil => exact addDigits_of_not_isDigit stop significand
  | cons c text ih =>
    simp only [List.cons_append, addDigits]
    split
    · rw [ih]
    · rfl

/-- Digits are dropped up to the same place, whatever follows that is none. -/
theorem dropDigits_append {rest : List Char} (stop : rest.head?.any Char.isDigit = false)
    (text : List Char) :
    dropDigits (text ++ rest) = ((dropDigits text).1, (dropDigits text).2 ++ rest) := by
  have none_left : dropDigits rest = (0, rest) := by
    cases rest with
    | nil => rfl
    | cons c rest =>
      have other : c.isDigit = false := by simpa using stop
      simp [dropDigits, other]
  induction text with
  | nil => exact none_left
  | cons c text ih =>
    simp only [dropDigits, List.cons_append] at ih ⊢
    by_cases digit : c.isDigit = true
    · simp only [List.takeWhile_cons_of_pos digit, List.dropWhile_cons_of_pos digit,
        List.length_cons, Prod.mk.injEq] at ih ⊢
      exact ⟨congrArg (· + 1) ih.1, ih.2⟩
    · simp only [List.takeWhile_cons_of_neg digit, List.dropWhile_cons_of_neg digit,
        List.cons_append]

/-- What is read **with more text after it**: the same, and the text is left. -/
def extend (rest : List Char) (read : Number × List Char) : Number × List Char :=
  (read.1, read.2 ++ rest)

/-- What follows is **left** when a double was read. -/
theorem endReal_append (negative : Bool) (x : Float) (text rest : List Char) :
    (endReal negative x (text ++ rest)).toOption
      = (endReal negative x text).toOption.map (extend rest) := by
  unfold endReal
  split <;> rfl

/-- What follows is **left** when a whole number was read. -/
theorem endWhole_append (negative : Bool) (significand : Nat) (text rest : List Char) :
    (endWhole negative significand (text ++ rest)).toOption
      = (endWhole negative significand text).toOption.map (extend rest) := by
  unfold endWhole
  dsimp only
  split
  · rfl
  · exact endReal_append _ _ _ _

/-- What follows is **left** when the size of an exponent was read. -/
theorem readExponentSize_append {rest : List Char} (stop : rest.head?.any Char.isDigit = false)
    (size : Nat) (text : List Char) :
    readExponentSize size (text ++ rest) = match readExponentSize size text with
      | .ok (size, left) => .ok (size, left ++ rest)
      | .error left => .error (left ++ rest) := by
  induction text generalizing size with
  | nil =>
    cases rest with
    | nil => rfl
    | cons c rest =>
      have other : c.isDigit = false := by simpa using stop
      simp [readExponentSize, other]
  | cons c text ih =>
    simp only [List.cons_append, readExponentSize]
    split
    · split
      · exact ih _
      · rfl
    · rfl

/-- The sign of an exponent is **not found in what follows**. -/
theorem splitSign_append {rest : List Char} (ends : Ends rest) (text : List Char) :
    Decimal.splitSign (text ++ rest)
      = ((Decimal.splitSign text).1, (Decimal.splitSign text).2 ++ rest) := by
  cases text with
  | nil =>
    cases rest with
    | nil => rfl
    | cons c rest =>
      obtain ⟨-, -, -, -, plus, minus⟩ := continuesNumeral_eq_false_iff.mp (ends c rfl)
      simp [Decimal.splitSign, minus, plus]
  | cons c text =>
    by_cases minus : c = '-'
    · subst minus
      rfl
    · by_cases plus : c = '+'
      · subst plus
        rfl
      · simp [Decimal.splitSign, minus, plus]

/-- What follows is **left** when the digits of an exponent were read. -/
theorem readExponentPart_append {rest : List Char} (ends : Ends rest) (negative : Bool)
    (significand : Nat) (exponent : Int) (text : List Char) :
    (readExponentPart negative significand exponent (text ++ rest)).toOption
      = (readExponentPart negative significand exponent text).toOption.map (extend rest) := by
  simp only [readExponentPart, splitSign_append ends]
  generalize Decimal.splitSign text = split
  obtain ⟨down, digits⟩ := split
  dsimp only
  cases digits with
  | nil =>
    -- no digit comes, neither before nor after
    have stop := ends.isDigit_head?
    cases rest with
    | nil => rfl
    | cons c rest =>
      have other : c.isDigit = false := by simpa using stop
      simp [other, Except.toOption]
  | cons c digits =>
    simp only [List.cons_append]
    rw [← List.cons_append, readExponentSize_append ends.isDigit_head?]
    by_cases digit : c.isDigit = true
    · simp only [if_pos digit]
      cases readExponentSize 0 (c :: digits) with
      | ok read => exact endReal_append _ _ _ _
      | error left =>
        dsimp only
        by_cases large : significand ≠ 0 ∧ !down
        · simp only [if_pos large]
          rfl
        · simp only [if_neg large, dropDigits_append ends.isDigit_head?]
          exact endReal_append _ _ _ _
    · simp only [if_neg digit]
      rfl

/-- What follows is **left** when an exponent was read. -/
theorem readScaled_append {rest : List Char} (ends : Ends rest) (negative : Bool)
    (significand : Nat) (exponent : Int) (text : List Char) :
    (readScaled negative significand exponent (text ++ rest)).toOption
      = (readScaled negative significand exponent text).toOption.map (extend rest) := by
  cases text with
  | nil =>
    cases rest with
    | nil => exact endReal_append _ _ [] []
    | cons c rest =>
      obtain ⟨-, -, small, large, -⟩ := continuesNumeral_eq_false_iff.mp (ends c rfl)
      have mark : ¬(c = 'e' ∨ c = 'E') := by simp [small, large]
      simp only [readScaled, List.nil_append, if_neg mark]
      exact endReal_append _ _ [] (c :: rest)
  | cons c text =>
    simp only [List.cons_append, readScaled]
    split_ifs
    · exact readExponentPart_append ends _ _ _ _
    · exact endReal_append _ _ (c :: text) rest

/-- What follows is **left** when the places were read. -/
theorem readPlaces_append {rest : List Char} (ends : Ends rest) (negative : Bool)
    (significand : Nat) (exponent : Int) (text : List Char) :
    (readPlaces negative significand exponent (text ++ rest)).toOption
      = (readPlaces negative significand exponent text).toOption.map (extend rest) := by
  simp only [readPlaces, addDigits_append ends.isDigit_head?, dropDigits_append ends.isDigit_head?]
  by_cases missing : (addDigits significand text).2.1
      + (dropDigits (addDigits significand text).2.2).1 = 0
  · simp only [if_pos missing]
    rfl
  · simp only [if_neg missing]
    exact readScaled_append ends _ _ _ _

/-- A number from **after its digits before the point** on; so many of them were dropped. -/
def readAfterWhole (negative : Bool) (significand dropped : Nat) (rest : List Char) : Numeral :=
  match rest with
  | '.' :: places => readPlaces negative significand dropped places
  | _ =>
    if dropped = 0 ∧ !(rest.head?.any fun c => c = 'e' || c = 'E') then
      endWhole negative significand rest
    else readScaled negative significand dropped rest

/-- A magnitude is **its digits before the point and what comes after them**. -/
theorem readMagnitude_cons (negative : Bool) (first : Char) (more : List Char) :
    readMagnitude negative (first :: more) =
      if first = '0' ∧ (more.head?.any Char.isDigit) then .error (.at .badNumber more)
      else if first.isDigit then
        readAfterWhole negative (addDigits 0 (first :: more)).1
          (dropDigits (addDigits 0 (first :: more)).2.2).1
          (dropDigits (addDigits 0 (first :: more)).2.2).2
      else .error (.at .badNumber (first :: more)) := by
  rfl

/-- What follows is **left** when what comes after the whole digits was read. -/
theorem readAfterWhole_append {rest : List Char} (ends : Ends rest) (negative : Bool)
    (significand dropped : Nat) (text : List Char) :
    (readAfterWhole negative significand dropped (text ++ rest)).toOption
      = (readAfterWhole negative significand dropped text).toOption.map (extend rest) := by
  -- unless a point follows, the number is whole or has an exponent
  have plain (text : List Char) (point : text.head? ≠ some '.') :
      readAfterWhole negative significand dropped text =
        if dropped = 0 ∧ !(text.head?.any fun c => c = 'e' || c = 'E') then
          endWhole negative significand text
        else readScaled negative significand dropped text := by
    cases text with
    | nil => rfl
    | cons c text =>
      have other : c ≠ '.' := by simpa using point
      simp [readAfterWhole, other]
  by_cases point : text.head? = some '.'
  · obtain ⟨places, rfl⟩ := List.head?_eq_some_iff.mp point
    exact readPlaces_append ends _ _ _ _
  · have mark : (text ++ rest).head? ≠ some '.'
        ∧ ((text ++ rest).head?.any fun c => c = 'e' || c = 'E')
          = text.head?.any fun c => c = 'e' || c = 'E' := by
      cases text with
      | nil =>
        cases rest with
        | nil => exact ⟨by simp, rfl⟩
        | cons c rest =>
          -- what ends a numeral is neither a point nor the mark of an exponent
          obtain ⟨-, other, small, large, -⟩ := continuesNumeral_eq_false_iff.mp (ends c rfl)
          exact ⟨by simp [other], by simp [small, large]⟩
      | cons => exact ⟨point, rfl⟩
    rw [plain text point, plain _ mark.1, mark.2]
    split_ifs
    · exact endWhole_append _ _ _ _
    · exact readScaled_append ends _ _ _ _

/-- What follows is **left** when a number without its sign was read. -/
theorem readMagnitude_append {rest : List Char} (ends : Ends rest) (negative : Bool)
    (text : List Char) :
    (readMagnitude negative (text ++ rest)).toOption
      = (readMagnitude negative text).toOption.map (extend rest) := by
  have stop := ends.isDigit_head?
  cases text with
  | nil =>
    cases rest with
    | nil => rfl
    | cons c rest =>
      have other : c.isDigit = false := by simpa using stop
      have zero : c ≠ '0' := by
        rintro rfl
        cases other
      simp [readMagnitude, other, zero, Except.toOption]
  | cons first more =>
    -- what ends a numeral is no digit, so no digit comes up behind the first
    have leading : (more ++ rest).head?.any Char.isDigit = more.head?.any Char.isDigit := by
      cases more with
      | nil => exact stop
      | cons => rfl
    rw [List.cons_append, readMagnitude_cons, readMagnitude_cons, leading, ← List.cons_append,
      addDigits_append ends.isDigit_head?, dropDigits_append ends.isDigit_head?]
    split_ifs
    · rfl
    · exact readAfterWhole_append ends _ _ _ _
    · rfl

/-- **What follows a number does not matter to it**: it is read in the same way, or refused. -/
theorem readNumber_append {rest : List Char} (ends : Ends rest) {text : List Char}
    (some_text : text ≠ []) :
    (readNumber (text ++ rest)).toOption = (readNumber text).toOption.map (extend rest) := by
  cases text with
  | nil => exact absurd rfl some_text
  | cons c text =>
    by_cases minus : c = '-'
    · subst minus
      exact readMagnitude_append ends true text
    · have magnitude (more : List Char) : readNumber (c :: more) = readMagnitude false (c :: more) := by
        simp [readNumber, minus]
      rw [List.cons_append, magnitude, magnitude, ← List.cons_append]
      exact readMagnitude_append ends false (c :: text)

/-! ## 4. Whole numbers -/

/-- The digits of a number that is not zero **begin with none**. -/
theorem head?_toDigits_ne_zero {n : Nat} (h : n ≠ 0) : (Nat.toDigits 10 n).head? ≠ some '0' := by
  induction n using Nat.strongRecOn with
  | _ n ih =>
    by_cases small : n < 10
    · rw [Nat.toDigits_of_lt_base small]
      have each : ∀ d < 10, d ≠ 0 → [Nat.digitChar d].head? ≠ some '0' := by decide
      exact each n small h
    · have large : 10 ≤ n := Nat.not_lt.mp small
      rw [Nat.toDigits_of_base_le (by decide) large,
        List.head?_append_of_ne_nil _ Nat.toDigits_ne_nil]
      exact ih (n / 10) (by omega) (by omega)

/-- Digits only make a value larger. -/
theorem le_digitValue (start : Nat) (digits : List Char) : start ≤ digitValue start digits := by
  induction digits generalizing start with
  | nil => exact Nat.le_refl start
  | cons c digits ih =>
    rw [Decimal.digitValue_cons]
    exact Nat.le_trans (by omega) (ih _)

/-- Digits whose value fits are **all added**. -/
theorem addDigits_of_fits {significand : Nat} {digits : List Char}
    (decimal : ∀ c ∈ digits, c.isDigit = true) (fits : digitValue significand digits ≤ significandMax) :
    addDigits significand digits = (digitValue significand digits, digits.length, []) := by
  induction digits generalizing significand with
  | nil => rfl
  | cons c digits ih =>
    rw [Decimal.digitValue_cons] at fits
    have grown : digitValue significand [c] ≤ significandMax := by
      rw [Decimal.digitValue_cons, Decimal.digitValue_nil]
      exact Nat.le_trans (le_digitValue _ digits) fits
    have here : c.isDigit = true ∧ digitValue significand [c] ≤ significandMax :=
      ⟨decimal c List.mem_cons_self, grown⟩
    rw [addDigits, if_pos here, Decimal.digitValue_cons, Decimal.digitValue_nil,
      ih (fun d member => decimal d (List.mem_cons_of_mem c member)) fits]
    rfl

/-- The digits of a number that fits are read as **that number**, with its sign. -/
theorem readMagnitude_toDigits (negative : Bool) {n : Nat} (fits : n ≤ significandMax) :
    readMagnitude negative (Nat.toDigits 10 n) = endWhole negative n [] := by
  have decimal : ∀ c ∈ Nat.toDigits 10 n, c.isDigit = true := fun c member =>
    Nat.isDigit_of_mem_toDigits (by decide) (by decide) member
  have value : digitValue 0 (Nat.toDigits 10 n) = n := Nat.ofDigitChars_ten_toDigits
  have added : addDigits 0 (Nat.toDigits 10 n) = (n, (Nat.toDigits 10 n).length, []) := by
    rw [addDigits_of_fits decimal (value.symm ▸ fits), value]
  have leading : ¬((Nat.toDigits 10 n).head? = some '0' ∧ 1 < (Nat.toDigits 10 n).length) := by
    rintro ⟨zero, long⟩
    by_cases none_at_all : n = 0
    · subst none_at_all
      exact absurd long (by decide)
    · exact head?_toDigits_ne_zero none_at_all zero
  cases digits : Nat.toDigits 10 n with
  | nil => exact absurd digits Nat.toDigits_ne_nil
  | cons first more =>
    rw [digits] at decimal added leading
    have alone : ¬(first = '0' ∧ (more.head?.any Char.isDigit)) := by
      rintro ⟨rfl, another⟩
      cases more with
      | nil => cases another
      | cons => exact leading ⟨rfl, by simp⟩
    rw [readMagnitude_cons, if_neg alone, if_pos (decimal first List.mem_cons_self), added]
    rfl

/-- A **whole number** is read back. -/
theorem readNumber_intText {n : Int} (inRange : Number.least ≤ n ∧ n < Number.limit) :
    readNumber (Decimal.intText n) = .ok (.whole n inRange, []) := by
  have whole {negative : Bool} {m : Nat} (sign : (if negative then -(m : Int) else m) = n)
      (kept : ¬(negative = true ∧ m = 0)) :
      endWhole negative m [] = .ok (.whole n inRange, []) := by
    have known : Number.ofInt? n = some (.whole n inRange) := dif_pos inRange
    simp only [endWhole, if_neg kept, sign, known]
  have low : -9223372036854775808 ≤ n := inRange.1
  have high : n < 18446744073709551616 := inRange.2
  unfold Decimal.intText
  split
  · next below =>
    rw [readNumber, readMagnitude_toDigits true (by simp only [significandMax]; omega)]
    exact whole (by rw [if_pos rfl]; omega) (by omega)
  · next above =>
    have plain : readNumber (Nat.toDigits 10 n.natAbs) = readMagnitude false (Nat.toDigits 10 n.natAbs) := by
      cases digits : Nat.toDigits 10 n.natAbs with
      | nil => rfl
      | cons c more =>
        have digit : c.isDigit = true :=
          Nat.isDigit_of_mem_toDigits (b := 10) (n := n.natAbs) (by decide) (by decide)
            (digits ▸ List.mem_cons_self)
        -- the first of the digits is no sign
        have minus : c ≠ '-' := by
          rintro rfl
          cases digit
        simp [readNumber, minus]
    rw [plain, readMagnitude_toDigits false (by simp only [significandMax]; omega)]
    exact whole (by rw [if_neg (by decide)]; omega) (by simp)

/-! ## 5. Numerals -/

/-- Only **digits**. -/
def AllDigits (text : List Char) : Prop :=
  ∀ c ∈ text, c.isDigit = true

/-- What may end a numeral: nothing, or **an exponent**. -/
def IsExponent (text : List Char) : Prop :=
  text = [] ∨ ∃ size, text = 'e' :: size ∧ AllDigits (Decimal.splitSign size).2

/-- What may follow the digits before the point: **places after it**, and an exponent. -/
def IsFraction (text : List Char) : Prop :=
  IsExponent text
    ∨ ∃ places exponent, text = '.' :: places ++ exponent ∧ AllDigits places ∧ IsExponent exponent

/-- An unsigned **numeral**: some digits, and what may follow them. -/
def IsMagnitude (text : List Char) : Prop :=
  ∃ first more fraction, text = first :: more ++ fraction ∧ AllDigits (first :: more)
    ∧ IsFraction fraction

/-- An unsigned **decimal**: some digits, and something after them. -/
def IsDecimal (text : List Char) : Prop :=
  ∃ first more fraction, text = first :: more ++ fraction ∧ AllDigits (first :: more)
    ∧ IsFraction fraction ∧ fraction ≠ []

/-- A decimal number is **a number without its sign**. -/
theorem IsDecimal.isMagnitude {text : List Char} (h : IsDecimal text) : IsMagnitude text := by
  obtain ⟨first, more, fraction, same, digits, ends, -⟩ := h
  exact ⟨first, more, fraction, same, digits, ends⟩

/-- A text of some kind, **with a sign or without**. -/
def Signed (kind : List Char → Prop) (text : List Char) : Prop :=
  kind text ∨ ∃ magnitude, text = '-' :: magnitude ∧ kind magnitude

/-- What is signed text of a kind is so **of a wider kind**. -/
theorem Signed.mono {kind kind' : List Char → Prop} (weaker : ∀ text, kind text → kind' text)
    {text : List Char} (h : Signed kind text) : Signed kind' text :=
  h.imp (weaker text) fun ⟨magnitude, same, h⟩ => ⟨magnitude, same, weaker magnitude h⟩

/-- A **numeral**. -/
abbrev IsNumeral (text : List Char) : Prop :=
  Signed IsMagnitude text

/-- A number is **read to its last character**, or not at all. -/
def Spent (read : Numeral) : Prop :=
  ∀ n rest, read = .ok (n, rest) → rest = []

/-- What is **not read at all** is fine, too. -/
theorem spent_error (fault : Fault) : Spent (.error fault) := by
  intro n rest h
  cases h

/-- A double is read **to the last character**. -/
theorem spent_endReal (negative : Bool) (x : Float) : Spent (endReal negative x []) := by
  unfold endReal
  split
  · intro n rest h
    cases h
    rfl
  · exact spent_error _

/-- A whole number is read **to the last character**. -/
theorem spent_endWhole (negative : Bool) (significand : Nat) :
    Spent (endWhole negative significand []) := by
  unfold endWhole
  dsimp only
  split
  · intro n rest h
    cases h
    rfl
  · exact spent_endReal _ _

/-- Of digits **none is left**. -/
theorem AllDigits.dropDigits {text : List Char} (h : AllDigits text) : (dropDigits text).2 = [] :=
  List.dropWhile_eq_nil_iff.mpr h

/-- Digits are taken **off the front**. -/
theorem suffix_addDigits (significand : Nat) (text : List Char) :
    (addDigits significand text).2.2 <:+ text := by
  induction text generalizing significand with
  | nil => exact List.suffix_refl []
  | cons c text ih =>
    rw [addDigits]
    split
    · exact (ih _).trans (List.suffix_cons c text)
    · exact List.suffix_refl _

/-- Digits are all added or dropped; **what follows them is left**. -/
theorem AllDigits.left {digits rest : List Char} (h : AllDigits digits)
    (stop : rest.head?.any Char.isDigit = false) (significand : Nat) :
    (Json.dropDigits (addDigits significand (digits ++ rest)).2.2).2 = rest := by
  have more : AllDigits (addDigits significand digits).2.2 := fun c member =>
    h c ((suffix_addDigits significand digits).subset member)
  rw [addDigits_append stop, dropDigits_append stop, more.dropDigits, List.nil_append]

/-- The digits of an exponent are used up, even when they are too many. -/
theorem AllDigits.readExponentSize {digits : List Char} (h : AllDigits digits) (size : Nat) :
    (∃ size', Json.readExponentSize size digits = .ok (size', []))
      ∨ ∃ left, Json.readExponentSize size digits = .error left ∧ AllDigits left := by
  induction digits generalizing size with
  | nil => exact .inl ⟨size, rfl⟩
  | cons c digits ih =>
    have later : AllDigits digits := fun d member => h d (List.mem_cons_of_mem c member)
    rw [Json.readExponentSize, if_pos (h c List.mem_cons_self)]
    dsimp only
    split_ifs
    · exact ih later _
    · exact .inr ⟨digits, rfl, later⟩

/-- The digits of an exponent are read **to the last one**. -/
theorem spent_readExponentPart {text : List Char} (h : AllDigits (Decimal.splitSign text).2)
    (negative : Bool) (significand : Nat) (exponent : Int) :
    Spent (readExponentPart negative significand exponent text) := by
  unfold readExponentPart
  revert h
  generalize Decimal.splitSign text = split
  obtain ⟨down, digits⟩ := split
  intro h
  dsimp only at h ⊢
  split
  · exact spent_error _
  · next c more =>
    rw [if_pos (h c List.mem_cons_self)]
    rcases h.readExponentSize 0 with ⟨size, read⟩ | ⟨left, read, digits⟩
    · rw [read]
      exact spent_endReal _ _
    · rw [read]
      dsimp only
      rw [digits.dropDigits]
      split
      · exact spent_error _
      · exact spent_endReal _ _

/-- An exponent is read **to its last digit**. -/
theorem spent_readScaled {text : List Char} (h : IsExponent text) (negative : Bool)
    (significand : Nat) (exponent : Int) : Spent (readScaled negative significand exponent text) := by
  rcases h with rfl | ⟨size, rfl, digits⟩
  · exact spent_endReal _ _
  · exact spent_readExponentPart digits _ _ _

/-- What ends a numeral begins with no digit. -/
theorem IsExponent.stop {text : List Char} (h : IsExponent text) :
    text.head?.any Char.isDigit = false := by
  rcases h with rfl | ⟨size, rfl, -⟩ <;> rfl

/-- Places do **not begin with a digit**. -/
theorem IsFraction.stop {text : List Char} (h : IsFraction text) :
    text.head?.any Char.isDigit = false := by
  rcases h with exponent | ⟨places, exponent, rfl, -⟩
  · exact exponent.stop
  · rfl

/-- What follows the whole digits is read **to its last digit**. -/
theorem spent_readAfterWhole {text : List Char} (h : IsFraction text) (negative : Bool)
    (significand dropped : Nat) : Spent (readAfterWhole negative significand dropped text) := by
  rcases h with (rfl | ⟨size, rfl, digits⟩) | ⟨places, exponent, rfl, decimal, ends⟩
  · simp only [readAfterWhole]
    split
    · exact spent_endWhole _ _
    · exact spent_endReal _ _
  · have marked : ¬(dropped = 0 ∧ !(('e' :: size).head?.any fun c => c = 'e' || c = 'E')) := by simp
    simp only [readAfterWhole, if_neg marked]
    exact spent_readExponentPart digits _ _ _
  · simp only [List.cons_append, readAfterWhole, readPlaces, decimal.left ends.stop]
    split
    · exact spent_error _
    · exact spent_readScaled ends _ _ _

/-- A number without its sign is read **to its last digit**. -/
theorem spent_readMagnitude {text : List Char} (h : IsMagnitude text) (negative : Bool) :
    Spent (readMagnitude negative text) := by
  obtain ⟨first, more, fraction, rfl, decimal, ends⟩ := h
  have left := decimal.left ends.stop 0
  rw [List.cons_append] at left ⊢
  rw [readMagnitude_cons, left]
  split_ifs
  · exact spent_error _
  · exact spent_readAfterWhole ends _ _ _
  · exact spent_error _

/-- What a numeral **begins with**. -/
def opensNumeral (c : Char) : Bool :=
  c = '-' || c.isDigit

/-- An unsigned numeral begins **with a digit**. -/
theorem IsMagnitude.opens {text : List Char} (h : IsMagnitude text) :
    ∃ c more, text = c :: more ∧ c.isDigit = true := by
  obtain ⟨first, more, fraction, rfl, decimal, -⟩ := h
  exact ⟨first, more ++ fraction, rfl, decimal first List.mem_cons_self⟩

/-- A numeral begins with a digit or with the sign. -/
theorem IsNumeral.opens {text : List Char} (h : IsNumeral text) :
    ∃ c more, text = c :: more ∧ opensNumeral c = true := by
  rcases h with unsigned | ⟨magnitude, rfl, -⟩
  · obtain ⟨c, more, rfl, digit⟩ := unsigned.opens
    exact ⟨c, more, rfl, by simp [opensNumeral, digit]⟩
  · exact ⟨'-', magnitude, rfl, rfl⟩

/-- A numeral is read **from its digits on**, with the sign it has. -/
theorem readNumber_of_signed {kind : List Char → Prop} {text : List Char} (h : Signed kind text)
    (unsigned : ∀ text, kind text → IsMagnitude text) :
    ∃ negative magnitude, kind magnitude ∧ readNumber text = readMagnitude negative magnitude := by
  rcases h with plain | ⟨magnitude, rfl, plain⟩
  · obtain ⟨c, more, rfl, digit⟩ := (unsigned text plain).opens
    have other : c ≠ '-' := by
      rintro rfl
      cases digit
    exact ⟨false, _, plain, by simp [readNumber, other]⟩
  · exact ⟨true, magnitude, plain, rfl⟩

/-- A numeral is **never read in part**. -/
theorem IsNumeral.spent {text : List Char} (h : IsNumeral text) : Spent (readNumber text) := by
  obtain ⟨negative, magnitude, unsigned, read⟩ := readNumber_of_signed h fun _ => id
  exact read ▸ spent_readMagnitude unsigned negative

/-- A number is **read as a double**, or not at all. -/
def ReadsReal (read : Numeral) : Prop :=
  ∀ n rest, read = .ok (n, rest) → ∃ x finite, n = .real x finite

/-- What is **not read at all** is no whole number. -/
theorem readsReal_error (fault : Fault) : ReadsReal (.error fault) := by
  intro n rest h
  cases h

/-- What ends in a double **is one**. -/
theorem readsReal_endReal (negative : Bool) (x : Float) (text : List Char) :
    ReadsReal (endReal negative x text) := by
  unfold endReal Number.ofFloat?
  by_cases finite : (if negative = true then -x else x).isFinite = true
  · rw [dif_pos finite]
    intro n rest h
    cases h
    exact ⟨_, finite, rfl⟩
  · rw [dif_neg finite]
    exact readsReal_error _

/-- With an exponent, a number is **a double**. -/
theorem readsReal_readScaled (negative : Bool) (significand : Nat) (exponent : Int)
    (text : List Char) : ReadsReal (readScaled negative significand exponent text) := by
  unfold readScaled readExponentPart
  repeat' split
  all_goals first | exact readsReal_endReal _ _ _ | exact readsReal_error _

/-- Digits **with something after them** are a double. -/
theorem readsReal_readAfterWhole {fraction : List Char} (h : IsFraction fraction)
    (some_fraction : fraction ≠ []) (negative : Bool) (significand dropped : Nat) :
    ReadsReal (readAfterWhole negative significand dropped fraction) := by
  rcases h with (rfl | ⟨size, rfl, -⟩) | ⟨places, exponent, rfl, -⟩
  · exact absurd rfl some_fraction
  · have marked : ¬(dropped = 0 ∧ !(('e' :: size).head?.any fun c => c = 'e' || c = 'E')) := by simp
    simp only [readAfterWhole, if_neg marked]
    exact readsReal_readScaled _ _ _ _
  · simp only [List.cons_append, readAfterWhole, readPlaces]
    split
    · exact readsReal_error _
    · exact readsReal_readScaled _ _ _ _

/-- A decimal is **never read as a whole number**. -/
theorem readsReal_readNumber {text : List Char} (h : Signed IsDecimal text) :
    ReadsReal (readNumber text) := by
  obtain ⟨negative, magnitude, decimal, read⟩ :=
    readNumber_of_signed h fun _ decimal => decimal.isMagnitude
  rw [read]
  obtain ⟨first, more, fraction, rfl, digits, ends, some_fraction⟩ := decimal
  have left := digits.left ends.stop 0
  rw [List.cons_append] at left ⊢
  rw [readMagnitude_cons, left]
  split_ifs
  · exact readsReal_error _
  · exact readsReal_readAfterWhole ends some_fraction _ _ _
  · exact readsReal_error _

/-! ## 6. How numbers are written -/

/-- The digits of a number **are digits**. -/
theorem allDigits_toDigits (n : Nat) : AllDigits (Nat.toDigits 10 n) := fun _ member =>
  Nat.isDigit_of_mem_toDigits (by decide) (by decide) member

/-- Digits **one after another** are digits. -/
theorem AllDigits.append {text more : List Char} (h : AllDigits text) (h' : AllDigits more) :
    AllDigits (text ++ more) := fun c member =>
  (List.mem_append.mp member).elim (h c) (h' c)

/-- What is **part of digits** is digits. -/
theorem AllDigits.of_subset {text more : List Char} (h : AllDigits text) (part : more ⊆ text) :
    AllDigits more := fun c member => h c (part member)

/-- Zeros **are digits**. -/
theorem allDigits_replicate (n : Nat) : AllDigits (List.replicate n '0') := fun c member => by
  rw [List.eq_of_mem_replicate member]
  rfl

/-- The **shortest digits** are digits. -/
theorem allDigits_shortest (tie : Decimal.Tie) (d : Decimal.Dyadic) :
    AllDigits (Decimal.shortest tie d).digits := by
  have ofNat (n : Nat) (k : Int) : AllDigits (Decimal.Digits.ofNat n k).digits :=
    (allDigits_toDigits n).of_subset fun c member => by
      have kept := List.mem_reverse.mp member
      exact List.mem_reverse.mp ((List.dropWhile_suffix _).subset kept)
  unfold Decimal.shortest
  dsimp only
  cases found : (List.range 17).findSome? fun (count : Nat) =>
      ((d.span.inUnits (d.span.magnitude - (count + 1))).nearest tie).map fun n =>
        Decimal.Digits.ofNat n (d.span.magnitude - (count + 1)) with
  | none =>
    rw [Option.getD_none]
    intro c member
    rw [List.mem_singleton.mp member]
    rfl
  | some digits =>
    obtain ⟨count, -, chosen⟩ := List.exists_of_findSome?_eq_some found
    obtain ⟨n, -, rfl⟩ := Option.map_eq_some_iff.mp chosen
    exact ofNat n _

open Decimal (Layout)

/-- Digits, some of them, and places after a point are **a decimal**. -/
theorem isDecimal_point (whole : List Char) {places : List Char} (some_digit : whole ≠ [])
    (h : AllDigits whole) (h' : AllDigits places) : IsDecimal (whole ++ '.' :: places) := by
  cases whole with
  | nil => exact absurd rfl some_digit
  | cons first more =>
    exact ⟨first, more, _, rfl, h, .inr ⟨places, [], (List.append_nil _).symm, h', .inl rfl⟩,
      List.cons_ne_nil _ _⟩

/-- Digits **written out** are a decimal, where whole numbers have a point. -/
theorem isDecimal_writeOut {l : Layout} (pointed : l.pointed = true) {d : Decimal.Digits}
    (h : AllDigits d.digits) : IsDecimal (l.writeOut d) := by
  unfold Layout.writeOut
  split_ifs with low long
  · exact isDecimal_point ['0'] (List.cons_ne_nil _ _) (allDigits_replicate 1)
      ((allDigits_replicate _).append h)
  · rw [Layout.wholeTail, if_pos pointed]
    refine isDecimal_point _ ?_ (h.append (allDigits_replicate _)) (allDigits_replicate 1)
    apply List.ne_nil_of_length_pos
    rw [List.length_append, List.length_replicate]
    omega
  · refine isDecimal_point _ ?_ (h.of_subset (List.take_subset _ _))
      (h.of_subset (List.drop_subset _ _))
    apply List.ne_nil_of_length_pos
    rw [List.length_take]
    omega

/-- The size of an exponent as it is written. -/
theorem allDigits_splitSign_intText (n : Int) (sign : List Char)
    (written : sign = [] ∨ sign = ['+'] ∧ 0 ≤ n) :
    AllDigits (Decimal.splitSign (sign ++ Decimal.intText n)).2 := by
  have digits := allDigits_toDigits n.natAbs
  -- the digits themselves begin with no sign
  have plain : Decimal.splitSign (Nat.toDigits 10 n.natAbs) = (false, Nat.toDigits 10 n.natAbs) := by
    cases text : Nat.toDigits 10 n.natAbs with
    | nil => rfl
    | cons c more =>
      have digit := digits c (text ▸ List.mem_cons_self)
      have minus : c ≠ '-' := by
        rintro rfl
        cases digit
      have plus : c ≠ '+' := by
        rintro rfl
        cases digit
      simp [Decimal.splitSign, minus, plus]
  unfold Decimal.intText
  rcases written with rfl | ⟨rfl, above⟩
  · split
    · exact digits
    · rw [List.nil_append, plain]
      exact digits
  · rw [if_neg (Int.not_lt.mpr above)]
    exact digits

/-- Digits **with an exponent** are a decimal. -/
theorem isDecimal_writeScientific (l : Layout) {d : Decimal.Digits} (h : AllDigits d.digits) :
    IsDecimal (l.writeScientific d) := by
  have exponent : IsExponent ('e' :: ((if l.signed && 1 ≤ d.point then ['+'] else [])
      ++ Decimal.intText (d.point - 1))) := by
    refine .inr ⟨_, rfl, allDigits_splitSign_intText _ _ ?_⟩
    split
    · next signed =>
      have above : 1 ≤ d.point := by simpa using (Bool.and_eq_true_iff.mp signed).2
      exact .inr ⟨rfl, by omega⟩
    · exact .inl rfl
  unfold Layout.writeScientific
  dsimp only
  rw [List.append_assoc, List.cons_append]
  split
  · exact ⟨'0', [], _, rfl, allDigits_replicate 1, .inl exponent, List.cons_ne_nil _ _⟩
  · next lead digits =>
    exact ⟨lead, [], _, rfl, digits ▸ h, .inl exponent, List.cons_ne_nil _ _⟩
  · next lead others _ digits =>
    rw [digits] at h
    have places : AllDigits others := h.of_subset (List.subset_cons_self lead others)
    exact ⟨lead, [], '.' :: others ++ _, rfl, h.of_subset (by simp),
      .inr ⟨others, _, rfl, places, exponent⟩, List.cons_ne_nil _ _⟩

/-- A finite double is **a number**, and not an infinite one. -/
theorem isNaN_isInf_of_isFinite {x : Float} (finite : x.isFinite = true) :
    x.isNaN = false ∧ x.isInf = false := by
  unfold Float.isFinite Float.Model.isFinite at finite
  unfold Float.isNaN Float.isInf Float.Model.isNaN Float.Model.isInf
  cases kind : x.toModel.unpack with
  | zero | finite => exact ⟨rfl, rfl⟩
  | infinity | notANumber =>
    rw [kind] at finite
    cases finite

/-- **Every double** is written as a decimal. -/
theorem isDecimal_writeNumber {x : Float} (finite : x.isFinite = true) :
    Signed IsDecimal (writeNumber (.real x finite)) := by
  have magnitude : IsDecimal
      (Layout.json.writeMagnitude (Decimal.Dyadic.ofBits x.toBits.toNat)) := by
    unfold Layout.writeMagnitude Layout.writeDigits
    split_ifs
    · exact isDecimal_point ['0'] (List.cons_ne_nil _ _) (allDigits_replicate 1)
        (allDigits_replicate 1)
    · exact isDecimal_writeOut rfl (allDigits_shortest _ _)
    · exact isDecimal_writeScientific _ (allDigits_shortest _ _)
  have number := isNaN_isInf_of_isFinite finite
  show Signed IsDecimal (Layout.json.write x)
  simp only [Layout.write, number, Bool.false_eq_true, if_false]
  split
  · exact .inr ⟨_, rfl, magnitude⟩
  · exact .inl magnitude

/-- **Every number** is written as a numeral. -/
theorem isNumeral_writeNumber (n : Number) : IsNumeral (writeNumber n) := by
  cases n with
  | whole n inRange =>
    have digits (m : Nat) : IsMagnitude (Nat.toDigits 10 m) := by
      cases text : Nat.toDigits 10 m with
      | nil => exact absurd text Nat.toDigits_ne_nil
      | cons first more =>
        exact ⟨first, more, [], (List.append_nil _).symm, text ▸ allDigits_toDigits m, .inl (.inl rfl)⟩
    show IsNumeral (Decimal.intText n)
    unfold Decimal.intText
    split
    · exact .inr ⟨_, rfl, digits _⟩
    · exact .inl (digits _)
  | real x finite => exact (isDecimal_writeNumber finite).mono fun _ => IsDecimal.isMagnitude

end Json

end RuleDispatch
