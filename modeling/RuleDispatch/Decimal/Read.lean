/-! # Reading a decimal

A number typed by a person: an optional sign, digits with an optional point and at least one digit
on either side of it, an optional exponent; or one of the words `inf`, `infinity` and `nan` in any
mix of upper and lower case. The text denotes the double nearest to it.

* `digitValue` — the number that a run of digits denotes.
* `readDecimal` — the whole text as a double. -/

namespace RuleDispatch.Decimal

/-- The value of a run of decimal digits, continued from `start`. -/
def digitValue (start : Nat) (digits : List Char) : Nat :=
  digits.foldl (fun n c => 10 * n + (c.toNat - '0'.toNat)) start

@[simp] theorem digitValue_nil (start : Nat) : digitValue start [] = start := rfl

/-- The first digit counts **ten times as much** as what follows it. -/
@[simp] theorem digitValue_cons (start : Nat) (c : Char) (digits : List Char) :
    digitValue start (c :: digits) = digitValue (10 * start + (c.toNat - '0'.toNat)) digits := by
  simp only [digitValue, List.foldl_cons]

/-- The double nearest to `m · 10 ^ e`. -/
def ofScaled (m : Nat) (e : Int) : Float :=
  Float.ofScientific m (e < 0) e.natAbs

/-- A **sign** at the front, `true` for minus, and what follows it. -/
def splitSign : List Char → Bool × List Char
  | '-' :: rest => (true, rest)
  | '+' :: rest => (false, rest)
  | text => (false, text)

/-- An **exponent part** that fills the text: nothing at all, or the letter, an optional sign and
digits. -/
def readExponent : List Char → Option Int
  | [] => some 0
  | letter :: rest =>
    if letter = 'e' ∨ letter = 'E' then
      let (negative, digits) := splitSign rest
      if digits ≠ [] ∧ digits.all Char.isDigit then
        let size : Int := digitValue 0 digits
        some (if negative then -size else size)
      else none
    else none

/-- An **unsigned decimal** that fills the text. -/
def readUnsigned (text : List Char) : Option Float :=
  let whole := text.takeWhile Char.isDigit
  let (places, rest) := match text.dropWhile Char.isDigit with
    | '.' :: after => (after.takeWhile Char.isDigit, after.dropWhile Char.isDigit)
    | after => ([], after)
  if whole = [] ∧ places = [] then none
  else (readExponent rest).map fun exponent =>
    ofScaled (digitValue 0 (whole ++ places)) (exponent - places.length)

/-- The **named values**, infinity and the value that is not a number. -/
def readNamed (text : List Char) : Option Float :=
  let word := text.map Char.toLower
  if word = "inf".toList ∨ word = "infinity".toList then some (1 / 0)
  else if word = "nan".toList then some (0 / 0)
  else none

/-- The **double that a text denotes**, if it denotes one. -/
def readDecimal (text : List Char) : Option Float :=
  let (negative, magnitude) := splitSign text
  (readUnsigned magnitude <|> readNamed magnitude).map fun x => if negative then -x else x

end RuleDispatch.Decimal
