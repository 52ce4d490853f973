import RuleDispatch.Decimal.Read
import RuleDispatch.Json.Basic
import RuleDispatch.Json.Fault

/-! # Numbers in a document

A number is read into a significand below `2 ^ 64` and a power of ten. Digits that no longer fit are
dropped; before the point each of them raises the power. The double is then one multiplication or
division away, so the last place of a long number may differ from the nearest double.

* `scale` — a significand times a power of ten, in that rounding.
* `readNumber` — the number at the front of a text and the rest. -/

namespace RuleDispatch.Json

open RuleDispatch.Decimal (digitValue)

/-! ## 1. Significand and power of ten -/

/-- A **power of ten** as a double. -/
def powerOfTen (n : Nat) : Float :=
  Float.ofScientific 1 false n

/-- A double divided by `10 ^ n`, by at most `10 ^ 308` at a time and not beyond zero. -/
def scaleDown (x : Float) (n : Nat) : Float :=
  if n ≤ 308 then x / powerOfTen n
  else if x == 0 then x
  else scaleDown (x / powerOfTen 308) (n - 308)
termination_by n

/-- A significand **times a power of ten**; infinite when no double is that large. -/
def scale (significand : Nat) (exponent : Int) : Float :=
  let x := Float.ofNat significand
  if exponent < 0 then scaleDown x exponent.natAbs
  else if exponent ≤ 308 then x * powerOfTen exponent.toNat
  else if x == 0 then x
  else 1 / 0

/-- The largest significand, `2 ^ 64 - 1`. -/
def significandMax : Nat :=
  18446744073709551615

/-- Digits added to a significand **as long as they fit**: the significand, how many digits were
added, and the text after them. -/
def addDigits (significand : Nat) : List Char → Nat × Nat × List Char
  | [] => (significand, 0, [])
  | c :: rest =>
    if c.isDigit ∧ digitValue significand [c] ≤ significandMax then
      let (grown, count, after) := addDigits (digitValue significand [c]) rest
      (grown, count + 1, after)
    else (significand, 0, c :: rest)

/-- The digits at the front: how many there are, and the text after them. -/
def dropDigits (text : List Char) : Nat × List Char :=
  ((text.takeWhile Char.isDigit).length, text.dropWhile Char.isDigit)

/-! ## 2. Reading -/

/-- A number read, and the text after it. -/
abbrev Numeral := Except Fault (Number × List Char)

/-- A double that ends here, refused when it is not finite. -/
def endReal (negative : Bool) (x : Float) (rest : List Char) : Numeral :=
  match Number.ofFloat? (if negative then -x else x) with
  | some number => .ok (number, rest)
  | none => .error (.before .numberOutOfRange rest)

/-- A whole number that ends here. A negative one below the range, and minus zero, are doubles. -/
def endWhole (negative : Bool) (significand : Nat) (rest : List Char) : Numeral :=
  let n : Int := if negative then -significand else significand
  match if negative ∧ significand = 0 then none else Number.ofInt? n with
  | some number => .ok (number, rest)
  | none => endReal negative (Float.ofNat significand) rest

/-- The largest size of a written exponent that is computed with, `2 ^ 31 - 1`. -/
def exponentMax : Nat :=
  2147483647

/-- Exponent digits **up to the largest size**: the size, or the text after the digit that went
beyond it. -/
def readExponentSize (size : Nat) : List Char → Except (List Char) (Nat × List Char)
  | [] => .ok (size, [])
  | c :: rest =>
    if c.isDigit then
      let grown := digitValue size [c]
      if grown ≤ exponentMax then readExponentSize grown rest else .error rest
    else .ok (size, c :: rest)

/-- A number from its **exponent digits** on; the text starts after the letter. -/
def readExponentPart (negative : Bool) (significand : Nat) (exponent : Int)
    (text : List Char) : Numeral :=
  let (down, digits) := Decimal.splitSign text
  match digits with
  | [] => .error (.at .endInValue [])
  | c :: _ =>
    if c.isDigit then
      match readExponentSize 0 digits with
      | .ok (size, rest) =>
        endReal negative (scale significand (if down then exponent - size else exponent + size)) rest
      | .error rest =>
        if significand ≠ 0 ∧ !down then .error (.before .numberOutOfRange rest)
        else endReal negative 0 (dropDigits rest).2
    else .error (.at .badNumber digits)

/-- A double whose significand is complete: an exponent may follow. -/
def readScaled (negative : Bool) (significand : Nat) (exponent : Int) (text : List Char) : Numeral :=
  match text with
  | c :: rest =>
    if c = 'e' ∨ c = 'E' then readExponentPart negative significand exponent rest
    else endReal negative (scale significand exponent) text
  | [] => endReal negative (scale significand exponent) []

/-- A number from its **places after the point** on; the text starts after the point. -/
def readPlaces (negative : Bool) (significand : Nat) (exponent : Int) (text : List Char) : Numeral :=
  let (grown, count, more) := addDigits significand text
  let (dropped, rest) := dropDigits more
  if count + dropped = 0 then
    .error (.at (if rest = [] then .endInValue else .badNumber) rest)
  else readScaled negative grown (exponent - count) rest

/-- An **unsigned number**, digits first. -/
def readMagnitude (negative : Bool) (text : List Char) : Numeral :=
  match text with
  | [] => .error (.at .endInValue [])
  | first :: more =>
    if first = '0' ∧ (more.head?.any Char.isDigit) then .error (.at .badNumber more)
    else if first.isDigit then
      let (significand, _, long) := addDigits 0 text
      let (dropped, rest) := dropDigits long
      match rest with
      | '.' :: places => readPlaces negative significand dropped places
      | _ =>
        if dropped = 0 ∧ !(rest.head?.any fun c => c = 'e' || c = 'E') then
          endWhole negative significand rest
        else readScaled negative significand dropped rest
    else .error (.at .badNumber text)

/-- The **number at the front** of a text, with the text after it. -/
def readNumber (text : List Char) : Numeral :=
  match text with
  | '-' :: magnitude => readMagnitude true magnitude
  | _ => readMagnitude false text

end RuleDispatch.Json
