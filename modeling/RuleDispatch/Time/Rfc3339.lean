import RuleDispatch.Decimal.Read
import RuleDispatch.Text.Blank
import RuleDispatch.Time.Calendar
import RuleDispatch.Time.Timestamp

/-! # Timestamps as text

The form `2024-06-30T18:00:00.500Z`. Written, it is in universal time, with as many places of the
second as needed: none, three, six or nine. Read, it may also have a distance from universal time,
a lower-case or blank separator, short numbers and blanks between its parts.

* `Timestamp.write`, `Timestamp.text` — the written form.
* `Timestamp.read?` — the moment that a text denotes. -/

namespace RuleDispatch.Timestamp

open RuleDispatch.Decimal (digitValue)
open RuleDispatch.Text (trimStart isBlank)

/-! ## 1. Writing -/

/-- A number with at least `width` digits. -/
def padded (width n : Nat) : List Char :=
  let digits := Nat.toDigits 10 n
  List.replicate (width - digits.length) '0' ++ digits

/-- A year: four digits, and a sign when that is not enough. -/
def writeYear (year : Int) : List Char :=
  if 0 ≤ year ∧ year ≤ 9999 then padded 4 year.toNat
  else (if year < 0 then '-' else '+') :: padded 4 year.natAbs

/-- The places of a second. -/
def writePlaces (nanos : Nat) : List Char :=
  if nanos = 0 then []
  else if nanos % 1000000 = 0 then '.' :: padded 3 (nanos / 1000000)
  else if nanos % 1000 = 0 then '.' :: padded 6 (nanos / 1000)
  else '.' :: padded 9 nanos

/-- The **written form** of a moment. A leap second is second sixty. -/
def write (t : Timestamp) : List Char :=
  let date := Date.ofDays (t.seconds.fdiv secondsPerDay)
  let second := t.secondOfDay.toNat
  let leap := if t.inLeapSecond then 1 else 0
  writeYear date.year ++ '-' :: padded 2 date.month ++ '-' :: padded 2 date.day
    ++ 'T' :: padded 2 (second / 3600) ++ ':' :: padded 2 (second / 60 % 60)
    ++ ':' :: padded 2 (second % 60 + leap)
    ++ writePlaces (t.nanos - leap * nanosPerSecond) ++ ['Z']

/-- The written form as a string. -/
def text (t : Timestamp) : String :=
  String.ofList t.write

/-! ## 2. Reading -/

/-- A number of **at most `most` digits** and the text after it; there has to be a digit. -/
def readDigits (most : Nat) (text : List Char) : Option (Nat × List Char) :=
  let digits := (text.take most).takeWhile Char.isDigit
  if digits = [] then none else some (digitValue 0 digits, text.drop digits.length)

/-- A number of at most two digits, after any blanks, between two limits. -/
def readPart (least greatest : Nat) (text : List Char) : Option (Nat × List Char) := do
  let (n, rest) ← readDigits 2 (trimStart text)
  if least ≤ n ∧ n ≤ greatest then some (n, rest) else none

/-- A **year**, after any blanks: up to four digits, or a sign and any number of them. -/
def readYear (text : List Char) : Option (Int × List Char) :=
  match trimStart text with
  | '-' :: rest => (readDigits rest.length rest).map fun (n, after) => (-(n : Int), after)
  | '+' :: rest => (readDigits rest.length rest).map fun (n, after) => ((n : Int), after)
  | start => (readDigits 4 start).map fun (n, after) => ((n : Int), after)

/-- The text after a mark that has to come next, after any blanks. -/
def readMark (mark : Char) (text : List Char) : Option (List Char) :=
  match trimStart text with
  | c :: rest => if c = mark then some rest else none
  | [] => none

/-- The **places of a second**, in nanoseconds; places after the ninth are dropped. -/
def readPlaces (text : List Char) : Option (Nat × List Char) :=
  match text with
  | '.' :: rest => do
    let digits := (rest.take 9).takeWhile Char.isDigit
    if digits = [] then none
    else some (digitValue 0 digits * Nat.pow 10 (9 - digits.length), rest.dropWhile Char.isDigit)
  | _ => some (0, text)

/-- Two digits, the first of them at most `most`. -/
def readTwo (most : Char) : List Char → Option (Nat × List Char)
  | a :: b :: rest =>
    if a.isDigit ∧ b.isDigit ∧ a ≤ most then some (digitValue 0 [a, b], rest) else none
  | _ => none

/-- The **distance from universal time** in seconds: `Z`, the word `UTC`, or a sign with hours and
minutes. It is less than a day. -/
def readOffset (text : List Char) : Option (Int × List Char) :=
  match text with
  | [] => none
  | c :: rest =>
    if (text.take 3).map Char.toLower = ['u', 't', 'c'] then some (0, text.drop 3)
    else if c = 'Z' ∨ c = 'z' then some (0, rest)
    else if c = '+' ∨ c = '-' ∨ c = '−' then do
      let (hours, rest) ← readTwo '9' rest
      let (minutes, rest) ← readTwo '5' (rest.dropWhile fun c => c = ':' || isBlank c)
      let size := hours * 3600 + minutes * 60
      if size < secondsPerDay then some (if c = '+' then size else -size, rest) else none
    else none

/-- The **moment that a text denotes**. Second sixty is a leap second, in any minute. -/
def read? (text : List Char) : Option Timestamp := do
  let (year, rest) ← readYear text
  let rest ← readMark '-' rest
  let (month, rest) ← readPart 1 12 rest
  let rest ← readMark '-' rest
  let (day, rest) ← readPart 1 31 rest
  let rest ← match rest with
    | c :: rest => if c = 'T' ∨ c = 't' ∨ c = ' ' then some rest else none
    | [] => none
  let (hour, rest) ← readPart 0 23 rest
  let rest ← readMark ':' rest
  let (minute, rest) ← readPart 0 59 rest
  let rest ← readMark ':' rest
  let (second, rest) ← readPart 0 60 rest
  let (places, rest) ← readPlaces rest
  let (offset, rest) ← readOffset (trimStart rest)
  if trimStart rest ≠ [] then none
  else do
    let date ← Date.ofParts? year month day
    let clock : Int := date.toDays * secondsPerDay
      + (hour * 3600 + minute * 60 + min second 59 : Nat)
    let nanos := if second = 60 then places + nanosPerSecond else places
    let _ ← ofParts? clock nanos
    ofParts? (clock - offset) nanos

end RuleDispatch.Timestamp
