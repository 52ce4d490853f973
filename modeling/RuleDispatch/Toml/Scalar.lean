import RuleDispatch.Decimal.Read
import RuleDispatch.Json.Reader
import RuleDispatch.Time.Calendar
import RuleDispatch.Toml.Basic

/-! # Texts, numbers and moments of a settings document

Texts are quoted in four ways: in double quotes with escapes or in single quotes without, on one
line or, between three quotes, on several. Numbers may have single underscores between their digits.
Moments are dates, times of day, or both, with a distance from universal time or not.

* `readBasic`, `readBasicLines`, `readLiteral`, `readLiteralLines` — the four kinds of text.
* `readAmount` — a whole number or a double.
* `skipMoment`, `readMeasure` — a moment, a moment or a number. -/

namespace RuleDispatch.Toml

/-! ## 1. Characters -/

/-- The single quote. -/
def singleQuote : Char :=
  '\x27'

/-- Whether a character may stand in a comment. -/
def isPlain (c : Char) : Bool :=
  c = '\t' || (' ' ≤ c && c ≠ '\x7f')

/-- Whether a character stands for itself between double quotes. -/
def isBasic (c : Char) : Bool :=
  isPlain c && c ≠ '"' && c ≠ '\\'

/-- Whether a character may stand between single quotes. -/
def isLiteral (c : Char) : Bool :=
  isPlain c && c ≠ singleQuote

/-- Whether a character is a space within a line. -/
def isGap (c : Char) : Bool :=
  c = ' ' || c = '\t'

/-- The text without the spaces at its front. -/
def skipGap (text : List Char) : List Char :=
  text.dropWhile isGap

/-- The text after the **end of a line**, if one stands at the front. -/
def skipLineEnd? : List Char → Option (List Char)
  | '\n' :: rest => some rest
  | '\r' :: '\n' :: rest => some rest
  | _ => none

/-- The text without the ends of lines and the spaces at its front; the counter bounds how many
parts are passed over. -/
def skipBlank : Nat → List Char → List Char
  | 0, text => text
  | fuel + 1, text =>
    match skipLineEnd? (skipGap text) with
    | some rest => skipBlank fuel rest
    | none => skipGap text

/-! ## 2. Texts -/

/-- The character **with a number**, given by `width` hexadecimal digits. -/
def readNumbered (width : Nat) (text : List Char) : Option (Char × List Char) := do
  let digits := text.take width
  if digits.length < width then none
  let n ← digits.foldlM (fun n c => (Json.hexValue? c).map (16 * n + ·)) 0
  if h : n.isValidChar then some (Char.ofNatAux n h, text.drop width) else none

/-- An **escaped character**, from after the backslash on. -/
def readEscape : List Char → Option (Char × List Char)
  | 'b' :: rest => some ('\x08', rest)
  | 'f' :: rest => some ('\x0c', rest)
  | 'n' :: rest => some ('\n', rest)
  | 'r' :: rest => some ('\r', rest)
  | 't' :: rest => some ('\t', rest)
  | '"' :: rest => some ('"', rest)
  | '\\' :: rest => some ('\\', rest)
  | 'u' :: rest => readNumbered 4 rest
  | 'U' :: rest => readNumbered 8 rest
  | _ => none

/-- Text in **double quotes**, from after the opening quote on. -/
def readBasic : Nat → List Char → Option (List Char × List Char)
  | 0, _ => none
  | _, [] => none
  | fuel + 1, c :: rest =>
    if c = '"' then some ([], rest)
    else if c = '\\' then do
      let (denoted, after) ← readEscape rest
      let (chars, after) ← readBasic fuel after
      return (denoted :: chars, after)
    else if isBasic c then do
      let (chars, after) ← readBasic fuel rest
      return (c :: chars, after)
    else none

/-- How many quotes stand at the front, and the text after them. -/
def countQuotes (quote : Char) (text : List Char) : Nat × List Char :=
  ((text.takeWhile (· = quote)).length, text.dropWhile (· = quote))

/-- **A run of quotes** in a text between three quotes: one or two belong to the text, three to five
close it, those before the last three belonging to the text, and more are wrong. The result tells
how many belong to it, and whether it is closed. -/
def closing? (quotes : Nat) : Option (Nat × Bool) :=
  if quotes < 3 then some (quotes, false)
  else if quotes ≤ 5 then some (quotes - 3, true)
  else none

/-- Text between **three double quotes**, from after them on. A backslash at the end of a line takes
out everything up to the next character that is not blank. -/
def readBasicLines : Nat → List Char → Option (List Char × List Char)
  | 0, _ => none
  | _, [] => none
  | fuel + 1, c :: rest =>
    if c = '"' then do
      let (quotes, after) := countQuotes '"' (c :: rest)
      let (kept, closed) ← closing? quotes
      if closed then return (List.replicate kept '"', after)
      let (chars, after) ← readBasicLines fuel after
      return (List.replicate kept '"' ++ chars, after)
    else if c = '\\' then
      match skipLineEnd? (skipGap rest) with
      | some after => readBasicLines fuel (skipBlank rest.length after)
      | none => do
        let (denoted, after) ← readEscape rest
        let (chars, after) ← readBasicLines fuel after
        return (denoted :: chars, after)
    else if isBasic c then do
      let (chars, after) ← readBasicLines fuel rest
      return (c :: chars, after)
    else do
      let after ← skipLineEnd? (c :: rest)
      let (chars, after) ← readBasicLines fuel after
      return ('\n' :: chars, after)

/-- Text in **single quotes**, from after the opening quote on. -/
def readLiteral (text : List Char) : Option (List Char × List Char) :=
  match text.dropWhile isLiteral with
  | c :: rest => if c = singleQuote then some (text.takeWhile isLiteral, rest) else none
  | [] => none

/-- Text between **three single quotes**, from after them on. -/
def readLiteralLines : Nat → List Char → Option (List Char × List Char)
  | 0, _ => none
  | _, [] => none
  | fuel + 1, c :: rest =>
    if c = singleQuote then do
      let (quotes, after) := countQuotes singleQuote (c :: rest)
      let (kept, closed) ← closing? quotes
      if closed then return (List.replicate kept singleQuote, after)
      let (chars, after) ← readLiteralLines fuel after
      return (List.replicate kept singleQuote ++ chars, after)
    else if isLiteral c then do
      let (chars, after) ← readLiteralLines fuel rest
      return (c :: chars, after)
    else do
      let after ← skipLineEnd? (c :: rest)
      let (chars, after) ← readLiteralLines fuel after
      return ('\n' :: chars, after)

/-- The text after the end of the line on which three quotes stand, if nothing follows them there. -/
def afterOpening (text : List Char) : List Char :=
  (skipLineEnd? text).getD text

/-- Text in **quotes of any kind**. -/
def readQuoted (fuel : Nat) (text : List Char) : Option (List Char × List Char) :=
  match text with
  | '"' :: '"' :: '"' :: rest => readBasicLines fuel (afterOpening rest)
  | '"' :: rest => readBasic fuel rest
  | '\x27' :: '\x27' :: '\x27' :: rest => readLiteralLines fuel (afterOpening rest)
  | '\x27' :: rest => readLiteral rest
  | _ => none

/-! ## 3. Numbers -/

/-- The digits after the first, single underscores between them left out. An underscore that no
digit follows is wrong. -/
def readMoreDigits (isDigit : Char → Bool) : List Char → Option (List Char × List Char)
  | '_' :: c :: rest =>
    if isDigit c then (readMoreDigits isDigit rest).map fun (digits, after) => (c :: digits, after)
    else none
  | c :: rest =>
    if c = '_' then none
    else if isDigit c then
      (readMoreDigits isDigit rest).map fun (digits, after) => (c :: digits, after)
    else some ([], c :: rest)
  | [] => some ([], [])

/-- **Digits**, at least one. -/
def readDigits (isDigit : Char → Bool) : List Char → Option (List Char × List Char)
  | c :: rest =>
    if isDigit c then (readMoreDigits isDigit rest).map fun (digits, after) => (c :: digits, after)
    else none
  | [] => none

/-- The digits of a whole number: a zero alone, or digits that start with another one. -/
def readWhole : List Char → Option (List Char × List Char)
  | '0' :: rest => some (['0'], rest)
  | text => readDigits Char.isDigit text

/-- An **exponent** with its letter, if there is one. -/
def readExponent (text : List Char) : Option (List Char × List Char) :=
  match text with
  | c :: rest =>
    if c = 'e' ∨ c = 'E' then do
      let (negative, digits) := Decimal.splitSign rest
      let (digits, after) ← readDigits Char.isDigit digits
      return ('e' :: (if negative then ['-'] else []) ++ digits, after)
    else some ([], text)
  | [] => some ([], [])

/-- A whole number that has to fit into sixty-four bits with a sign. -/
def fitting? (n : Int) : Option Setting :=
  if -9223372036854775808 ≤ n ∧ n ≤ 9223372036854775807 then some (.integer n) else none

/-- The value of digits in a base. -/
def valueIn (base : Nat) (digits : List Char) : Nat :=
  digits.foldl (fun n c => base * n + (Json.hexValue? c).getD 0) 0

/-- Whether a character is a digit in a base. -/
def isDigitIn (base : Nat) (c : Char) : Bool :=
  (Json.hexValue? c).any (· < base)

/-- A whole number **in another base**, from after its mark on. -/
def readInBase (base : Nat) (text : List Char) : Option (Setting × List Char) := do
  let (digits, rest) ← readDigits (isDigitIn base) text
  return (← fitting? (valueIn base digits), rest)

/-- A double written out; one above the range is wrong. -/
def real? (written : List Char) : Option Setting := do
  let x ← Decimal.readDecimal written
  if x.isInf && 0 < x then none else some (.real x)

/-- A **decimal number** of some sign, whole or not. -/
def readDecimal (negative : Bool) (text : List Char) : Option (Setting × List Char) := do
  let sign := if negative then ['-'] else []
  let (whole, rest) ← readWhole text
  match rest with
  | '.' :: places =>
    let (places, rest) ← readDigits Char.isDigit places
    let (exponent, rest) ← readExponent rest
    return (← real? (sign ++ whole ++ '.' :: places ++ exponent), rest)
  | _ =>
    let (exponent, rest) ← readExponent rest
    if exponent = [] then
      let size : Int := valueIn 10 whole
      return (← fitting? (if negative then -size else size), rest)
    else return (← real? (sign ++ whole ++ exponent), rest)

/-- A double **given by name**. -/
def readNamed (negative : Bool) : List Char → Option (Setting × List Char)
  | 'i' :: 'n' :: 'f' :: rest => some (.real (if negative then -1 / 0 else 1 / 0), rest)
  | 'n' :: 'a' :: 'n' :: rest => some (.real (0 / 0), rest)
  | _ => none

/-- A **number** of any kind. -/
def readAmount (text : List Char) : Option (Setting × List Char) :=
  match text with
  | '0' :: 'x' :: rest => readInBase 16 rest
  | '0' :: 'o' :: rest => readInBase 8 rest
  | '0' :: 'b' :: rest => readInBase 2 rest
  | _ =>
    let (negative, magnitude) := Decimal.splitSign text
    readNamed negative magnitude <|> readDecimal negative magnitude

/-! ## 4. Moments -/

/-- A number of two digits between two limits. -/
def readTwo (least greatest : Nat) : List Char → Option (Nat × List Char)
  | a :: b :: rest =>
    let n := Decimal.digitValue 0 [a, b]
    if a.isDigit && b.isDigit && least ≤ n && n ≤ greatest then some (n, rest) else none
  | _ => none

/-- The text after a mark that has to come next. -/
def readMark (mark : Char) : List Char → Option (List Char)
  | c :: rest => if c = mark then some rest else none
  | [] => none

/-- The text after a **date**. -/
def skipDate (text : List Char) : Option (List Char) := do
  let year := Decimal.digitValue 0 (text.take 4)
  let rest ← readMark '-' (text.drop 4)
  let (month, rest) ← readTwo 1 12 rest
  let rest ← readMark '-' rest
  let (day, rest) ← readTwo 1 31 rest
  let _ ← Date.ofParts? year month day
  return rest

/-- The text after a **time of day**. -/
def skipTime (text : List Char) : Option (List Char) := do
  let (_, rest) ← readTwo 0 23 text
  let rest ← readMark ':' rest
  let (_, rest) ← readTwo 0 59 rest
  let rest ← readMark ':' rest
  let (_, rest) ← readTwo 0 60 rest
  match rest with
  | '.' :: places =>
    return if places.head?.any Char.isDigit then places.dropWhile Char.isDigit else rest
  | _ => return rest

/-- The text after a **distance from universal time**, if there is one. -/
def skipOffset (text : List Char) : Option (List Char) :=
  match text with
  | c :: rest =>
    if c = 'Z' ∨ c = 'z' then some rest
    else if c = '+' ∨ c = '-' then do
      let (_, rest) ← readTwo 0 23 rest
      let rest ← readMark ':' rest
      let (_, rest) ← readTwo 0 59 rest
      return rest
    else some text
  | [] => some []

/-- Whether a text starts like a date: four digits and a hyphen. -/
def startsDate (text : List Char) : Bool :=
  (text.take 4).all Char.isDigit && text[4]? = some '-'

/-- Whether a text starts like a time of day: two digits and a colon. -/
def startsTime (text : List Char) : Bool :=
  (text.take 2).all Char.isDigit && text[2]? = some ':'

/-- The text after a **moment**, when the text starts like one. -/
def skipMoment (text : List Char) : Option (List Char) :=
  if startsDate text then do
    let rest ← skipDate text
    match rest with
    | c :: time =>
      if (c = 'T' ∨ c = 't' ∨ c = ' ') ∧ startsTime time then skipOffset (← skipTime time)
      else return rest
    | [] => return []
  else skipTime text

/-- A **moment or a number**. -/
def readMeasure (text : List Char) : Option (Setting × List Char) :=
  if startsDate text || startsTime text then do
    let rest ← skipMoment text
    return (.moment (String.ofList (text.take (text.length - rest.length))), rest)
  else readAmount text

end RuleDispatch.Toml
