import RuleDispatch.Json.Numeral

/-! # Reading a document

A reader for data values that reports why and where a text is refused. Lists and objects may nest
up to a limit. Every function takes the text from its place on and gives back what it read together
with the text after it; a counter that starts above the length of the text bounds the recursion.

* `readText` — a text value from its opening quote on, with all escapes.
* `readValue` — a value of any kind.
* `Json.read` — a whole document. -/

namespace RuleDispatch.Json

/-! ## 1. Blanks and words -/

/-- Whether a character may stand between the parts of a document. -/
def isSpace (c : Char) : Bool :=
  c = ' ' || c = '\n' || c = '\t' || c = '\r'

/-- The text from its first character on that is no space. -/
def skipSpaces (text : List Char) : List Char :=
  text.dropWhile isSpace

@[simp] theorem skipSpaces_nil : skipSpaces [] = [] := rfl

/-- The text **after a word** that has to stand at its front. -/
def readWord : List Char → List Char → Except Fault (List Char)
  | [], text => .ok text
  | _ :: _, [] => .error (.at .endInValue [])
  | w :: word, c :: text => if c = w then readWord word text else .error (.at .expectedWord (c :: text))

/-! ## 2. Text values -/

/-- The value of a hexadecimal digit of either case. -/
def hexValue? (c : Char) : Option Nat :=
  if c.isDigit then some (c.toNat - '0'.toNat)
  else if 'a' ≤ c ∧ c ≤ 'f' then some (c.toNat - 'a'.toNat + 10)
  else if 'A' ≤ c ∧ c ≤ 'F' then some (c.toNat - 'A'.toNat + 10)
  else none

/-- **Four hexadecimal digits** at the front: the number and the text after them. Four bytes are
taken before they are looked at. -/
def readHex (text : List Char) : Except Fault (Nat × List Char) :=
  if byteLength text < 4 then .error (.before .endInText [])
  else
    match text with
    | a :: b :: c :: d :: rest =>
      match hexValue? a, hexValue? b, hexValue? c, hexValue? d with
      | some a, some b, some c, some d => .ok (((a * 16 + b) * 16 + c) * 16 + d, rest)
      | _, _, _, _ => .error ⟨.badEscape, byteLength text - 4⟩
    | _ => .error ⟨.badEscape, byteLength text - 4⟩

/-- The character that has to come next inside a pair of escapes, and the text after it. -/
def readPairMark (mark : Char) : List Char → Except Fault (List Char)
  | [] => .error (.before .endInText [])
  | c :: rest => if c = mark then .ok rest else .error (.at .endOfHexEscape (c :: rest))

/-- A character **escaped by its number**, from after the `u` on. Characters beyond the first plane
are written as two halves. -/
def readNumbered (text : List Char) : Except Fault (Char × List Char) := do
  let (first, rest) ← readHex text
  if 0xDC00 ≤ first ∧ first ≤ 0xDFFF then throw (.before .loneSurrogate rest)
  else if 0xD800 ≤ first ∧ first ≤ 0xDBFF then
    let rest ← readPairMark '\\' rest
    let rest ← readPairMark 'u' rest
    let (second, rest) ← readHex rest
    if 0xDC00 ≤ second ∧ second ≤ 0xDFFF then
      return (Char.ofNat ((first - 0xD800) * 0x400 + (second - 0xDC00) + 0x10000), rest)
    else throw (.before .loneSurrogate rest)
  else return (Char.ofNat first, rest)

/-- The character that a one-letter escape stands for. -/
def shortEscape? : Char → Option Char
  | '"' => some '"'
  | '\\' => some '\\'
  | '/' => some '/'
  | 'b' => some '\x08'
  | 'f' => some '\x0c'
  | 'n' => some '\n'
  | 'r' => some '\r'
  | 't' => some '\t'
  | _ => none

/-- An **escaped character**, from after the backslash on. -/
def readEscape : List Char → Except Fault (Char × List Char)
  | [] => .error (.before .endInText [])
  | c :: rest =>
    match shortEscape? c with
    | some denoted => .ok (denoted, rest)
    | none => if c = 'u' then readNumbered rest else .error (.at .badEscape (c :: rest))

/-- The **characters of a text value**, from after its opening quote on. -/
def readChars : Nat → List Char → Except Fault (List Char × List Char)
  | _, [] => .error (.before .endInText [])
  | 0, text => .error (.before .endInText text)
  | fuel + 1, c :: rest =>
    if c = '"' then .ok ([], rest)
    else if c = '\\' then do
      let (denoted, after) ← readEscape rest
      let (chars, after) ← readChars fuel after
      return (denoted :: chars, after)
    else if c.toNat < 0x20 then .error (.at .controlCharacter (c :: rest))
    else do
      let (chars, after) ← readChars fuel rest
      return (c :: chars, after)

/-- A **text value**, from after its opening quote on. -/
def readText (fuel : Nat) (text : List Char) : Except Fault (String × List Char) := do
  let (chars, rest) ← readChars fuel text
  return (String.ofList chars, rest)

/-! ## 3. Values -/

/-- How deep lists and objects may nest, plus one. -/
def depthLimit : Nat :=
  128

/-- The text after the comma between two entries, or `none` when the closing mark ends them. -/
def readSeparator (close : Char) (unfinished unexpected : Cause) (text : List Char) :
    Except Fault (Option (List Char)) :=
  match text with
  | [] => .error (.at unfinished [])
  | c :: rest =>
    if c = close then .ok none
    else if c = ',' then
      match skipSpaces rest with
      | [] => .error (.at .endInValue [])
      | d :: more => if d = close then .error (.at .trailingComma (d :: more)) else .ok (d :: more)
    else .error (.at unexpected (c :: rest))

/-- The text from the value of a field on: a colon has to come first. -/
def readColon (text : List Char) : Except Fault (List Char) :=
  match skipSpaces text with
  | [] => .error (.at .endInObject [])
  | c :: rest => if c = ':' then .ok rest else .error (.at .expectedColon (c :: rest))

/-- A field's name, from its opening quote on. -/
def readName (fuel : Nat) : List Char → Except Fault (String × List Char)
  | '"' :: rest => readText fuel rest
  | text => .error (.at .nameNotText text)

mutual

/-- A **value**. `depth` bounds how deep lists and objects may nest from here on. -/
def readValue : Nat → Nat → List Char → Except Fault (Json × List Char)
  | 0, _, text => .error (.before .expectedValue text)
  | fuel + 1, depth, text =>
    match skipSpaces text with
    | [] => .error (.at .endInValue [])
    | c :: rest =>
      if c = 'n' then do return (.null, ← readWord ['u', 'l', 'l'] rest)
      else if c = 't' then do return (.bool true, ← readWord ['r', 'u', 'e'] rest)
      else if c = 'f' then do return (.bool false, ← readWord ['a', 'l', 's', 'e'] rest)
      else if c = '-' ∨ c.isDigit then do
        let (number, rest) ← readNumber (c :: rest)
        return (.num number, rest)
      else if c = '"' then do
        let (s, rest) ← readText fuel rest
        return (.str s, rest)
      else if c = '[' then do
        if depth ≤ 1 then throw (.at .tooDeep (c :: rest))
        let (items, rest) ← readItems fuel (depth - 1) rest
        return (.arr items, rest)
      else if c = '{' then do
        if depth ≤ 1 then throw (.at .tooDeep (c :: rest))
        let (fields, rest) ← readFields fuel (depth - 1) rest
        return (ofFields fields, rest)
      else .error (.at .expectedValue (c :: rest))

/-- The **items of a list**, from after its opening bracket on. -/
def readItems : Nat → Nat → List Char → Except Fault (List Json × List Char)
  | 0, _, text => .error (.before .endInList text)
  | fuel + 1, depth, text =>
    match skipSpaces text with
    | [] => .error (.at .endInList [])
    | c :: rest => if c = ']' then .ok ([], rest) else readMoreItems fuel depth (c :: rest)

/-- The items of a list from an item on. -/
def readMoreItems : Nat → Nat → List Char → Except Fault (List Json × List Char)
  | 0, _, text => .error (.before .endInList text)
  | fuel + 1, depth, text => do
    let (item, rest) ← readValue fuel depth text
    match ← readSeparator ']' .endInList .expectedListEnd (skipSpaces rest) with
    | none => return ([item], (skipSpaces rest).tail)
    | some next =>
      let (items, rest) ← readMoreItems fuel depth next
      return (item :: items, rest)

/-- The **fields of an object**, from after its opening brace on. -/
def readFields : Nat → Nat → List Char → Except Fault (List (String × Json) × List Char)
  | 0, _, text => .error (.before .endInObject text)
  | fuel + 1, depth, text =>
    match skipSpaces text with
    | [] => .error (.at .endInObject [])
    | c :: rest => if c = '}' then .ok ([], rest) else readMoreFields fuel depth (c :: rest)

/-- The fields of an object from a name on. -/
def readMoreFields : Nat → Nat → List Char → Except Fault (List (String × Json) × List Char)
  | 0, _, text => .error (.before .endInObject text)
  | fuel + 1, depth, text => do
    let (name, rest) ← readName fuel text
    let rest ← readColon rest
    let (value, rest) ← readValue fuel depth rest
    match ← readSeparator '}' .endInObject .expectedObjectEnd (skipSpaces rest) with
    | none => return ([(name, value)], (skipSpaces rest).tail)
    | some next =>
      let (fields, rest) ← readMoreFields fuel depth next
      return ((name, value) :: fields, rest)

end

/-! ## 4. Documents -/

/-- A bound on the steps for a text: each character is met by at most three calls in a row. -/
def stepBound (text : List Char) : Nat :=
  3 * text.length + 3

/-- A **document**: one value, and nothing after it but spaces. -/
def readDocument (text : List Char) : Except Fault Json := do
  let (value, rest) ← readValue (stepBound text) depthLimit text
  match skipSpaces rest with
  | [] => return value
  | extra => throw (.at .trailingCharacters extra)

/-- The value that a text is, or why it is none. -/
def read (text : String) : Except Fault Json :=
  readDocument text.toList

end RuleDispatch.Json
