import RuleDispatch.Toml.Scalar

/-! # Reading a settings document

A document is a sequence of lines: headers, keys with their values, comments. Each line is taken
into the table read so far, so a line that does not fit what came before makes the document wrong.

* `readValue` — a value of any kind.
* `readPath` — a key, with dots or without.
* `Setting.read?` — the table that a document describes. -/

namespace RuleDispatch.Toml

/-! ## 1. Comments -/

/-- The text after a comment, if one stands at the front. -/
def skipComment : List Char → List Char
  | '#' :: rest => rest.dropWhile isPlain
  | text => text

/-- The text after the **rest of a line** that may hold spaces and a comment only. -/
def skipRestOfLine (text : List Char) : Option (List Char) :=
  match skipComment (skipGap text) with
  | [] => some []
  | rest => skipLineEnd? rest

/-- The text after spaces, comments and ends of lines. -/
def skipLines : Nat → List Char → List Char
  | 0, text => text
  | fuel + 1, text =>
    match skipLineEnd? (skipComment (skipGap text)) with
    | some rest => skipLines fuel rest
    | none => skipGap text

/-! ## 2. Keys -/

/-- How many parts a key must not reach, and how deep values must not nest. -/
def depthLimit : Nat :=
  80

/-- Whether a character may stand in a key without quotes. -/
def isBare (c : Char) : Bool :=
  c.isAlphanum || c = '-' || c = '_'

/-- One **part of a key**. -/
def readPart (fuel : Nat) (text : List Char) : Option (String × List Char) :=
  match text with
  | '"' :: rest => (readBasic fuel rest).map fun (chars, after) => (String.ofList chars, after)
  | '\x27' :: rest => (readLiteral rest).map fun (chars, after) => (String.ofList chars, after)
  | _ =>
    let part := text.takeWhile isBare
    if part = [] then none else some (String.ofList part, text.dropWhile isBare)

/-- The **parts of a key**, with the spaces around them. -/
def readParts : Nat → List Char → Option (List String × List Char)
  | 0, _ => none
  | fuel + 1, text => do
    let (part, rest) ← readPart fuel (skipGap text)
    match skipGap rest with
    | '.' :: next =>
      let (parts, rest) ← readParts fuel next
      return (part :: parts, rest)
    | rest => return ([part], rest)

/-- A **key**: the parts before the last, the last, and the text after it. -/
def readPath (fuel : Nat) (text : List Char) : Option (List String × String × List Char) := do
  let (parts, rest) ← readParts fuel text
  let last ← parts.getLast?
  if depthLimit ≤ parts.length then none
  return (parts.dropLast, last, rest)

/-! ## 3. Values -/

mutual

/-- A **value**. `depth` bounds how deep lists and tables may nest from here on. -/
def readValue : Nat → Nat → List Char → Option (Setting × List Char)
  | 0, _, _ => none
  | fuel + 1, depth, text =>
    match text with
    | [] => none
    | c :: rest =>
      if c = '"' ∨ c = singleQuote then
        (readQuoted fuel text).map fun (chars, after) => (.text (String.ofList chars), after)
      else if c = '[' then do
        if depth ≤ 1 then none
        let (items, after) ← readItems fuel (depth - 1) rest
        return (.list items, after)
      else if c = '{' then do
        if depth ≤ 1 then none
        let (entries, after) ← readEntries fuel (depth - 1) rest
        return (.table .braces entries, after)
      else if c = '+' ∨ c = '-' ∨ c.isDigit then readMeasure text
      else
        match text with
        | 't' :: 'r' :: 'u' :: 'e' :: after => some (.flag true, after)
        | 'f' :: 'a' :: 'l' :: 's' :: 'e' :: after => some (.flag false, after)
        | _ => readNamed false text

/-- The **items of a list** from after its opening bracket or a comma on. A comma may stand after the
last one. -/
def readItems : Nat → Nat → List Char → Option (List Setting × List Char)
  | 0, _, _ => none
  | fuel + 1, depth, text =>
    match skipLines fuel text with
    | ']' :: after => some ([], after)
    | start => do
      let (item, rest) ← readValue fuel depth start
      match skipLines fuel rest with
      | ']' :: after => return ([item], after)
      | ',' :: next =>
        let (items, after) ← readItems fuel depth next
        return (item :: items, after)
      | _ => none

/-- The **entries of a table between braces**, from after the opening one on. -/
def readEntries : Nat → Nat → List Char → Option (Entries × List Char)
  | 0, _, _ => none
  | fuel + 1, depth, text =>
    match skipGap text with
    | '}' :: after => some ([], after)
    | start => readMoreEntries fuel depth [] start

/-- The entries of a table between braces, from a key on; `entries` are those before. -/
def readMoreEntries : Nat → Nat → Entries → List Char → Option (Entries × List Char)
  | 0, _, _, _ => none
  | fuel + 1, depth, entries, text => do
    let (path, key, rest) ← readPath fuel text
    let rest ← readMark '=' rest
    let (value, rest) ← readValue fuel depth (skipGap rest)
    let entries ← Setting.insert? path key value .header entries
    match skipGap rest with
    | '}' :: after => return (entries, after)
    | ',' :: next => readMoreEntries fuel depth entries next
    | _ => none

end

/-! ## 4. Documents -/

/-- What was read so far: the table, and the **path of the header** above the present line. -/
structure Draft where
  entries : Entries := []
  header : List String := []

/-- A **header line**, from after its first bracket on. -/
def readHeader (fuel : Nat) (d : Draft) (text : List Char) : Option (Draft × List Char) := do
  let shared := text.head? = some '['
  let (path, key, rest) ← readPath fuel (if shared then text.tail else text)
  let rest ← readMark ']' rest
  let rest ← if shared then readMark ']' rest else some rest
  let rest ← skipRestOfLine rest
  let entries ← if shared then Setting.append? path key d.entries
    else Setting.open? path key d.entries
  return (⟨entries, path ++ [key]⟩, rest)

/-- A line with a **key and its value**. -/
def readEntry (fuel : Nat) (d : Draft) (text : List Char) : Option (Draft × List Char) := do
  let (path, key, rest) ← readPath fuel text
  let rest ← readMark '=' rest
  let (value, rest) ← readValue fuel depthLimit (skipGap rest)
  let rest ← skipRestOfLine rest
  let entries ← Setting.extend? false (Setting.insert? path key value) d.header .header d.entries
  return ({ d with entries }, rest)

/-- The **lines** that are left. -/
def readLines : Nat → Draft → List Char → Option Draft
  | 0, _, _ => none
  | fuel + 1, d, text =>
    match skipGap text with
    | [] => some d
    | c :: rest =>
      if c = '[' then do
        let (d, rest) ← readHeader fuel d rest
        readLines fuel d rest
      else if c = '#' ∨ c = '\n' ∨ c = '\r' then do
        readLines fuel d (← skipRestOfLine (c :: rest))
      else do
        let (d, rest) ← readEntry fuel d (c :: rest)
        readLines fuel d rest

/-- The text without the mark of its byte order. -/
def skipByteOrderMark : List Char → List Char
  | '\uFEFF' :: rest => rest
  | text => text

end RuleDispatch.Toml

namespace RuleDispatch

/-- The **table that a settings document describes**. -/
def Setting.read? (document : String) : Option Entries :=
  let text := Toml.skipByteOrderMark document.toList
  (Toml.readLines (3 * text.length + 3) {} text).map (·.entries)

end RuleDispatch
