import RuleDispatch.Json.Skip
import RuleDispatch.Json.Printer
import RuleDispatch.Time.Rfc3339

/-! # Events

An event has a name, the moment it is stamped with and a payload. Only the name decides who gets
it.

* `Event` — the event.
* `Event.toJson` — the event as a document.
* `Event.read?` — the event that a document describes: an object with its fields in any order, or
  a list of its parts. Unlike a payload, a field that is not asked for is passed over unread. -/

namespace RuleDispatch

/-- A named, stamped **notification** with a payload. -/
structure Event where
  name : String
  timestamp : Timestamp
  data : Json := .null

namespace Event

/-- The event as an object. -/
def toJson (e : Event) : Json :=
  .obj [("name", .str e.name), ("timestamp", .str e.timestamp.text), ("data", e.data)]

/-! ## Reading an event -/

/-- The parts of an event **read so far**. -/
structure Draft where
  name : Option String := none
  timestamp : Option Timestamp := none
  data : Option Json := none

/-- The event of a draft with its necessary parts. -/
def Draft.finish? (d : Draft) : Option Event := do
  return { name := ← d.name, timestamp := ← d.timestamp, data := d.data.getD .null }

open Json (skipSpaces stepBound)

/-- A text value at the front. -/
def readText? (fuel : Nat) (text : List Char) : Option (String × List Char) :=
  match skipSpaces text with
  | '"' :: rest => (Json.readText fuel rest).toOption
  | _ => none

/-- A timestamp at the front. -/
def readTimestamp? (fuel : Nat) (text : List Char) : Option (Timestamp × List Char) := do
  let (s, rest) ← readText? fuel text
  return (← Timestamp.read? s.toList, rest)

/-- A payload at the front. It stands one level deep already. -/
def readData? (fuel : Nat) (text : List Char) : Option (Json × List Char) :=
  (Json.readValue fuel (Json.depthLimit - 1) text).toOption

/-- One field, its value next: a part of the event must not come **twice**. -/
def readField? (fuel : Nat) (d : Draft) (name : String) (text : List Char) :
    Option (Draft × List Char) :=
  if name = "name" then do
    if d.name.isSome then none
    let (value, rest) ← readText? fuel text
    return ({ d with name := some value }, rest)
  else if name = "timestamp" then do
    if d.timestamp.isSome then none
    let (value, rest) ← readTimestamp? fuel text
    return ({ d with timestamp := some value }, rest)
  else if name = "data" then do
    if d.data.isSome then none
    let (value, rest) ← readData? fuel text
    return ({ d with data := some value }, rest)
  else do
    let rest ← Json.skipValue fuel text
    return (d, rest)

/-- The fields of an event from a name on, with the closing brace. -/
def readFields? : Nat → Draft → List Char → Option (Draft × List Char)
  | 0, _, _ => none
  | fuel + 1, d, text => do
    let (name, rest) ← readText? fuel text
    let rest ← (Json.readColon rest).toOption
    let (d, rest) ← readField? fuel d name rest
    match skipSpaces rest with
    | '}' :: after => some (d, after)
    | ',' :: next => readFields? fuel d next
    | _ => none

/-- The text after a comma, if one stands at the front. -/
def afterComma? (text : List Char) : Option (List Char) :=
  match skipSpaces text with
  | ',' :: rest => some rest
  | _ => none

/-- The parts of an event **in a list**, with the closing bracket. -/
def readParts? (fuel : Nat) (text : List Char) : Option (Draft × List Char) := do
  let (name, rest) ← readText? fuel text
  let (timestamp, rest) ← readTimestamp? fuel (← afterComma? rest)
  let (data, rest) ← match afterComma? rest with
    | some next => readData? fuel next
    | none => some (.null, rest)
  match skipSpaces rest with
  | ']' :: after => some (⟨some name, some timestamp, some data⟩, after)
  | _ => none

/-- The **event that a document describes**. -/
def read? (text : String) : Option Event := do
  let chars := text.toList
  let fuel := stepBound chars
  let (draft, rest) ← match skipSpaces chars with
    | '{' :: start => readFields? fuel {} start
    | '[' :: start => readParts? fuel start
    | _ => none
  if skipSpaces rest ≠ [] then none else draft.finish?

end Event

end RuleDispatch
