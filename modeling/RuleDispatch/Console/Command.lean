import RuleDispatch.Decimal.Read
import RuleDispatch.Json.Reader
import RuleDispatch.Text.Blank

/-! # Console commands

A line of the console is a word for what to do, and its arguments:

* `emit <name> [document]` — emit an event, with a payload if one is given;
* `set <key> <value>` — store a number if the value is a finite one, and the value as text if not;
* `get <key>` — show what is stored.

`Command.read` gives the command of a line, or a `CommandError`. -/

namespace RuleDispatch

open Text (trim trimStart splitWord firstWord)

/-- A **command**. -/
inductive Command where
  | emit (name : String) (data : Json)
  | setNumber (key : String) (value : Float)
  | setText (key value : String)
  | get (key : String)

/-- What a command can **lack**. -/
inductive Argument where
  | eventName
  | entityKey
  | value
deriving DecidableEq, Repr

/-- The name of an argument. -/
def Argument.name : Argument → String
  | eventName => "event name"
  | entityKey => "entity key"
  | value => "value"

/-- **Why a line is no command.** -/
inductive CommandError where
  /-- The line is blank. -/
  | empty
  /-- The first word is none of the known ones. -/
  | unknown (word : String)
  /-- An argument is missing. -/
  | missing (argument : Argument)
  /-- The payload is no document, for this reason. -/
  | badPayload (reason : String)
deriving DecidableEq, Repr

/-- The wording of an error. -/
def CommandError.message : CommandError → String
  | empty => "empty line"
  | unknown word => s!"unknown command `{word}`"
  | missing argument => s!"missing {argument.name}"
  | badPayload reason => s!"payload is not valid JSON: {reason}"

namespace Command

/-- The payload of an event: null when the text is empty, and a document if not. -/
def readPayload (text : List Char) : Except CommandError Json :=
  if text = [] then .ok .null
  else
    match Json.readDocument text with
    | .ok data => .ok data
    | .error fault => .error (.badPayload (fault.message text))

/-- The value of an assignment: a finite number, or text. -/
def assignment (key value : List Char) : Command :=
  match (Decimal.readDecimal value).filter Float.isFinite with
  | some number => .setNumber (String.ofList key) number
  | none => .setText (String.ofList key) (String.ofList value)

/-- The **command of a line**. -/
def read (line : String) : Except CommandError Command :=
  let (verb, after) := splitWord (trim line.toList)
  let rest := trimStart (after.getD [])
  if verb = [] then .error .empty
  else if verb = "emit".toList then
    match firstWord rest with
    | none => .error (.missing .eventName)
    | some name =>
      (readPayload (trim (rest.drop name.length))).map fun data => .emit (String.ofList name) data
  else if verb = "get".toList then
    match firstWord rest with
    | none => .error (.missing .entityKey)
    | some key => .ok (.get (String.ofList key))
  else if verb = "set".toList then
    match splitWord rest with
    | (_, none) => .error (.missing .value)
    | (key, some value) => .ok (assignment key (trim value))
  else .error (.unknown (String.ofList verb))

end Command

end RuleDispatch
