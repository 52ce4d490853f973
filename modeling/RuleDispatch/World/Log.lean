import RuleDispatch.Event
import RuleDispatch.Interpreter
import RuleDispatch.Rule.Document

/-! # What is recorded and answered

* `Note` — what the dispatcher notes about itself, with its wording in `Note.message` and
  `Note.fields`.
* `Answer` — the answer to an operation.
* `Entry` — one record of the log. -/

namespace RuleDispatch

/-- What the dispatcher **notes about itself**. -/
inductive Note where
  | ruleReplaced
  | ruleDisabled
  | ruleRegistered (subscriptions : Nat)
  | ruleDisposed (rule : String)
  | triggerUnknown (rule : String)
  | conditionsNotMet (rule : String)
  | firingDropped (rule : String)
  | runCancelled (rule : String)
  | ruleFired (rule : String)
  | runFinished (rule : String) (summary : Summary)
  | runPanicked (rule : String)
  | callFailed (service reason : String)
  | waitInterrupted (ms : Nat)
  | stopped
  | patternExpired (event : String)
  | intervalZero
  | timerCancelled
  | lineIgnored (line reason : String)
  | consoleClosed
deriving DecidableEq, Repr

namespace Note

/-- The wording of a note. -/
def message : Note → String
  | ruleReplaced => "replacing existing rule"
  | ruleDisabled => "rule disabled, not registered"
  | ruleRegistered _ => "rule registered"
  | ruleDisposed _ => "rule disposed"
  | triggerUnknown _ => "skipping unknown trigger"
  | conditionsNotMet _ => "conditions not met"
  | firingDropped _ => "rule already running, firing dropped"
  | runCancelled _ => "cancelling active run"
  | ruleFired _ => "rule fired"
  | runFinished _ _ => "run finished"
  | runPanicked _ => "run panicked"
  | callFailed _ _ => "service call failed"
  | waitInterrupted _ => "wait interrupted by cancellation"
  | stopped => "stop"
  | patternExpired _ => "pattern completed outside its window"
  | intervalZero => "refusing to schedule a timer with a zero interval"
  | timerCancelled => "timer cancelled"
  | lineIgnored _ _ => "ignoring console line"
  | consoleClosed => "console input closed"

/-- A truth value as text. -/
def flag (b : Bool) : String :=
  if b then "true" else "false"

/-- What a note tells, by name. -/
def fields : Note → List (String × String)
  | ruleRegistered subscriptions => [("subscriptions", toString subscriptions)]
  | ruleDisposed rule => [("rule", rule)]
  | triggerUnknown rule => [("rule", rule)]
  | conditionsNotMet rule => [("rule", rule)]
  | firingDropped rule => [("rule", rule)]
  | runCancelled rule => [("rule", rule)]
  | ruleFired rule => [("rule", rule)]
  | runFinished rule s =>
    [("rule", rule), ("service_calls", toString s.serviceCalls), ("halted", flag s.halted),
      ("cancelled", flag s.cancelled)]
  | runPanicked rule => [("rule", rule)]
  | callFailed service reason => [("service", service), ("error", reason)]
  | waitInterrupted ms => [("ms", toString ms)]
  | patternExpired event => [("event", event)]
  | lineIgnored line reason => [("line", line), ("error", reason)]
  | ruleReplaced | ruleDisabled | stopped | intervalZero | timerCancelled | consoleClosed => []

/-- A note on one line. -/
def text (n : Note) : String :=
  " ".intercalate (n.message :: n.fields.map fun (name, value) => name ++ "=" ++ value)

end Note

/-- The **answer** to an operation. -/
inductive Answer where
  /-- It was carried out. -/
  | done
  /-- Yes or no. -/
  | flag (yes : Bool)
  /-- A count. -/
  | count (n : Nat)
  /-- What is stored of an entity. -/
  | entity (number : Option Float) (text : Option String)
  /-- Whether a watcher is disposed of. -/
  | watcher (disposed : Bool)
  /-- The id of a rule. -/
  | ruleId (id : String)
  /-- The ids of rules. -/
  | ruleIds (ids : List String)
  /-- What a line of the console shows, if anything. -/
  | shown (output : Option String)
  /-- The lines that console input shows, and whether it broke off at bytes that are no text. -/
  | console (output : List String) (broken : Bool)
  /-- A part of the world as text. -/
  | description (text : String)
  /-- No handle has this label. -/
  | noSuchLabel
  /-- The engine is gone. -/
  | noEngine
  /-- The description is that of no rule. -/
  | noRule
  /-- The description is that of no actions. -/
  | noActions
  /-- The line is no command. -/
  | noCommand (reason : String)
  /-- The document is none. -/
  | noDocument (reason : String)

/-- One **record of the log**. -/
inductive Entry where
  /-- A callback was called with an event. -/
  | event (label : String) (event : Event)
  /-- A callback was told of a number; `stored` is what it reads back. -/
  | number (label key : String) (value : Float) (stored : Option Float)
  /-- A callback was told of a text; `stored` is what it reads back. -/
  | text (label key value : String) (stored : Option String)
  /-- A pattern was complete. -/
  | complete (label : String)
  /-- A timer ticked. -/
  | tick (label : String)
  /-- A service was called. -/
  | call (service : String) (data : Json)
  /-- An operation of a callback was answered. -/
  | did (answer : Answer)
  /-- A run outside any rule ended. -/
  | summary (label : String) (summary : Summary)
  /-- An entry of a document was left out. -/
  | skipped (entry : Skipped)
  /-- The dispatcher noted something about itself. -/
  | note (note : Note)

end RuleDispatch
