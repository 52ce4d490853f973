import RuleDispatch.Json.Basic

/-! # Actions

An action is one step of what a fired rule does. Actions nest: a list of them may be repeated. A
kind of action that is not understood is kept and does nothing.

* `Action` — the four kinds and the one for all others.
* `Action.describe`, `Action.toJson` — an action as text and as a document.
* `Action.flatten` — an action and all that are nested in it, outer ones first. -/

namespace RuleDispatch

/-- **One step of what a rule does.** -/
inductive Action where
  /-- Call a service with a payload. -/
  | serviceCall (service : String) (data : Json)
  /-- Wait this many milliseconds. -/
  | wait (ms : UInt64)
  /-- Run a list of actions so many times. -/
  | repeatCount (count : UInt32) (actions : List Action)
  /-- End the run. -/
  | stop
  /-- A kind that is not understood. -/
  | unknown

namespace Action

/-- The action **as text**. -/
def describe : Action → String
  | serviceCall service _ => s!"service_call({service})"
  | wait ms => s!"wait_duration({ms.toNat}ms)"
  | repeatCount count actions => s!"repeat_count({count.toNat}x, {actions.length} actions)"
  | stop => "stop"
  | unknown => "unknown"

mutual

/-- The action **as an object**, its kind first. -/
def toJson : Action → Json
  | serviceCall service data =>
    .obj [("type", .str "service_call"), ("service", .str service), ("data", data)]
  | wait ms => .obj [("type", .str "wait_duration"), ("ms", .ofNat ms.toNat)]
  | repeatCount count actions =>
    .obj [("type", .str "repeat_count"), ("count", .ofNat count.toNat),
      ("actions", .arr (listToJson actions))]
  | stop => .obj [("type", .str "stop")]
  | unknown => .obj [("type", .str "unknown")]

/-- Actions as objects. -/
def listToJson : List Action → List Json
  | [] => []
  | action :: rest => toJson action :: listToJson rest

end

mutual

/-- An action **and those nested in it**, outer ones first. -/
def flatten : Action → List Action
  | repeatCount count actions => repeatCount count actions :: flattenList actions
  | serviceCall service data => [serviceCall service data]
  | wait ms => [wait ms]
  | stop => [stop]
  | unknown => [unknown]

/-- Actions and those nested in them, in order. -/
def flattenList : List Action → List Action
  | [] => []
  | action :: rest => flatten action ++ flattenList rest

end

/-- A list of actions is written down **one by one**. -/
theorem listToJson_eq_map (actions : List Action) : listToJson actions = actions.map toJson := by
  induction actions with
  | nil => simp [listToJson]
  | cons action rest ih => simp [listToJson, ih]

end Action

end RuleDispatch
