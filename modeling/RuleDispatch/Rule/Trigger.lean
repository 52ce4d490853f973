import RuleDispatch.Rule.Bounds

/-! # Triggers

A trigger says what proposes a rule for firing: an event of some name, a write of a number, the
clock, or a sequence of events. A kind of trigger that is not understood is kept and never fires.

* `Trigger` — the four kinds and the one for all others.
* `Trigger.describe`, `Trigger.toJson` — a trigger as text and as a document. -/

namespace RuleDispatch

/-- **What proposes a rule for firing.** -/
inductive Trigger where
  /-- An event with this name. -/
  | event (name : String)
  /-- A write of a number inside the bounds to this entity. -/
  | threshold (entity : String) (bounds : Bounds)
  /-- Every so many milliseconds. -/
  | schedule (intervalMs : UInt64)
  /-- Events of these names in this order, the last soon enough after the first. -/
  | pattern (sequence : List String) (withinMs : UInt64)
  /-- A kind that is not understood. -/
  | unknown

namespace Trigger

/-- The trigger **as text**. -/
def describe : Trigger → String
  | event name => s!"event({name})"
  | threshold entity bounds => s!"numeric_threshold({entity}, {bounds.describe})"
  | schedule intervalMs => s!"time_schedule({intervalMs.toNat}ms)"
  | pattern sequence withinMs =>
    let names := " → ".intercalate sequence
    s!"pattern_sequence({names} within {withinMs.toNat}ms)"
  | unknown => "unknown"

/-- The trigger **as an object**, its kind first. -/
def toJson : Trigger → Json
  | event name => .obj [("type", .str "event"), ("name", .str name)]
  | threshold entity bounds =>
    .obj (("type", .str "numeric_threshold") :: ("entity", .str entity) :: bounds.fields)
  | schedule intervalMs =>
    .obj [("type", .str "time_schedule"), ("interval_ms", .ofNat intervalMs.toNat)]
  | pattern sequence withinMs =>
    .obj [("type", .str "pattern_sequence"), ("sequence", .arr (sequence.map .str)),
      ("within_ms", .ofNat withinMs.toNat)]
  | unknown => .obj [("type", .str "unknown")]

end Trigger

end RuleDispatch
