import RuleDispatch.Rule.Action
import RuleDispatch.Rule.Condition
import RuleDispatch.Rule.Trigger

/-! # Rules

A rule is proposed for firing by any of its triggers, fires if all its conditions hold, and then
runs its actions in order. Its mode says what happens when it fires while a run of it is still
going on.

* `Mode`, `Rule` — the data.
* `Rule.named` and the `with…` functions — a rule built up step by step.
* `Rule.toJson` — a rule as a document. -/

namespace RuleDispatch

/-- What happens to **a firing during a run** of the same rule. -/
inductive Mode where
  /-- The firing is dropped. -/
  | single
  /-- The run is cancelled and a new one started. -/
  | restart
  /-- A new run is started beside it. -/
  | parallel
deriving DecidableEq, Repr

/-- The name of a mode. -/
def Mode.name : Mode → String
  | single => "single"
  | restart => "restart"
  | parallel => "parallel"

/-- The mode with a name. -/
def Mode.ofName? (name : String) : Option Mode :=
  if name = "single" then some .single
  else if name = "restart" then some .restart
  else if name = "parallel" then some .parallel
  else none

/-- A mode is **the one of its name**. -/
@[simp] theorem Mode.ofName?_name (m : Mode) : Mode.ofName? m.name = some m := by
  cases m <;> rfl

/-- A **rule**. -/
structure Rule where
  id : String
  mode : Mode := .single
  enabled : Bool := true
  triggers : List Trigger := []
  conditions : List Condition := []
  actions : List Action := []

namespace Rule

/-! ## Building a rule -/

/-- A rule with a name and nothing else. -/
def named (id : String) : Rule :=
  { id }

/-- The rule in another mode. -/
def withMode (r : Rule) (mode : Mode) : Rule :=
  { r with mode }

/-- The rule switched on or off. -/
def withEnabled (r : Rule) (enabled : Bool) : Rule :=
  { r with enabled }

/-- The rule with one more trigger. -/
def withTrigger (r : Rule) (t : Trigger) : Rule :=
  { r with triggers := r.triggers ++ [t] }

/-- The rule with one more condition. -/
def withCondition (r : Rule) (c : Condition) : Rule :=
  { r with conditions := r.conditions ++ [c] }

/-- The rule with one more action. -/
def withAction (r : Rule) (a : Action) : Rule :=
  { r with actions := r.actions ++ [a] }

/-! ## Writing a rule -/

/-- The rule **as an object**. -/
def toJson (r : Rule) : Json :=
  .obj [("id", .str r.id), ("mode", .str r.mode.name), ("enabled", .bool r.enabled),
    ("triggers", .arr (r.triggers.map Trigger.toJson)),
    ("conditions", .arr (r.conditions.map Condition.toJson)),
    ("actions", .arr (r.actions.map Action.toJson))]

end Rule

end RuleDispatch
