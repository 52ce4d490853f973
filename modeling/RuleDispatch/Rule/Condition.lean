import RuleDispatch.Rule.Bounds

/-! # Conditions

A condition guards a rule: all of a rule's conditions have to hold of the stored values when it
fires. An entity that was never written reads as zero and as empty text. A kind of condition that
is not understood is kept and always holds.

* `Condition` — the two kinds and the one for all others.
* `Condition.reads` — the entity that a condition looks at, and in which of the two namespaces.
* `Condition.holds`, `allHold` — the tests.
* `readsOf` — what is looked at until the first condition that fails. -/

namespace RuleDispatch

/-- A **guard on the stored values**. -/
inductive Condition where
  /-- The text of this entity is this one. -/
  | stateEquals (entity value : String)
  /-- The number of this entity lies inside the bounds. -/
  | numericCompare (entity : String) (bounds : Bounds)
  /-- A kind that is not understood. -/
  | unknown

/-- What conditions see of the stored values. -/
structure Reading where
  /-- The number of an entity, zero when there is none. -/
  number : String → Float
  /-- The text of an entity, empty when there is none. -/
  text : String → String

/-- An entity in one of the two namespaces. -/
inductive Source where
  | number (entity : String)
  | text (entity : String)
deriving DecidableEq, Repr

namespace Condition

/-- Whether a condition **holds**. -/
def holds (r : Reading) : Condition → Bool
  | stateEquals entity value => r.text entity = value
  | numericCompare entity bounds => bounds.contains (r.number entity)
  | unknown => true

/-- What a condition **looks at**. -/
def reads : Condition → Option Source
  | stateEquals entity _ => some (.text entity)
  | numericCompare entity _ => some (.number entity)
  | unknown => none

/-- The condition **as text**. -/
def describe : Condition → String
  | stateEquals entity value => s!"state_equals({entity}, {value})"
  | numericCompare entity bounds => s!"numeric_compare({entity}, {bounds.describe})"
  | unknown => "unknown"

/-- The condition **as an object**, its kind first. -/
def toJson : Condition → Json
  | stateEquals entity value =>
    .obj [("type", .str "state_equals"), ("entity", .str entity), ("value", .str value)]
  | numericCompare entity bounds =>
    .obj (("type", .str "numeric_compare") :: ("entity", .str entity) :: bounds.fields)
  | unknown => .obj [("type", .str "unknown")]

@[simp] theorem holds_unknown (r : Reading) : holds r unknown = true := rfl

@[simp] theorem holds_stateEquals (r : Reading) (entity value : String) :
    holds r (stateEquals entity value) = decide (r.text entity = value) := rfl

@[simp] theorem holds_numericCompare (r : Reading) (entity : String) (bounds : Bounds) :
    holds r (numericCompare entity bounds) = bounds.contains (r.number entity) := rfl

end Condition

/-- Whether **all conditions hold**, looked at from the first on. -/
def allHold (r : Reading) (conditions : List Condition) : Bool :=
  conditions.all (Condition.holds r)

@[simp] theorem allHold_nil (r : Reading) : allHold r [] = true := rfl

@[simp] theorem allHold_cons (r : Reading) (c : Condition) (cs : List Condition) :
    allHold r (c :: cs) = (c.holds r && allHold r cs) := rfl

/-- **What is looked at**, in order: nothing after the first condition that fails. -/
def readsOf (r : Reading) : List Condition → List Source
  | [] => []
  | c :: cs => c.reads.toList ++ if c.holds r then readsOf r cs else []

@[simp] theorem readsOf_nil (r : Reading) : readsOf r [] = [] := rfl

end RuleDispatch
