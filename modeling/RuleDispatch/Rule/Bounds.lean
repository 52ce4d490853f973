import RuleDispatch.Decimal.Layout
import RuleDispatch.Json.Basic

/-! # Open bounds

An open interval of doubles, either end of which may be missing. Thresholds and numeric conditions
share it.

* `Bounds.contains` — the strict test; a bound never holds of the value that is not a number.
* `Bounds.describe`, `Bounds.fields` — the bounds as text and as fields of a document. -/

namespace RuleDispatch

/-- An **open interval**: greater than `above` and less than `below`, as far as they are given. -/
structure Bounds where
  above : Option Float := none
  below : Option Float := none

namespace Bounds

/-- Whether a value lies **strictly inside**. -/
def contains (b : Bounds) (x : Float) : Bool :=
  b.above.all (fun a => a < x) && b.below.all (fun c => x < c)

/-- Without bounds every value lies inside. -/
@[simp] theorem contains_empty (x : Float) : contains {} x = true := rfl

/-- Both ends are tested, each if it is given. -/
theorem contains_eq_true_iff {b : Bounds} {x : Float} :
    b.contains x = true ↔ (∀ a, b.above = some a → a < x) ∧ (∀ c, b.below = some c → x < c) := by
  rcases b with ⟨_ | a, _ | c⟩ <;> simp [contains]

/-- The bounds **as text**. -/
def describe (b : Bounds) : String :=
  match b.above.map Decimal.Layout.plain.text, b.below.map Decimal.Layout.plain.text with
  | some above, some below => s!"{above} < x < {below}"
  | some above, none => s!"x > {above}"
  | none, some below => s!"x < {below}"
  | none, none => "any"

/-- The bounds as **fields of an object**; one that is missing has no field. -/
def fields (b : Bounds) : List (String × Json) :=
  (b.above.map fun a => ("above", Json.ofFloat a)).toList
    ++ (b.below.map fun c => ("below", Json.ofFloat c)).toList

/-- The bounds as an object. -/
def toJson (b : Bounds) : Json :=
  .obj b.fields

end Bounds

end RuleDispatch
