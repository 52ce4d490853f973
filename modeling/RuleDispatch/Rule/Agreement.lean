import RuleDispatch.Rule.Decode

/-! # Agreement of rules

Two rules agree when they are the same but for the sign of a zero: doubles are compared as numbers,
so the two zeros agree, and a bound that is not a number agrees with nothing, itself included.

* `Json.agrees`, `Action.agrees`, `Rule.agrees` — the tests.
* `Rule.survivesReload` — whether a rule agrees with the one that its description describes. -/

namespace RuleDispatch

/-- Whether two numbers are of the same kind and equal. -/
def Number.agrees : Number → Number → Bool
  | .whole n _, .whole m _ => n = m
  | .real x _, .real y _ => x == y
  | _, _ => false

mutual

/-- Whether two values agree. -/
def Json.agrees : Json → Json → Bool
  | .null, .null => true
  | .bool a, .bool b => a = b
  | .num a, .num b => a.agrees b
  | .str a, .str b => a = b
  | .arr a, .arr b => Json.itemsAgree a b
  | .obj a, .obj b => Json.fieldsAgree a b
  | _, _ => false

/-- Whether two lists of values agree item by item. -/
def Json.itemsAgree : List Json → List Json → Bool
  | [], [] => true
  | a :: as, b :: bs => Json.agrees a b && Json.itemsAgree as bs
  | _, _ => false

/-- Whether two lists of fields agree name by name. -/
def Json.fieldsAgree : List (String × Json) → List (String × Json) → Bool
  | [], [] => true
  | (name, a) :: as, (other, b) :: bs => name = other && Json.agrees a b && Json.fieldsAgree as bs
  | _, _ => false

end

/-- Whether two bounds that may be missing agree. -/
def Bounds.endsAgree : Option Float → Option Float → Bool
  | none, none => true
  | some a, some b => a == b
  | _, _ => false

/-- Whether two intervals agree at both ends. -/
def Bounds.agrees (a b : Bounds) : Bool :=
  endsAgree a.above b.above && endsAgree a.below b.below

/-- Whether two triggers agree. -/
def Trigger.agrees : Trigger → Trigger → Bool
  | event a, event b => a = b
  | threshold e a, threshold f b => e = f && a.agrees b
  | schedule a, schedule b => a = b
  | pattern s a, pattern t b => s = t && a = b
  | unknown, unknown => true
  | _, _ => false

/-- Whether two conditions agree. -/
def Condition.agrees : Condition → Condition → Bool
  | stateEquals e a, stateEquals f b => e = f && a = b
  | numericCompare e a, numericCompare f b => e = f && a.agrees b
  | unknown, unknown => true
  | _, _ => false

mutual

/-- Whether two actions agree. -/
def Action.agrees : Action → Action → Bool
  | .serviceCall s a, .serviceCall t b => s = t && a.agrees b
  | .wait a, .wait b => a = b
  | .repeatCount n as, .repeatCount m bs => n = m && Action.listAgrees as bs
  | .stop, .stop => true
  | .unknown, .unknown => true
  | _, _ => false

/-- Whether two lists of actions agree one by one. -/
def Action.listAgrees : List Action → List Action → Bool
  | [], [] => true
  | a :: as, b :: bs => Action.agrees a b && Action.listAgrees as bs
  | _, _ => false

end

/-- Whether two lists agree one by one. -/
def listsAgree {α : Type} (agrees : α → α → Bool) (as bs : List α) : Bool :=
  as.length = bs.length && (as.zip bs).all fun (a, b) => agrees a b

/-- Whether two rules **agree**. -/
def Rule.agrees (r s : Rule) : Bool :=
  r.id = s.id && r.mode = s.mode && r.enabled = s.enabled
    && listsAgree Trigger.agrees r.triggers s.triggers
    && listsAgree Condition.agrees r.conditions s.conditions
    && Action.listAgrees r.actions s.actions

/-- Whether a rule **survives** being described and read from its description. The description is
taken as it is, not by way of a text, so a double that reads back from its digits as a neighbour is
no reason to fail. -/
def Rule.survivesReload (r : Rule) : Bool :=
  match Rule.ofJson? r.toJson with
  | some s => r.agrees s
  | none => false

end RuleDispatch
