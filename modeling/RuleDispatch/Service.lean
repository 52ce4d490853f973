import RuleDispatch.World.Basic

/-! # Built-in services

Two services write to the store, so that rules can change state: `store.set_numeric` writes the
number in the field `value` to the entity named in the field `entity`, `store.set_string` writes a
text in the same way. Every other service does nothing.

* `Service.write?` — what a call of a service writes, or why its payload is refused.
* `Service.reply` — the reply to a call. -/

namespace RuleDispatch.Service

/-- Why a payload is **refused**. -/
inductive PayloadError where
  /-- It names no entity. -/
  | missingEntity
  /-- Its value is not of the kind wanted. -/
  | badValue (wanted : String)
deriving DecidableEq, Repr

/-- The wording of a refusal. -/
def PayloadError.message : PayloadError → String
  | missingEntity => "missing string field `entity`"
  | badValue wanted => s!"field `value` must be a {wanted}"

/-- The entity that a payload names. -/
def entity (data : Json) : Except PayloadError String :=
  match (data.field? "entity").bind Json.asText? with
  | some key => .ok key
  | none => .error .missingEntity

/-- The value of a payload. -/
def value {α : Type} (data : Json) (wanted : String) (decode : Json → Option α) :
    Except PayloadError α :=
  match (data.field? "value").bind decode with
  | some value => .ok value
  | none => .error (.badValue wanted)

/-- What a call **writes**: nothing for services that are not built in. -/
def write? (service : String) (data : Json) : Except PayloadError (Option Operation) :=
  if service = "store.set_numeric" then do
    let key ← entity data
    return some (.setNumber key (← value data "number" Json.asFloat?))
  else if service = "store.set_string" then do
    let key ← entity data
    return some (.setText key (← value data "string" Json.asText?))
  else return none

/-- The **reply** to a call. -/
def reply (service : String) (data : Json) : Reply :=
  match write? service data with
  | .ok none => {}
  | .ok (some op) => { effects := [.act op false] }
  | .error e => { result := .failed e.message }

/-- The executor of the built-in services. -/
def executor : Executor :=
  fun _ => reply

end RuleDispatch.Service
