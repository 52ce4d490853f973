import RuleDispatch.Rule.Basic

/-! # Rules from values

A rule and each of its parts is described by a value: an object with named fields, or a list of the
fields in their order. Triggers, conditions and actions name their kind first, in the field `type`
or as the first item. Fields that are not asked for are passed over; items that are too many are
not.

* `Parts` — the fields of a description, by name or by place.
* `Trigger.ofJson?`, `Condition.ofJson?`, `Action.ofJson?`, `Rule.ofJson?` — the part that a value
  describes. -/

namespace RuleDispatch

/-! ## 1. Descriptions -/

/-- The **fields of a description**: by name, or by place. -/
inductive Parts where
  | named (fields : List (String × Json))
  | listed (items : List Json)

namespace Parts

/-- The kind and the fields of a tagged description. -/
def ofTagged? : Json → Option (Json × Parts)
  | .obj fields => (fields.lookup "type").map fun kind => (kind, .named fields)
  | .arr (kind :: items) => some (kind, .listed items)
  | _ => none

/-- The fields of a description without a kind. -/
def ofPlain? : Json → Option Parts
  | .obj fields => some (.named fields)
  | .arr items => some (.listed items)
  | _ => none

/-- Whether there are no more than `count` items. -/
def fits (count : Nat) : Parts → Bool
  | named _ => true
  | listed items => items.length ≤ count

/-- The value of the field at a place, by any of its names. -/
def find? (place : Nat) (names : List String) : Parts → Option Json
  | named fields => names.findSome? fun name => fields.lookup name
  | listed items => items[place]?

/-- Whether a field is given under more than one of its names. -/
def isRepeated (names : List String) : Parts → Bool
  | named fields => 1 < (names.filter fun name => (fields.lookup name).isSome).length
  | listed _ => false

/-- A field that **has to be given**. -/
def required {α : Type} (parts : Parts) (place : Nat) (names : List String) (decode : Json → Option α) :
    Option α :=
  if parts.isRepeated names then none
  else (parts.find? place names).bind decode

/-- A field that **may be missing**. -/
def optional {α : Type} (parts : Parts) (place : Nat) (names : List String) (decode : Json → Option α)
    (missing : α) : Option α :=
  if parts.isRepeated names then none
  else
    match parts.find? place names with
    | some value => decode value
    | none => some missing

end Parts

/-! ## 2. Single fields -/

/-- A whole number that fits into sixty-four bits. -/
def Json.asUInt64? (value : Json) : Option UInt64 :=
  value.asNat?.bind fun n => if n < UInt64.size then some (UInt64.ofNat n) else none

/-- A whole number that fits into thirty-two bits. -/
def Json.asUInt32? (value : Json) : Option UInt32 :=
  value.asNat?.bind fun n => if n < UInt32.size then some (UInt32.ofNat n) else none

/-- A bound: a number, or null for none. -/
def Json.asBound? : Json → Option (Option Float)
  | .null => some none
  | value => value.asFloat?.map some

/-- A list of texts. -/
def Json.asTexts? (value : Json) : Option (List String) :=
  value.asItems?.bind fun items => items.mapM Json.asText?

/-- The bounds at two places in a row. -/
def Parts.bounds (parts : Parts) (place : Nat) : Option Bounds := do
  let above ← parts.optional place ["above"] Json.asBound? none
  let below ← parts.optional (place + 1) ["below"] Json.asBound? none
  return { above, below }

/-! ## 3. Triggers and conditions -/

/-- The **trigger that a value describes**. -/
def Trigger.ofJson? (value : Json) : Option Trigger := do
  let (kind, parts) ← Parts.ofTagged? value
  let kind ← kind.asText?
  if kind = "event" then
    if !parts.fits 1 then none
    return .event (← parts.required 0 ["name"] Json.asText?)
  else if kind = "numeric_threshold" then
    if !parts.fits 3 then none
    return .threshold (← parts.required 0 ["entity"] Json.asText?) (← parts.bounds 1)
  else if kind = "time_schedule" then
    if !parts.fits 1 then none
    return .schedule (← parts.required 0 ["interval_ms", "intervalMs"] Json.asUInt64?)
  else if kind = "pattern_sequence" then
    if !parts.fits 2 then none
    return .pattern (← parts.required 0 ["sequence"] Json.asTexts?)
      (← parts.required 1 ["within_ms", "withinMs"] Json.asUInt64?)
  else if parts.fits 0 then return .unknown
  else none

/-- The **condition that a value describes**. -/
def Condition.ofJson? (value : Json) : Option Condition := do
  let (kind, parts) ← Parts.ofTagged? value
  let kind ← kind.asText?
  if kind = "state_equals" then
    if !parts.fits 2 then none
    return .stateEquals (← parts.required 0 ["entity"] Json.asText?)
      (← parts.required 1 ["value"] Json.asText?)
  else if kind = "numeric_compare" then
    if !parts.fits 3 then none
    return .numericCompare (← parts.required 0 ["entity"] Json.asText?) (← parts.bounds 1)
  else if parts.fits 0 then return .unknown
  else none

/-! ## 4. Actions -/

/-- The kind of an action, apart from its fields. -/
inductive Action.Kind where
  | serviceCall
  | wait
  | repeatCount
  | stop
  | unknown
deriving DecidableEq, Repr

/-- The kind with a name. -/
def Action.Kind.ofName (name : String) : Kind :=
  if name = "service_call" then .serviceCall
  else if name = "wait_duration" then .wait
  else if name = "repeat_count" then .repeatCount
  else if name = "stop" then .stop
  else .unknown

/-- The kind with a number. -/
def Action.Kind.ofNumber : Nat → Kind
  | 0 => .serviceCall
  | 1 => .wait
  | 2 => .repeatCount
  | 3 => .stop
  | _ => .unknown

/-- The **kind that a value names**. Inside a repetition a kind may also be given by its number. -/
def Action.Kind.ofJson? (nested : Bool) : Json → Option Kind
  | .str name => some (.ofName name)
  | value => if nested then value.asNat?.map .ofNumber else none

/-- The action of a kind with its fields; `body` is what the field of nested actions describes. -/
def Action.assemble (kind : Kind) (parts : Parts) (body : Option (List Action)) : Option Action :=
  match kind with
  | .serviceCall => do
    if !parts.fits 2 then none
    return .serviceCall (← parts.required 0 ["service"] Json.asText?)
      (← parts.optional 1 ["data"] some .null)
  | .wait => do
    if !parts.fits 1 then none
    return .wait (← parts.required 0 ["ms"] Json.asUInt64?)
  | .repeatCount => do
    if !parts.fits 2 then none
    return .repeatCount (← parts.required 0 ["count"] Json.asUInt32?) (← body)
  | .stop => if parts.fits 0 then some .stop else none
  | .unknown => if parts.fits 0 then some .unknown else none

mutual

/-- The action that a value describes, at the top or inside a repetition. -/
def Action.decode (nested : Bool) : Json → Option Action
  | .obj fields => do
    let kind ← (fields.lookup "type").bind (Action.Kind.ofJson? nested)
    Action.assemble kind (.named fields) (Action.decodeNamedBody fields)
  | .arr (tag :: items) => do
    let kind ← Action.Kind.ofJson? nested tag
    Action.assemble kind (.listed items) (Action.decodeListedBody items)
  | _ => none

/-- The actions nested in an object: none if it has no field for them. -/
def Action.decodeNamedBody : List (String × Json) → Option (List Action)
  | [] => some []
  | (name, value) :: rest =>
    if name = "actions" then Action.decodeBody value else Action.decodeNamedBody rest

/-- The actions nested in a list: none if it ends before them. -/
def Action.decodeListedBody : List Json → Option (List Action)
  | _ :: value :: _ => Action.decodeBody value
  | _ => some []

/-- The actions that a list of nested actions describes. -/
def Action.decodeBody : Json → Option (List Action)
  | .arr items => Action.decodeItems items
  | _ => none

/-- The actions that the items of a repetition describe, one by one. -/
def Action.decodeItems : List Json → Option (List Action)
  | [] => some []
  | item :: rest => do return (← Action.decode true item) :: (← Action.decodeItems rest)

end

/-- The **action that a value describes**. -/
def Action.ofJson? (value : Json) : Option Action :=
  Action.decode false value

/-! ## 5. Rules -/

/-- The **mode that a value names**: its name, or an object with the name and null. -/
def Mode.ofJson? : Json → Option Mode
  | .str name => Mode.ofName? name
  | .obj [(name, .null)] => Mode.ofName? name
  | _ => none

/-- A list, each item decoded. -/
def Json.asListOf? {α : Type} (decode : Json → Option α) (value : Json) : Option (List α) :=
  value.asItems?.bind fun items => items.mapM decode

/-- The **rule that a value describes**. -/
def Rule.ofJson? (value : Json) : Option Rule := do
  let parts ← Parts.ofPlain? value
  if !parts.fits 6 then none
  return {
    id := ← parts.required 0 ["id"] Json.asText?
    mode := ← parts.optional 1 ["mode"] Mode.ofJson? .single
    enabled := ← parts.optional 2 ["enabled"] Json.asBool? true
    triggers := ← parts.optional 3 ["triggers"] (Json.asListOf? Trigger.ofJson?) []
    conditions := ← parts.optional 4 ["conditions"] (Json.asListOf? Condition.ofJson?) []
    actions := ← parts.optional 5 ["actions"] (Json.asListOf? Action.ofJson?) [] }

end RuleDispatch
