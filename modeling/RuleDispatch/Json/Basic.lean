/-! # Data values

The values that documents hold and that events and service calls carry. Whole numbers from
`-2 ^ 63` to `2 ^ 64 - 1` stay exact; every other number is a finite double.

* `Number` — a number with the range of its kind in the type.
* `Json` — null, truth values, numbers, text, lists and objects.
* `Json.ofFields` — an object with its names in order, the last of several equal names kept.
* `Json.field?` and the `as…?` functions — views of a value. -/

namespace RuleDispatch

/-! ## 1. Numbers -/

/-- The least whole number that stays exact, `-2 ^ 63`. -/
abbrev Number.least : Int :=
  -9223372036854775808

/-- The first whole number that is too large to stay exact, `2 ^ 64`. -/
abbrev Number.limit : Int :=
  18446744073709551616

/-- A **number in a document**: a whole number in range, or a finite double. -/
inductive Number where
  | whole (n : Int) (inRange : Number.least ≤ n ∧ n < Number.limit)
  | real (x : Float) (finite : x.isFinite = true)

/-- The number for a whole number, if it is in range. -/
def Number.ofInt? (n : Int) : Option Number :=
  if h : least ≤ n ∧ n < limit then some (.whole n h) else none

/-- The number for a double, if it is finite. -/
def Number.ofFloat? (x : Float) : Option Number :=
  if h : x.isFinite = true then some (.real x h) else none

/-- The **double nearest** to a number. -/
def Number.toFloat : Number → Float
  | .whole n _ => Float.ofInt n
  | .real x _ => x

/-- The natural number that a number is. A number written with a point or an exponent is none. -/
def Number.toNat? : Number → Option Nat
  | .whole n _ => n.toNat?
  | .real _ _ => none

@[simp] theorem Number.toFloat_real (x : Float) (h : x.isFinite = true) :
    (Number.real x h).toFloat = x := rfl

@[simp] theorem Number.toFloat_whole (n : Int) (h : least ≤ n ∧ n < limit) :
    (Number.whole n h).toFloat = Float.ofInt n := rfl

/-! ## 2. Values -/

/-- A **data value**. -/
inductive Json where
  | null
  | bool (b : Bool)
  | num (n : Number)
  | str (s : String)
  | arr (items : List Json)
  | obj (fields : List (String × Json))

/-- Where some value has to stand, **null** does. -/
instance : Inhabited Json := ⟨.null⟩

namespace Json

/-- Fields with one more: it takes its place among the names in order, or the place of a field of
the same name. -/
def insertField (name : String) (value : Json) : List (String × Json) → List (String × Json)
  | [] => [(name, value)]
  | (other, held) :: rest =>
    if name = other then (name, value) :: rest
    else if name < other then (name, value) :: (other, held) :: rest
    else (other, held) :: insertField name value rest

@[simp] theorem insertField_nil (name : String) (value : Json) :
    insertField name value [] = [(name, value)] := rfl

/-- The **object with these fields**. Names stand in order; of several fields with one name the
last is kept. -/
def ofFields (fields : List (String × Json)) : Json :=
  .obj (fields.foldl (fun held field => insertField field.1 field.2 held) [])

/-- A whole number as a value, null when it is out of range. -/
def ofInt (n : Int) : Json :=
  match Number.ofInt? n with
  | some number => .num number
  | none => .null

/-- A natural number as a value, null when it is out of range. -/
def ofNat (n : Nat) : Json :=
  ofInt n

/-- A double as a value, null when it is not finite. -/
def ofFloat (x : Float) : Json :=
  match Number.ofFloat? x with
  | some number => .num number
  | none => .null

/-- The value of a field of an object. -/
def field? (value : Json) (name : String) : Option Json :=
  match value with
  | .obj fields => fields.lookup name
  | _ => none

/-- The text that a value is. -/
def asText? : Json → Option String
  | .str s => some s
  | _ => none

/-- The truth value that a value is. -/
def asBool? : Json → Option Bool
  | .bool b => some b
  | _ => none

/-- The double nearest to the number that a value is. -/
def asFloat? : Json → Option Float
  | .num n => some n.toFloat
  | _ => none

/-- The natural number that a value is. -/
def asNat? : Json → Option Nat
  | .num n => n.toNat?
  | _ => none

/-- The list that a value is. -/
def asItems? : Json → Option (List Json)
  | .arr items => some items
  | _ => none

@[simp] theorem asText?_str (s : String) : (str s).asText? = some s := rfl

@[simp] theorem asBool?_bool (b : Bool) : (bool b).asBool? = some b := rfl

@[simp] theorem asFloat?_num (n : Number) : (num n).asFloat? = some n.toFloat := rfl

@[simp] theorem asItems?_arr (items : List Json) : (arr items).asItems? = some items := rfl

end Json

end RuleDispatch
