import RuleDispatch.Json.Reader

/-! # Passing over a value

A field that nobody asks for is passed over. Its value has to follow the grammar of documents, but
nothing is computed from it: lists and objects nest without limit, numbers have no range, and the
halves of an escaped character need not match.

* `skipNumber`, `skipText` — the text after a number, after a text value.
* `skipValue` — the text after a value of any kind. -/

namespace RuleDispatch.Json

/-- The text after at least one digit. -/
def skipDigits : List Char → Option (List Char)
  | c :: rest => if c.isDigit then some (rest.dropWhile Char.isDigit) else none
  | [] => none

/-- The text after an exponent, if one stands at the front. -/
def skipExponent : List Char → Option (List Char)
  | c :: rest =>
    if c = 'e' ∨ c = 'E' then skipDigits (Decimal.splitSign rest).2 else some (c :: rest)
  | [] => some []

/-- The text after a **number**. -/
def skipNumber (text : List Char) : Option (List Char) := do
  let magnitude := match text with
    | '-' :: rest => rest
    | _ => text
  let rest ← match magnitude with
    | '0' :: rest => if rest.head?.any Char.isDigit then none else some rest
    | _ => skipDigits magnitude
  match rest with
  | '.' :: places => skipExponent (← skipDigits places)
  | _ => skipExponent rest

/-- The text after a **text value**, from after its opening quote on. -/
def skipText : Nat → List Char → Option (List Char)
  | 0, _ => none
  | _, [] => none
  | fuel + 1, c :: rest =>
    if c = '"' then some rest
    else if c = '\\' then
      match rest with
      | [] => none
      | d :: after =>
        if d = 'u' then
          match readHex after with
          | .ok (_, after) => skipText fuel after
          | .error _ => none
        else if (shortEscape? d).isSome then skipText fuel after
        else none
    else if c.toNat < 0x20 then none
    else skipText fuel rest

mutual

/-- The text after a **value**. -/
def skipValue : Nat → List Char → Option (List Char)
  | 0, _ => none
  | fuel + 1, text =>
    match skipSpaces text with
    | [] => none
    | c :: rest =>
      if c = 'n' then (readWord ['u', 'l', 'l'] rest).toOption
      else if c = 't' then (readWord ['r', 'u', 'e'] rest).toOption
      else if c = 'f' then (readWord ['a', 'l', 's', 'e'] rest).toOption
      else if c = '-' ∨ c.isDigit then skipNumber (c :: rest)
      else if c = '"' then skipText fuel rest
      else if c = '[' then
        match skipSpaces rest with
        | ']' :: after => some after
        | start => skipItems fuel start
      else if c = '{' then
        match skipSpaces rest with
        | '}' :: after => some after
        | start => skipFields fuel start
      else none

/-- The text after the rest of a list, from an item on. -/
def skipItems : Nat → List Char → Option (List Char)
  | 0, _ => none
  | fuel + 1, text => do
    let rest ← skipValue fuel text
    match skipSpaces rest with
    | ']' :: after => some after
    | ',' :: next => skipItems fuel next
    | _ => none

/-- The text after the rest of an object, from a name on. -/
def skipFields : Nat → List Char → Option (List Char)
  | 0, _ => none
  | fuel + 1, text =>
    match skipSpaces text with
    | '"' :: name => do
      let rest ← skipText fuel name
      let value ← (readColon rest).toOption
      let rest ← skipValue fuel value
      match skipSpaces rest with
      | '}' :: after => some after
      | ',' :: next => skipFields fuel next
      | _ => none
    | _ => none

end

end RuleDispatch.Json
