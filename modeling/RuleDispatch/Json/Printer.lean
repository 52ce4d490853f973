import RuleDispatch.Decimal.Layout
import RuleDispatch.Json.Basic
import RuleDispatch.Text.Quoted

/-! # Writing a document

Values are written without spaces. Text keeps every character as it is, except the quote, the
backslash and the control characters below the space.

* `escapeChar` — one character inside the quotes.
* `Json.write` — a value as characters.
* `Json.text` — a value as a string. -/

namespace RuleDispatch.Json

/-- A character as it is **written inside quotes**. -/
def escapeChar (c : Char) : List Char :=
  match c with
  | '"' => ['\\', '"']
  | '\\' => ['\\', '\\']
  | '\x08' => ['\\', 'b']
  | '\x0c' => ['\\', 'f']
  | '\n' => ['\\', 'n']
  | '\r' => ['\\', 'r']
  | '\t' => ['\\', 't']
  | _ => if c.toNat < 0x20 then ['\\', 'u'] ++ Text.hexPadded 4 c.toNat else [c]

/-- Text with its quotes. -/
def writeText (s : String) : List Char :=
  '"' :: s.toList.flatMap escapeChar ++ ['"']

/-- The text of a number. -/
def writeNumber : Number → List Char
  | .whole n _ => Decimal.intText n
  | .real x _ => Decimal.Layout.json.write x

mutual

/-- A value **as it is written**. -/
def write : Json → List Char
  | null => ['n', 'u', 'l', 'l']
  | bool true => ['t', 'r', 'u', 'e']
  | bool false => ['f', 'a', 'l', 's', 'e']
  | num n => writeNumber n
  | str s => writeText s
  | arr items => '[' :: writeItems items
  | obj fields => '{' :: writeFields fields

/-- The items of a list, with the closing bracket. -/
def writeItems : List Json → List Char
  | [] => [']']
  | item :: rest => write item ++ writeMoreItems rest

/-- The items of a list after the first, with the closing bracket. -/
def writeMoreItems : List Json → List Char
  | [] => [']']
  | item :: rest => ',' :: write item ++ writeMoreItems rest

/-- The fields of an object, with the closing brace. -/
def writeFields : List (String × Json) → List Char
  | [] => ['}']
  | (name, value) :: rest => writeText name ++ ':' :: write value ++ writeMoreFields rest

/-- The fields of an object after the first, with the closing brace. -/
def writeMoreFields : List (String × Json) → List Char
  | [] => ['}']
  | (name, value) :: rest => ',' :: writeText name ++ ':' :: write value ++ writeMoreFields rest

end

/-- The text of a value. -/
def text (value : Json) : String :=
  String.ofList value.write

end RuleDispatch.Json
