import RuleDispatch.Json.Reader
import RuleDispatch.Text.Quoted

/-! # Identifiers of handles

Subscriptions, listeners and runs are told apart by numbers of 128 bits, written as five groups of
hexadecimal digits. Read, the digits may be of either case, stand without hyphens, in braces, or
after the prefix of a resource name.

* `Identifier.read?` — the identifier that a text denotes.
* `Identifier.text` — the written form. -/

namespace RuleDispatch

/-- An **identifier** of 128 bits. -/
structure Identifier where
  value : BitVec 128
deriving DecidableEq

namespace Identifier

/-- The value of a run of hexadecimal digits of either case. -/
def hexValue? (digits : List Char) : Option Nat :=
  digits.foldlM (fun n c => (Json.hexValue? c).map (16 * n + ·)) 0

/-- The sizes of the groups of digits. -/
def groupSizes : List Nat :=
  [8, 4, 4, 4, 12]

/-- The digits of a text of the given groups with hyphens between them. -/
def joinGroups? : List Nat → List Char → Option (List Char)
  | [], [] => some []
  | [], _ => none
  | [size], text => if text.length = size then some text else none
  | size :: sizes, text =>
    match text.drop size with
    | '-' :: rest => (joinGroups? sizes rest).map (text.take size ++ ·)
    | _ => none

/-- Digits with hyphens between the given groups. -/
def splitGroups : List Nat → List Char → List Char
  | [], digits => digits
  | [_], digits => digits
  | size :: sizes, digits => digits.take size ++ '-' :: splitGroups sizes (digits.drop size)

/-- What is left of a text without its **wrapping**: braces, or the prefix of a resource name. -/
def unwrap (text : List Char) : List Char :=
  if text.length = 38 ∧ text.head? = some '{' ∧ text.getLast? = some '}' then
    (text.drop 1).dropLast
  else if text.length = 45 ∧ (text.take 9).map Char.toLower = "urn:uuid:".toList then text.drop 9
  else text

/-- The **identifier that a text denotes**. -/
def read? (text : String) : Option Identifier := do
  let chars := text.toList
  let digits ← if chars.length = 32 then some chars else joinGroups? groupSizes (unwrap chars)
  (hexValue? digits).map fun n => ⟨BitVec.ofNat 128 n⟩

/-- The written form of an identifier. -/
def text (id : Identifier) : String :=
  String.ofList (splitGroups groupSizes (Text.hexPadded 32 id.value.toNat))

end Identifier

end RuleDispatch
