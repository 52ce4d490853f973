/-! # Faults of a document

Why a text is no document, and where. The place is that of the reader when it gave up: lines are
counted from one, columns in bytes from the start of the line.

* `Json.Cause` — why the text was refused, with its wording in `Cause.message`.
* `Json.Fault` — a cause and the number of bytes that were left.
* `Json.Position` — a line and a column.
* `Json.Fault.message` — both together, for the text that was read. -/

namespace RuleDispatch.Json

/-- **Why a text is no document.** -/
inductive Cause where
  | endInValue
  | endInList
  | endInObject
  | endInText
  | expectedValue
  | expectedWord
  | expectedColon
  | expectedListEnd
  | expectedObjectEnd
  | nameNotText
  | trailingComma
  | trailingCharacters
  | badNumber
  | numberOutOfRange
  | badEscape
  | loneSurrogate
  | endOfHexEscape
  | controlCharacter
  | tooDeep
deriving DecidableEq, Repr

/-- The wording of a cause. -/
def Cause.message : Cause → String
  | endInValue => "EOF while parsing a value"
  | endInList => "EOF while parsing a list"
  | endInObject => "EOF while parsing an object"
  | endInText => "EOF while parsing a string"
  | expectedValue => "expected value"
  | expectedWord => "expected ident"
  | expectedColon => "expected `:`"
  | expectedListEnd => "expected `,` or `]`"
  | expectedObjectEnd => "expected `,` or `\x7d`"
  | nameNotText => "key must be a string"
  | trailingComma => "trailing comma"
  | trailingCharacters => "trailing characters"
  | badNumber => "invalid number"
  | numberOutOfRange => "number out of range"
  | badEscape => "invalid escape"
  | loneSurrogate => "lone leading surrogate in hex escape"
  | endOfHexEscape => "unexpected end of hex escape"
  | controlCharacter => "control character (\\u0000-\\u001F) found while parsing a string"
  | tooDeep => "recursion limit exceeded"

/-- How many bytes a text takes. -/
def byteLength (text : List Char) : Nat :=
  text.foldr (fun c size => c.utf8Size + size) 0

@[simp] theorem byteLength_nil : byteLength [] = 0 := rfl

/-- A text takes the bytes of **each of its characters**. -/
@[simp] theorem byteLength_cons (c : Char) (text : List Char) :
    byteLength (c :: text) = c.utf8Size + byteLength text := rfl

/-- A **fault**: its cause, and how many bytes the reader had left when it gave up. -/
structure Fault where
  cause : Cause
  left : Nat
deriving DecidableEq, Repr

/-- A fault in front of the unread text. -/
def Fault.before (cause : Cause) (rest : List Char) : Fault :=
  ⟨cause, byteLength rest⟩

/-- A fault at the next byte of the unread text, or at the end if there is none. -/
def Fault.at (cause : Cause) (rest : List Char) : Fault :=
  ⟨cause, byteLength rest - 1⟩

/-- A **place in a text**. -/
structure Position where
  line : Nat
  column : Nat
deriving DecidableEq, Repr

/-- The place that many bytes further on. -/
def Position.advance (p : Position) : Nat → List Char → Position
  | 0, _ => p
  | _, [] => p
  | bytes + 1, c :: text =>
    if c = '\n' then Position.advance ⟨p.line + 1, 0⟩ bytes text
    else if bytes + 1 ≤ c.utf8Size then ⟨p.line, p.column + (bytes + 1)⟩
    else Position.advance ⟨p.line, p.column + c.utf8Size⟩ (bytes + 1 - c.utf8Size) text

/-- Where in a text a fault lies. -/
def Fault.position (fault : Fault) (text : List Char) : Position :=
  Position.advance ⟨1, 0⟩ (byteLength text - fault.left) text

/-- The wording of a fault in a text. -/
def Fault.message (fault : Fault) (text : List Char) : String :=
  let place := fault.position text
  s!"{fault.cause.message} at line {place.line} column {place.column}"

end RuleDispatch.Json
