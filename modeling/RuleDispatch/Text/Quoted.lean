import RuleDispatch.Text.Unprintable

/-! # Quoted text for display

Text inside double quotes, for a person to read: a quote and a backslash are escaped, the usual
control characters have short escapes, and a character that would not show is written by number,
`\u{301}`.

* `escapeShown` — one character as it appears between the quotes.
* `quoteShown` — the whole text with its quotes. -/

namespace RuleDispatch.Text

/-- The lower-case hexadecimal digits of a number, without leading zeros. -/
def hexDigits (n : Nat) : List Char :=
  Nat.toDigits 16 n

/-- The last `width` lower-case hexadecimal digits of a number, leading zeros included. -/
def hexPadded : Nat → Nat → List Char
  | 0, _ => []
  | width + 1, n => hexPadded width (n / 16) ++ [Nat.digitChar (n % 16)]

/-- A number is written **as wide as it is to be**. -/
@[simp] theorem length_hexPadded (width n : Nat) : (hexPadded width n).length = width := by
  induction width generalizing n with
  | zero => rfl
  | succ width ih => simp [hexPadded, ih]

/-- A character **as it is shown** between double quotes. -/
def escapeShown (c : Char) : List Char :=
  if c = '\x00' then ['\\', '0']
  else if c = '\t' then ['\\', 't']
  else if c = '\r' then ['\\', 'r']
  else if c = '\n' then ['\\', 'n']
  else if c = '\\' || c = '"' then ['\\', c]
  else if isShownByNumber c then ['\\', 'u', '\x7b'] ++ hexDigits c.toNat ++ ['\x7d']
  else [c]

/-- Text **quoted for display**. -/
def quoteShown (text : String) : String :=
  String.ofList ('"' :: text.toList.flatMap escapeShown ++ ['"'])

end RuleDispatch.Text
