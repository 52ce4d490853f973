/-! # Blank characters and the words of a line

The characters that separate words are those with the Unicode property `White_Space`; there are
twenty-five of them, in ten runs. On top of the table this module cuts text the way a command line
is read: blanks stripped from the ends, a first word split from the rest.

* `isBlank` — the property as a test; `isBlank_of_isWhitespace` says that it extends the ASCII test.
* `trim` — text without the blanks at its ends.
* `splitWord` — the text before the first blank and, if there is one, the text after it.
* `firstWord` — the first maximal run of characters that are not blank. -/

namespace RuleDispatch.Text

/-! ## 1. The table -/

/-- The runs of code points with the property `White_Space`, first and last of each. -/
def blankRuns : List (Nat × Nat) :=
  [(0x09, 0x0D), (0x20, 0x20), (0x85, 0x85), (0xA0, 0xA0), (0x1680, 0x1680), (0x2000, 0x200A),
   (0x2028, 0x2029), (0x202F, 0x202F), (0x205F, 0x205F), (0x3000, 0x3000)]

/-- Whether a character is **blank**: one of the runs holds its code point. -/
def isBlank (c : Char) : Bool :=
  blankRuns.any fun run => run.1 ≤ c.toNat && c.toNat ≤ run.2

/-- The table holds twenty-five characters. -/
example : (blankRuns.map fun run => run.2 + 1 - run.1).sum = 25 := by decide

/-- The ASCII blanks are blank. -/
theorem isBlank_of_isWhitespace {c : Char} (h : c.isWhitespace = true) : isBlank c = true := by
  simp only [Char.isWhitespace, Bool.or_eq_true, decide_eq_true_eq] at h
  rcases h with ((rfl | rfl) | rfl) | rfl <;> decide

/-! ## 2. Cutting text -/

/-- Text without its leading blanks. -/
def trimStart (text : List Char) : List Char :=
  text.dropWhile isBlank

/-- Text without its trailing blanks. -/
def trimEnd (text : List Char) : List Char :=
  (trimStart text.reverse).reverse

/-- Text without the blanks at its two ends. -/
def trim (text : List Char) : List Char :=
  trimEnd (trimStart text)

/-- Text **split at its first blank**: what stands before it, and what stands after it if there is
a blank at all. -/
def splitWord (text : List Char) : List Char × Option (List Char) :=
  match text.dropWhile (!isBlank ·) with
  | [] => (text, none)
  | _ :: after => (text.takeWhile (!isBlank ·), some after)

/-- The **first word**: the first maximal run of characters that are not blank. -/
def firstWord (text : List Char) : Option (List Char) :=
  match trimStart text with
  | [] => none
  | start => some (start.takeWhile (!isBlank ·))

end RuleDispatch.Text
