/-! # Lines of bytes

Console input comes as bytes. A line ends with a line feed, a carriage return before which belongs
to the end; what stands after the last line feed is a line too, unless it is empty. A line whose
bytes are no text ends the input.

* `splitLines` — the lines as bytes.
* `decodeLine?` — a line as text.
* `readLines` — all lines, `none` for one that is no text. -/

namespace RuleDispatch.Console

/-- The byte of the line feed. -/
def lineFeed : UInt8 :=
  10

/-- The byte of the carriage return. -/
def carriageReturn : UInt8 :=
  13

/-- A line without the carriage return at its end. -/
def chomp (line : List UInt8) : List UInt8 :=
  if line.getLast? = some carriageReturn then line.dropLast else line

/-- The **lines** of some bytes; `line` holds what was met of the present one. -/
def splitLinesFrom (line : List UInt8) : List UInt8 → List (List UInt8)
  | [] => if line = [] then [] else [line]
  | b :: rest =>
    if b = lineFeed then chomp line :: splitLinesFrom [] rest
    else splitLinesFrom (line ++ [b]) rest

/-- The **lines** of some bytes. -/
def splitLines (bytes : List UInt8) : List (List UInt8) :=
  splitLinesFrom [] bytes

/-- A line **as text**, if its bytes are text. -/
def decodeLine? (line : List UInt8) : Option String :=
  String.fromUTF8? (ByteArray.mk line.toArray)

/-- The wording for a line that is no text. -/
def brokenMessage : String :=
  "stream did not contain valid UTF-8"

/-- **All lines** of some bytes as text, `none` standing for a line that is none. -/
def readLines (bytes : List UInt8) : List (Option String) :=
  (splitLines bytes).map decodeLine?

end RuleDispatch.Console
