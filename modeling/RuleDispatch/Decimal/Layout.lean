import RuleDispatch.Decimal.Shortest

/-! # Layouts of a number

The digits of a double are always the shortest that read back; where the point goes is a matter of
the layout. Three layouts are in use.

* `Layout.plain` — every digit position written out, whole numbers without a point.
* `Layout.shown` — for a person: whole numbers end in `.0`, very large and very small numbers are
  written with an exponent.
* `Layout.json` — the same for documents, with a wider range of small numbers written out and a sign
  before every exponent. -/

namespace RuleDispatch.Decimal

/-- A **layout**: how ties are broken, between which exponents of the leading digit the number is
written without an exponent (`none` for always), whether whole numbers end in `.0`, and whether a
positive exponent has a sign. -/
structure Layout where
  tie : Tie
  positional : Option (Int × Int)
  pointed : Bool
  signed : Bool
deriving DecidableEq, Repr

/-- Numbers in messages: never an exponent, no point in a whole number. -/
def Layout.plain : Layout := ⟨.up, none, false, false⟩

/-- Numbers shown to a person: positional from `0.0001` to below `1e16`. -/
def Layout.shown : Layout := ⟨.up, some (-4, 15), true, false⟩

/-- Numbers in documents: positional from `0.00001` to below `1e16`, ties to the even digit. -/
def Layout.json : Layout := ⟨.even, some (-5, 15), true, true⟩

/-- Whether a number whose leading digit stands for `10 ^ exponent` is written out. -/
def Layout.isPositional (l : Layout) (exponent : Int) : Bool :=
  match l.positional with
  | none => true
  | some (least, greatest) => least ≤ exponent && exponent ≤ greatest

/-- What follows a whole number. -/
def Layout.wholeTail (l : Layout) : List Char :=
  if l.pointed then ['.', '0'] else []

/-- The text of an integer. -/
def intText (n : Int) : List Char :=
  if n < 0 then '-' :: Nat.toDigits 10 n.natAbs else Nat.toDigits 10 n.natAbs

/-- Digits **written out** around the point. -/
def Layout.writeOut (l : Layout) (d : Digits) : List Char :=
  if d.point ≤ 0 then
    ['0', '.'] ++ List.replicate (-d.point).toNat '0' ++ d.digits
  else if d.digits.length ≤ d.point then
    d.digits ++ List.replicate (d.point.toNat - d.digits.length) '0' ++ l.wholeTail
  else
    d.digits.take d.point.toNat ++ '.' :: d.digits.drop d.point.toNat

/-- Digits **with an exponent**: one digit, the others after a point, the power of ten. -/
def Layout.writeScientific (l : Layout) (d : Digits) : List Char :=
  let mantissa := match d.digits with
    | [] => ['0']
    | [lead] => [lead]
    | lead :: others => lead :: '.' :: others
  let sign := if l.signed && 1 ≤ d.point then ['+'] else []
  mantissa ++ 'e' :: sign ++ intText (d.point - 1)

/-- The text of a decimal in a layout. -/
def Layout.writeDigits (l : Layout) (d : Digits) : List Char :=
  if l.isPositional (d.point - 1) then l.writeOut d else l.writeScientific d

/-- The text of a finite magnitude. -/
def Layout.writeMagnitude (l : Layout) (d : Dyadic) : List Char :=
  if d.mantissa = 0 then '0' :: l.wholeTail else l.writeDigits (shortest l.tie d)

/-- The **text of a double**. A zero keeps its sign; the value that is not a number has none. -/
def Layout.write (l : Layout) (x : Float) : List Char :=
  if x.isNaN then ['N', 'a', 'N']
  else
    let sign := if signBit ≤ x.toBits.toNat then ['-'] else []
    if x.isInf then sign ++ ['i', 'n', 'f']
    else sign ++ l.writeMagnitude (Dyadic.ofBits x.toBits.toNat)

/-- The text of a double as a string. -/
def Layout.text (l : Layout) (x : Float) : String :=
  String.ofList (l.write x)

end RuleDispatch.Decimal
