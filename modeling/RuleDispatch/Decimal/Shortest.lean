/-! # The shortest decimal that reads back

Among the decimals that round to a given double, one with the fewest digits is written, and of
those the one nearest to the double. Everything here is exact arithmetic on natural numbers.

* `Dyadic` — a double's magnitude as `mantissa · 2 ^ exponent`.
* `Span` — a magnitude between the two ends of the reals that round to it, over one denominator.
* `Span.nearest` — the nearest whole number that the span holds, if any; `holds_of_nearest` says
  that it is one of them.
* `shortest` — the digits and the place of the point. -/

namespace RuleDispatch.Decimal

/-! ## 1. Doubles as dyadic numbers -/

/-- The **magnitude of a finite double**, `mantissa · 2 ^ exponent`. The next smaller double is only
half as far away as the next larger one when `narrow` holds. -/
structure Dyadic where
  mantissa : Nat
  exponent : Int
  narrow : Bool
deriving DecidableEq, Repr

/-- The bit that tells the sign of a double, `2 ^ 63`. -/
def signBit : Nat :=
  9223372036854775808

/-- How many fractions a double tells apart, `2 ^ 52`. -/
def fractionCount : Nat :=
  4503599627370496

/-- How many scales a double tells apart, `2 ^ 11`. -/
def scaleCount : Nat :=
  2048

/-- The magnitude encoded by the sixty-three low bits of a double. -/
def Dyadic.ofBits (bits : Nat) : Dyadic :=
  let fraction : Nat := bits % fractionCount
  let scale : Nat := bits / fractionCount % scaleCount
  if scale = 0 then ⟨fraction, -1074, false⟩
  else ⟨fraction + fractionCount, scale - 1075, fraction = 0 && 1 < scale⟩

/-! ## 2. The reals that round to a double -/

/-- The **reals that round to a double**: from `low` to `high` around `value`, all over `den`. The
two ends belong to it when `closed` holds. -/
structure Span where
  low : Nat
  value : Nat
  high : Nat
  den : Nat
  closed : Bool
deriving DecidableEq, Repr

/-- The span of a magnitude. The ends lie half-way to the neighbours; they round to the magnitude
exactly when its mantissa is even. -/
def Dyadic.span (d : Dyadic) : Span :=
  let up := Nat.pow 2 (d.exponent - 2).toNat
  { low := (4 * d.mantissa - if d.narrow then 1 else 2) * up
    value := 4 * d.mantissa * up
    high := (4 * d.mantissa + 2) * up
    den := Nat.pow 2 (2 - d.exponent).toNat
    closed := d.mantissa % 2 = 0 }

/-- The span measured in units of `10 ^ k`. -/
def Span.inUnits (s : Span) (k : Int) : Span :=
  let up := Nat.pow 10 (-k).toNat
  { s with
    low := s.low * up
    value := s.value * up
    high := s.high * up
    den := s.den * Nat.pow 10 k.toNat }

/-- Whether a whole number lies in the span. -/
def Span.holds (s : Span) (n : Nat) : Bool :=
  if s.closed then s.low ≤ n * s.den && n * s.den ≤ s.high
  else s.low < n * s.den && n * s.den < s.high

/-! ## 3. Choosing a decimal -/

/-- Which of two equally near decimals is taken: the larger, or the one with an even last digit. -/
inductive Tie where
  | up
  | even
deriving DecidableEq, Repr

/-- The **nearest whole number** in the span: one of the two neighbours of its value. -/
def Span.nearest (s : Span) (tie : Tie) : Option Nat :=
  let below := s.value / s.den
  match s.holds below, s.holds (below + 1) with
  | false, false => none
  | true, false => some below
  | false, true => some (below + 1)
  | true, true =>
    match compare (2 * (s.value % s.den)) s.den with
    | .lt => some below
    | .gt => some (below + 1)
    | .eq => if tie = .even ∧ below % 2 = 0 then some below else some (below + 1)

/-- The number chosen lies in the span. -/
theorem Span.holds_of_nearest {s : Span} {tie : Tie} {n : Nat} (h : s.nearest tie = some n) :
    s.holds n = true := by
  unfold Span.nearest at h
  grind

/-- How many digits stand before the point, counted down from zero for the zeros after it: the
span's value is below `10 ^ magnitude`. -/
def Span.magnitude (s : Span) : Int :=
  if s.den ≤ s.value then (Nat.toDigits 10 (s.value / s.den)).length
  else 1 - (Nat.toDigits 10 (s.den / s.value)).length

/-- A **decimal** `0.d₁d₂… · 10 ^ point`, its last digit not zero. -/
structure Digits where
  digits : List Char
  point : Int
deriving DecidableEq, Repr

/-- The decimal `n · 10 ^ k`. -/
def Digits.ofNat (n : Nat) (k : Int) : Digits :=
  let all := Nat.toDigits 10 n
  ⟨(all.reverse.dropWhile (· = '0')).reverse, all.length + k⟩

/-- The **shortest decimal** in the span of a magnitude that is not zero. Seventeen digits always
tell a double from its neighbours, so the search stops there. -/
def shortest (tie : Tie) (d : Dyadic) : Digits :=
  let span := d.span
  let top := span.magnitude
  let found := (List.range 17).findSome? fun (count : Nat) =>
    let unit : Int := top - (count + 1)
    ((span.inUnits unit).nearest tie).map fun n => Digits.ofNat n unit
  found.getD ⟨['0'], 1⟩

end RuleDispatch.Decimal
