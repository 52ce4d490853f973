/-! # Calendar days

Days are counted from the first of January 1970 in the calendar of today, carried on without end in
both directions; there is a year zero. Years are taken to start in March, so that the day that leap
years add is the last one.

* `Date` — a year, a month and a day.
* `Date.ofParts?` — the date with these numbers, if the month has such a day.
* `Date.toDays`, `Date.ofDays` — the day's number and the date with that number. -/

namespace RuleDispatch

/-- A **calendar day**. -/
structure Date where
  year : Int
  month : Nat
  day : Nat
deriving DecidableEq, Repr

/-- Whether a year has a leap day. -/
def isLeapYear (year : Int) : Bool :=
  year % 4 = 0 && (year % 100 ≠ 0 || year % 400 = 0)

/-- How many days a month has. -/
def monthLength (year : Int) (month : Nat) : Nat :=
  if month = 2 then (if isLeapYear year then 29 else 28)
  else if month = 4 ∨ month = 6 ∨ month = 9 ∨ month = 11 then 30
  else 31

namespace Date

/-- The date with these numbers, if there is one. -/
def ofParts? (year : Int) (month day : Nat) : Option Date :=
  if 1 ≤ month ∧ month ≤ 12 ∧ 1 ≤ day ∧ day ≤ monthLength year month then
    some ⟨year, month, day⟩
  else none

/-- The **number of a day**, zero for the first of January 1970. -/
def toDays (d : Date) : Int :=
  let year : Int := if d.month ≤ 2 then d.year - 1 else d.year
  let era : Int := year / 400
  let yearOfEra : Int := year % 400
  let month : Int := if d.month ≤ 2 then d.month + 9 else d.month - 3
  let dayOfYear : Int := (153 * month + 2) / 5 + d.day - 1
  era * 146097 + yearOfEra * 365 + yearOfEra / 4 - yearOfEra / 100 + dayOfYear - 719468

/-- The **day with a number**. -/
def ofDays (days : Int) : Date :=
  let shifted : Int := days + 719468
  let era : Int := shifted / 146097
  let dayOfEra : Int := shifted % 146097
  let yearOfEra : Int :=
    (dayOfEra - dayOfEra / 1460 + dayOfEra / 36524 - dayOfEra / 146096) / 365
  let dayOfYear : Int := dayOfEra - (365 * yearOfEra + yearOfEra / 4 - yearOfEra / 100)
  let month : Int := (5 * dayOfYear + 2) / 153
  let day : Int := dayOfYear - (153 * month + 2) / 5 + 1
  let early : Bool := 10 ≤ month
  { year := yearOfEra + era * 400 + if early then 1 else 0
    month := (if early then month - 9 else month + 3).toNat
    day := day.toNat }

/-- The first of January 1970 has number zero. -/
example : (Date.mk 1970 1 1).toDays = 0 ∧ ofDays 0 = Date.mk 1970 1 1 := by decide

/-- The leap day of the year 2000. -/
example : (Date.mk 2000 2 29).toDays = 11016 ∧ ofDays 11016 = Date.mk 2000 2 29 := by decide

end Date

end RuleDispatch
