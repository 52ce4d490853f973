/-! # Timestamps

A moment in universal time: whole seconds since 1970 and nanoseconds within the second. A leap
second is the second before it going on, so its nanoseconds reach from one to two thousand million.

* `Timestamp` — the moment, with the range of both parts in the type.
* `Timestamp.since` — the nanoseconds from one moment to another.
* `withinWindow` — whether a moment follows another soon enough. -/

namespace RuleDispatch

/-- Nanoseconds in a second. -/
def nanosPerSecond : Nat :=
  1000000000

/-- Nanoseconds in a millisecond. -/
def nanosPerMilli : Nat :=
  1000000

/-- Seconds in a day. -/
def secondsPerDay : Nat :=
  86400

/-- The first second that a timestamp can hold, the start of the year `-262143`. -/
def firstSecond : Int :=
  -8334601228800

/-- The last second that a timestamp can hold, the end of the year `262142`. -/
def lastSecond : Int :=
  8210266876799

/-- A **moment**: seconds since 1970 and nanoseconds after that second. Only a leap second has a
thousand million nanoseconds or more. -/
structure Timestamp where
  seconds : Int
  nanos : Nat
  first_le : firstSecond ≤ seconds
  le_last : seconds ≤ lastSecond
  nanos_lt : nanos < 2 * nanosPerSecond
deriving DecidableEq

namespace Timestamp

/-- The moment with these parts, if they are in range. -/
def ofParts? (seconds : Int) (nanos : Nat) : Option Timestamp :=
  if h : firstSecond ≤ seconds ∧ seconds ≤ lastSecond ∧ nanos < 2 * nanosPerSecond then
    some ⟨seconds, nanos, h.1, h.2.1, h.2.2⟩
  else none

/-- The last moment. -/
def last : Timestamp :=
  ⟨lastSecond, 999999999, by decide, by decide, by decide⟩

/-- The first moment. -/
def first : Timestamp :=
  ⟨firstSecond, 0, by decide, by decide, by decide⟩

/-- The moment that many nanoseconds after the start of 1970, if it can be held. -/
def ofNanos? (n : Int) : Option Timestamp :=
  ofParts? (n.fdiv nanosPerSecond) (n.fmod nanosPerSecond).toNat

/-- The moment that many milliseconds after the start of 1970; the last one when it lies beyond. -/
def ofMillis (ms : Nat) : Timestamp :=
  (ofNanos? (ms * nanosPerMilli)).getD last

/-- Whole milliseconds since the start of 1970, rounded down. -/
def toMillis (t : Timestamp) : Int :=
  t.seconds * 1000 + (t.nanos / nanosPerMilli : Nat)

/-- Whether the moment lies in a leap second. -/
def inLeapSecond (t : Timestamp) : Bool :=
  nanosPerSecond ≤ t.nanos

/-- The second within its day. -/
def secondOfDay (t : Timestamp) : Int :=
  t.seconds.fmod secondsPerDay

/-- The second that a leap second adds between two moments. It is counted when the leap second lies
at the one that is earlier in its day. -/
def leapBetween (start stop : Timestamp) : Int :=
  if start.secondOfDay < stop.secondOfDay then (if start.inLeapSecond then 1 else 0)
  else if stop.secondOfDay < start.secondOfDay then (if stop.inLeapSecond then -1 else 0)
  else 0

/-- The **nanoseconds from `start` to `stop`**. -/
def since (stop start : Timestamp) : Int :=
  (stop.seconds - start.seconds + leapBetween start stop) * nanosPerSecond
    + ((stop.nanos : Int) - start.nanos)

/-- A moment is no time away from itself. -/
@[simp] theorem since_self (t : Timestamp) : t.since t = 0 := by
  simp [since, leapBetween]

/-- Without leap seconds the time between two moments is the plain difference. -/
theorem since_of_no_leap {start stop : Timestamp} (h : start.inLeapSecond = false)
    (h' : stop.inLeapSecond = false) :
    stop.since start
      = (stop.seconds * nanosPerSecond + stop.nanos)
        - (start.seconds * nanosPerSecond + start.nanos) := by
  simp only [since, leapBetween, h, h', nanosPerSecond]
  grind

end Timestamp

/-- The longest window that is told apart from a longer one, in milliseconds: `2 ^ 63 - 1`. -/
def windowMax : Nat :=
  9223372036854775807

/-- Whether `stop` comes **no later than `windowMs` milliseconds after `start`**. A `stop` before
`start` does. -/
def withinWindow (start stop : Timestamp) (windowMs : Nat) : Bool :=
  stop.since start ≤ ((min windowMs windowMax * nanosPerMilli : Nat) : Int)

end RuleDispatch
