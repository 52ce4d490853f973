import RuleDispatch.Time.Timestamp

/-! # Patterns

A pattern is a sequence of event names to be met in order, the last of them no later than some
milliseconds after the first. A matcher is fed one event at a time and keeps only how far the
present attempt has come and when it began.

* `Matcher` — a pattern with its present attempt.
* `Matcher.observe` — one event; `Outcome` says what it did.
* `Matcher.run` — a stream of events. -/

namespace RuleDispatch

/-- What **one event did** to an attempt. -/
inductive Outcome where
  /-- It was the next one; the sequence is not complete yet. -/
  | advanced
  /-- It completed the sequence in time. -/
  | completed
  /-- It completed the sequence too late; the attempt is over. -/
  | expired
  /-- It broke the attempt and begins a new one. -/
  | restarted
  /-- It broke the attempt. -/
  | reset
  /-- There is nothing to match. -/
  | ignored
deriving DecidableEq, Repr

/-- The name of an outcome. -/
def Outcome.name : Outcome → String
  | advanced => "Advanced"
  | completed => "Completed"
  | expired => "Expired"
  | restarted => "Restarted"
  | reset => "Reset"
  | ignored => "Ignored"

/-- A **pattern and its present attempt**: how many names have been met, and when the first was. -/
structure Matcher where
  sequence : List String
  withinMs : UInt64
  index : Nat := 0
  start : Option Timestamp := none

namespace Matcher

/-- A pattern before any event. -/
def fresh (sequence : List String) (withinMs : UInt64) : Matcher :=
  { sequence, withinMs }

/-- When the present attempt began, if this event is part of it: an attempt begins with the event
that finds none under way. -/
def startAt (m : Matcher) (time : Timestamp) : Timestamp :=
  if m.index = 0 then time else m.start.getD time

/-- **One event**: what it did, and the matcher after it. -/
def observe (m : Matcher) (name : String) (time : Timestamp) : Outcome × Matcher :=
  match m.sequence with
  | [] => (.ignored, m)
  | first :: _ =>
    let start := m.startAt time
    if m.sequence[m.index]? = some name then
      if m.index + 1 < m.sequence.length then
        (.advanced, { m with index := m.index + 1, start := some start })
      else
        (if withinWindow start time m.withinMs.toNat then .completed else .expired,
          { m with index := 0, start := some start })
    else if name = first then (.restarted, { m with index := 1, start := some time })
    else (.reset, { m with index := 0, start := some start })

/-- A **stream of events**, one outcome each. -/
def run (m : Matcher) : List (String × Timestamp) → List Outcome × Matcher
  | [] => ([], m)
  | (name, time) :: rest =>
    let (outcome, next) := m.observe name time
    let (outcomes, last) := next.run rest
    (outcome :: outcomes, last)

/-- Events do not change the pattern. -/
@[simp] theorem sequence_observe (m : Matcher) (name : String) (time : Timestamp) :
    (m.observe name time).2.sequence = m.sequence := by
  unfold observe
  split
  · rfl
  · grind

end Matcher

end RuleDispatch
