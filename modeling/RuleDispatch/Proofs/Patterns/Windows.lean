import RuleDispatch.Proofs.Patterns.Attempts
import RuleDispatch.Proofs.Relevance.Shifts

/-! # Windows in words of sixty-four bits

How far two moments are apart and how long a window is are both held as whole seconds in a signed word of
sixty-four bits and nanoseconds after them. The milliseconds of a window are an unsigned word, so there are
windows that are too long for this; such a window is taken to be the longest one there is. None of it shows:
the test is exact, because no two moments are that far apart.

* `TimeSpan` — a span as it is held; `TimeSpan.le_iff`: to compare them is to compare nanoseconds.
* `TimeSpan.ofWindow`, `Timestamp.spanSince` — a window and the time between two moments as spans.
* `withinWindow_eq_le` — the test is the comparison of both.
* `window_is_exact` — the test over unbounded integers, and what a matcher makes of it. -/

namespace RuleDispatch

/-! ## 1. Spans -/

/-- A **span of time** as it is held: whole seconds, and the nanoseconds after them. The nanoseconds count
forward even if the seconds are negative. -/
structure TimeSpan where
  seconds : Int64
  nanos : Nat
  nanos_lt : nanos < nanosPerSecond

namespace TimeSpan

/-- The nanoseconds of a span. -/
def total (d : TimeSpan) : Int :=
  d.seconds.toInt * nanosPerSecond + d.nanos

/-- Whether a span is **no longer than another**: the seconds decide, and only if they are the same the
nanoseconds. -/
def le (d e : TimeSpan) : Bool :=
  d.seconds < e.seconds || (d.seconds = e.seconds && d.nanos ≤ e.nanos)

/-- The longest span, `2 ^ 63 - 1` milliseconds. -/
def longest : TimeSpan :=
  ⟨9223372036854775, 807000000, by decide⟩

/-- What is left over after whole seconds is **less than a second**. -/
theorem toNat_emod_lt (n : Int) : (n % nanosPerSecond).toNat < nanosPerSecond := by
  simp only [nanosPerSecond]
  omega

/-- So many nanoseconds; the seconds are those that the word can hold. -/
def ofNanos (n : Int) : TimeSpan where
  seconds := .ofInt (n / nanosPerSecond)
  nanos := (n % nanosPerSecond).toNat
  nanos_lt := toNat_emod_lt n

/-- What milliseconds leave over after whole seconds is **less than a second**, too. -/
theorem toNat_emod_millis_lt (ms : Int64) : (ms.toInt % 1000).toNat * nanosPerMilli < nanosPerSecond := by
  simp only [nanosPerMilli, nanosPerSecond]
  omega

/-- So many milliseconds, unless they are fewer than the opposite of the most there can be. -/
def ofMillis? (ms : Int64) : Option TimeSpan :=
  if ms < -9223372036854775807 then none
  else some {
    seconds := .ofInt (ms.toInt / 1000)
    nanos := (ms.toInt % 1000).toNat * nanosPerMilli
    nanos_lt := toNat_emod_millis_lt ms }

/-- An unsigned word as a **signed one**, if it fits. -/
def signed? (n : UInt64) : Option Int64 :=
  if n ≤ 9223372036854775807 then some (.ofNat n.toNat) else none

/-- A **window as a span**: the longest one if its milliseconds do not fit. -/
def ofWindow (windowMs : UInt64) : TimeSpan :=
  ((signed? windowMs).bind ofMillis?).getD longest

/-- To compare spans is to compare **their nanoseconds**. -/
theorem le_iff {d e : TimeSpan} : d.le e = true ↔ d.total ≤ e.total := by
  have below := d.nanos_lt
  have below' := e.nanos_lt
  unfold le total
  rw [Bool.or_eq_true, Bool.and_eq_true, decide_eq_true_iff, decide_eq_true_iff, decide_eq_true_iff,
    Int64.lt_iff_toInt_lt, ← Int64.toInt_inj]
  simp only [nanosPerSecond] at *
  omega

/-- So many nanoseconds are **as many in a span**, up to the longest window. -/
theorem total_ofNanos {n : Int} (low : -(windowMax * nanosPerMilli : Nat) ≤ n)
    (high : n ≤ (windowMax * nanosPerMilli : Nat)) : (ofNanos n).total = n := by
  simp only [windowMax, nanosPerMilli] at low high
  simp only [total, ofNanos, nanosPerSecond]
  rw [Int64.toInt_ofInt_of_le (by omega) (by omega)]
  omega

/-- So many milliseconds have **their nanoseconds**, unless there is no such span. -/
theorem total_ofMillis? (ms : Int64) (low : -9223372036854775807 ≤ ms.toInt) :
    (ofMillis? ms).map total = some (ms.toInt * nanosPerMilli) := by
  have high := ms.toInt_lt
  have least : (-9223372036854775807 : Int64).toInt = -9223372036854775807 := by decide
  unfold ofMillis?
  rw [if_neg (by rw [Int64.lt_iff_toInt_lt, least]; omega), Option.map_some]
  simp only [total, nanosPerSecond, nanosPerMilli]
  rw [Int64.toInt_ofInt_of_le (by omega) (by omega)]
  congr 1
  omega

/-- A window has **the nanoseconds of its milliseconds**, or those of the longest one. -/
theorem total_ofWindow (windowMs : UInt64) :
    (ofWindow windowMs).total = (min windowMs.toNat windowMax * nanosPerMilli : Nat) := by
  unfold ofWindow signed?
  have fits_iff : windowMs ≤ 9223372036854775807 ↔ windowMs.toNat ≤ windowMax := UInt64.le_iff_toNat_le
  split_ifs with fits <;> rw [fits_iff] at fits
  · have word : (Int64.ofNat windowMs.toNat).toInt = windowMs.toNat :=
      Int64.toInt_ofNat_of_lt (Nat.lt_succ_of_le fits)
    obtain ⟨d, found, nanos⟩ := Option.map_eq_some_iff.mp
      (total_ofMillis? (.ofNat windowMs.toNat) (by rw [word]; omega))
    rw [Option.bind_some, found, Option.getD_some, nanos, word, Nat.min_eq_left fits]
    rfl
  · rw [Option.bind_none, Option.getD_none, Nat.min_eq_right (Nat.le_of_not_le fits)]
    decide

end TimeSpan

/-! ## 2. The test -/

/-- No two moments are further apart than **the longest span**, in either direction. -/
theorem Timestamp.le_since (stop start : Timestamp) :
    -(windowMax * nanosPerMilli : Nat) ≤ stop.since start := by
  have first := stop.first_le
  have last := start.le_last
  have below := start.nanos_lt
  have leap : -1 ≤ leapBetween start stop := by
    unfold leapBetween
    grind
  simp only [since, windowMax, nanosPerMilli, firstSecond, lastSecond, nanosPerSecond] at *
  omega

/-- The **time between two moments** as a span. -/
def Timestamp.spanSince (stop start : Timestamp) : TimeSpan :=
  .ofNanos (stop.since start)

/-- The test **compares two spans**, the time between the moments and the window. -/
theorem withinWindow_eq_le (start stop : Timestamp) (windowMs : UInt64) :
    withinWindow start stop windowMs.toNat = (stop.spanSince start).le (.ofWindow windowMs) := by
  rw [Bool.eq_iff_iff, TimeSpan.le_iff, TimeSpan.total_ofWindow, Timestamp.spanSince,
    TimeSpan.total_ofNanos (stop.le_since start) (stop.since_le start), withinWindow,
    decide_eq_true_iff]

/-- Outside leap seconds the test is **what it says** over unbounded integers. -/
theorem withinWindow_iff_total {start stop : Timestamp} (plain : start.inLeapSecond = false)
    (plain' : stop.inLeapSecond = false) (windowMs : UInt64) :
    withinWindow start stop windowMs.toNat = true
      ↔ stop.total - start.total ≤ windowMs.toNat * 1000000 := by
  rw [withinWindow_iff, Timestamp.since_of_no_leap plain plain', Nat.cast_mul]
  rfl

/-! ## 3. What a matcher makes of it -/

open Matcher in
/-- A match is completed or expired **as the nanoseconds say** between its first event and its last. -/
theorem match_of_total {sequence : List String} {windowMs : UInt64} {seen : List (String × Timestamp)}
    {outcome : Outcome} (found : lastOutcome sequence windowMs seen = some outcome)
    (matched : outcome.isMatch = true) :
    ∃ before occurrence, seen = before ++ occurrence ∧ occurrence.map Prod.fst = sequence
      ∧ ∀ first ∈ occurrence.head?, ∀ last ∈ occurrence.getLast?,
          first.2.inLeapSecond = false → last.2.inLeapSecond = false →
          (outcome = .completed ↔ last.2.total - first.2.total ≤ windowMs.toNat * 1000000) := by
  obtain ⟨before, first, later, rfl, names, -, ends, -⟩ := exists_of_isMatch found matched
  refine ⟨before, first :: later, rfl, names, fun head begins last ended plain plain' => ?_⟩
  have took : span (first :: later) = last.2.since head.2 := by
    unfold span
    rw [Option.mem_def.mp begins, Option.mem_def.mp ended]
  rw [ends, verdict_eq_completed_iff, took, Timestamp.since_of_no_leap plain plain', Nat.cast_mul]
  rfl

/-- **The window test is exact.** The test compares spans of sixty-four bits, and comes to what unbounded
integers come to: whether the nanoseconds from `start` to `stop` are no more than those of the window. So a
longer window holds what a shorter one holds, a window of any length holds what comes before its start, and a
matcher whose pattern is met from `start` to `stop` completes just if the nanoseconds say so. -/
theorem window_is_exact (start stop : Timestamp) (plain : start.inLeapSecond = false)
    (plain' : stop.inLeapSecond = false) (windowMs : UInt64) :
    withinWindow start stop windowMs.toNat = (stop.spanSince start).le (.ofWindow windowMs)
      ∧ (withinWindow start stop windowMs.toNat = true
          ↔ stop.total - start.total ≤ windowMs.toNat * 1000000)
      ∧ (∀ longer : UInt64, windowMs ≤ longer → withinWindow start stop windowMs.toNat = true →
          withinWindow start stop longer.toNat = true)
      ∧ (stop.total ≤ start.total → withinWindow start stop windowMs.toNat = true)
      ∧ ∀ sequence seen outcome, Matcher.lastOutcome sequence windowMs seen = some outcome →
          outcome.isMatch = true →
          ∃ before occurrence, seen = before ++ occurrence ∧ occurrence.map Prod.fst = sequence
            ∧ (occurrence.head?.map Prod.snd = some start →
              occurrence.getLast?.map Prod.snd = some stop →
              (outcome = .completed ↔ stop.total - start.total ≤ windowMs.toNat * 1000000)) := by
  have exact_iff (windowMs : UInt64) := withinWindow_iff_total plain plain' windowMs
  refine ⟨withinWindow_eq_le start stop windowMs, exact_iff windowMs, fun longer le inside => ?_,
    fun earlier => ?_, fun sequence seen outcome found matched => ?_⟩
  -- longer windows and earlier stops are compared as integers
  · have more : windowMs.toNat ≤ longer.toNat := UInt64.le_iff_toNat_le.mp le
    rw [exact_iff] at inside ⊢
    omega
  · rw [exact_iff]
    omega
  · obtain ⟨before, occurrence, split, names, ends⟩ := match_of_total found matched
    refine ⟨before, occurrence, split, names, fun begins ended => ?_⟩
    obtain ⟨first, head, rfl⟩ := Option.map_eq_some_iff.mp begins
    obtain ⟨last, tail, rfl⟩ := Option.map_eq_some_iff.mp ended
    exact ends first head last tail plain plain'

/-- From the first moment to the last it is a nanosecond less than a whole number of milliseconds: a window of
so many holds it, and one that is a millisecond shorter does not. -/
theorem window_is_exact_first_to_last :
    Timestamp.first.inLeapSecond = false ∧ Timestamp.last.inLeapSecond = false
      ∧ withinWindow .first .last (16544868105600000 : UInt64).toNat = true
      ∧ withinWindow .first .last (16544868105599999 : UInt64).toNat = false
      ∧ withinWindow .first .last (18446744073709551615 : UInt64).toNat = true := by
  have plain : Timestamp.first.inLeapSecond = false := by decide
  have plain' : Timestamp.last.inLeapSecond = false := by decide
  obtain ⟨-, within, longer, -⟩ := window_is_exact .first .last plain plain' 16544868105600000
  have inside := within.mpr (by decide)
  refine ⟨plain, plain', inside, ?_, longer _ (by decide) inside⟩
  refine Bool.eq_false_iff.mpr fun shorter => ?_
  have few := (window_is_exact .first .last plain plain' 16544868105599999).2.1.mp shorter
  exact absurd few (by decide)

end RuleDispatch
