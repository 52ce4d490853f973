import Mathlib
import RuleDispatch.Pattern

/-! # The attempt under way

A matcher keeps an index and a start, but what they stand for are events of the past: the last
`index` ones, which spell the beginning of the sequence, the first of which the matcher took as the
beginning of an attempt and none of which belongs to a match.

* `Matcher.after`, `Matcher.outcomes`, `Matcher.lastOutcome` — a stream given to a fresh matcher.
* `Matcher.Used` — an event that took part in a match; `span` — how long events took.
* `Matcher.Begins` — whether a matcher takes an event as the first of an attempt.
* `Matcher.Attempt` — the events that make up the present attempt. `Matcher.exists_attempt`: there
  always are such events.
* `Matcher.Begins.continues`, `Matcher.Begins.lastOutcome` — an attempt that has begun goes on for as
  long as the names are the next ones. -/

namespace RuleDispatch

/-! ## 1. Windows -/

/-- The nanoseconds **from the first of some events to the last**. -/
def span (events : List (String × Timestamp)) : Int :=
  match events.head?, events.getLast? with
  | some first, some last => last.2.since first.2
  | _, _ => 0

/-- No two moments are as far apart as the longest window. -/
theorem Timestamp.since_le (stop start : Timestamp) :
    stop.since start ≤ (windowMax * nanosPerMilli : Nat) := by
  have first := start.first_le
  have last := stop.le_last
  have below := stop.nanos_lt
  have leap : leapBetween start stop ≤ 1 := by
    unfold leapBetween
    grind
  simp only [since, windowMax, nanosPerMilli, firstSecond, lastSecond, nanosPerSecond] at *
  omega

/-- A window **is what it says**: that the longest one is capped never matters. -/
theorem withinWindow_iff (start stop : Timestamp) (windowMs : UInt64) :
    withinWindow start stop windowMs.toNat = true
      ↔ stop.since start ≤ (windowMs.toNat * nanosPerMilli : Nat) := by
  have far := stop.since_le start
  rw [withinWindow, decide_eq_true_iff]
  rcases Nat.le_total windowMs.toNat windowMax with small | large
  · rw [Nat.min_eq_left small]
  · have : windowMax * nanosPerMilli ≤ windowMs.toNat * nanosPerMilli :=
      Nat.mul_le_mul_right _ large
    rw [Nat.min_eq_right large]
    omega

/-- Whether the event **ended a match**, be it in time or too late. -/
def Outcome.isMatch : Outcome → Bool
  | completed | expired => true
  | advanced | restarted | reset | ignored => false

/-- A beginning of a list with the next element is a **longer beginning**. -/
theorem prefix_concat {events : List (String × Timestamp)} {event : String × Timestamp}
    {names : List String} (spelled : events.map Prod.fst <+: names)
    (next : names[events.length]? = some event.1) :
    (events ++ [event]).map Prod.fst <+: names := by
  obtain ⟨rest, rfl⟩ := spelled
  cases rest with
  | nil => simp at next
  | cons name rest =>
    obtain rfl : name = event.1 := by simpa using next
    exact ⟨rest, by simp⟩

namespace Matcher

/-! ## 2. One event -/

section Observe

variable {m : Matcher} {name : String}

/-- The event that was waited for, with more to come, **advances** the attempt. -/
theorem observe_of_next (next : m.sequence[m.index]? = some name)
    (more : m.index + 1 < m.sequence.length) (time : Timestamp) :
    m.observe name time
      = (.advanced, { m with index := m.index + 1, start := some (m.startAt time) }) := by
  unfold observe
  split
  case h_1 none => simp [none] at more
  case h_2 => rw [if_pos next, if_pos more]

/-- The event that was waited for, the last of the sequence, **ends a match**. -/
theorem observe_of_last (next : m.sequence[m.index]? = some name)
    (last : m.index + 1 = m.sequence.length) (time : Timestamp) :
    m.observe name time
      = (if withinWindow (m.startAt time) time m.withinMs.toNat then .completed else .expired,
        { m with index := 0, start := some (m.startAt time) }) := by
  unfold observe
  split
  case h_1 none => simp [none] at last
  case h_2 => rw [if_pos next, if_neg (by omega)]

/-- An event that was not waited for but is the first of the sequence **restarts** the attempt. -/
theorem observe_of_first (other : m.sequence[m.index]? ≠ some name)
    (first : m.sequence.head? = some name) (time : Timestamp) :
    m.observe name time = (.restarted, { m with index := 1, start := some time }) := by
  unfold observe
  split
  case h_1 none => simp [none] at first
  case h_2 head rest eq =>
    have : name = head := by simpa [eq, eq_comm] using first
    rw [if_neg other, if_pos this]

/-- Any other event **resets** the matcher. -/
theorem observe_of_other (nonempty : m.sequence ≠ [])
    (other : m.sequence[m.index]? ≠ some name) (rest : m.sequence.head? ≠ some name)
    (time : Timestamp) :
    m.observe name time = (.reset, { m with index := 0, start := some (m.startAt time) }) := by
  unfold observe
  split
  case h_1 none => exact absurd none nonempty
  case h_2 head _ eq =>
    have : name ≠ head := by simpa [eq, eq_comm] using rest
    rw [if_neg other, if_neg this]

/-- Only the **last name** of the sequence ends a match. -/
theorem index_of_isMatch {time : Timestamp} (matched : (m.observe name time).1.isMatch = true) :
    m.sequence[m.index]? = some name ∧ m.index + 1 = m.sequence.length := by
  unfold observe at matched
  grind [Outcome.isMatch, List.getElem?_eq_some_iff]

/-- One event takes an attempt **at most one name further**. -/
theorem index_observe_le (m : Matcher) (name : String) (time : Timestamp) :
    (m.observe name time).2.index ≤ m.index + 1 := by
  unfold observe
  grind

/-- Whether the matcher takes an event of this name as **the first of an attempt**: it bears the
first name, and it is not the later part of the attempt under way. -/
def Begins (m : Matcher) (name : String) : Prop :=
  m.sequence.head? = some name ∧ (m.index = 0 ∨ m.sequence[m.index]? ≠ some name)

end Observe

/-! ## 3. A stream, event by event -/

/-- A matcher is run on **the first event**, and then on the others. -/
theorem run_cons (m : Matcher) (event : String × Timestamp) (rest : List (String × Timestamp)) :
    m.run (event :: rest)
      = ((m.observe event.1 event.2).1 :: ((m.observe event.1 event.2).2.run rest).1,
        ((m.observe event.1 event.2).2.run rest).2) :=
  rfl

/-- What stands at the end of a stream is met by **the matcher that the rest has left**. -/
theorem run_append (m : Matcher) (past events : List (String × Timestamp)) :
    m.run (past ++ events)
      = ((m.run past).1 ++ ((m.run past).2.run events).1, ((m.run past).2.run events).2) := by
  induction past generalizing m with
  | nil => rfl
  | cons event past ih => simp only [List.cons_append, run_cons, ih]

/-- Every event has its outcome. -/
@[simp] theorem length_run (m : Matcher) (events : List (String × Timestamp)) :
    (m.run events).1.length = events.length := by
  induction events generalizing m with
  | nil => rfl
  | cons event rest ih => simp [run_cons, ih]

/-- **Too few events** for what is missing end no match. -/
theorem not_isMatch_of_short {m : Matcher} {events : List (String × Timestamp)}
    (short : m.index + events.length < m.sequence.length) :
    ∀ outcome ∈ (m.run events).1, outcome.isMatch = false := by
  induction events generalizing m with
  | nil => simp [run]
  | cons event rest ih =>
    rw [List.length_cons] at short
    intro outcome found
    rw [run_cons] at found
    rcases List.mem_cons.mp found with rfl | later
    · by_contra matched
      have := (index_of_isMatch (eq_true_of_ne_false matched)).2
      omega
    · have step := index_observe_le m event.1 event.2
      refine ih ?_ outcome later
      rw [sequence_observe]
      omega

variable (sequence : List String) (withinMs : UInt64)

/-- The matcher **after a stream** that it was fresh for. -/
def after (past : List (String × Timestamp)) : Matcher :=
  ((fresh sequence withinMs).run past).2

/-- The **outcomes** of a stream, for a matcher that was fresh before it. -/
def outcomes (past : List (String × Timestamp)) : List Outcome :=
  ((fresh sequence withinMs).run past).1

/-- The outcome of **the last** event of a stream. -/
def lastOutcome (seen : List (String × Timestamp)) : Option Outcome :=
  (outcomes sequence withinMs seen).getLast?

/-- Whether the event at the place `p` **took part in a match**. A match takes as many events as the
sequence has names, up to and with the one that ended it. -/
def Used (past : List (String × Timestamp)) (p : Nat) : Prop :=
  ∃ i outcome, (outcomes sequence withinMs past)[i]? = some outcome ∧ outcome.isMatch = true
    ∧ p ≤ i ∧ i < p + sequence.length

variable {sequence withinMs} {past before attempt later : List (String × Timestamp)}
  {event first : String × Timestamp} {p : Nat}

/-- After one event more a matcher has **observed it last**. -/
theorem after_concat : after sequence withinMs (past ++ [event])
    = ((after sequence withinMs past).observe event.1 event.2).2 := by
  simp only [after, run_append, run]

/-- One event more adds **its outcome**, after the others. -/
theorem outcomes_concat : outcomes sequence withinMs (past ++ [event])
    = outcomes sequence withinMs past
      ++ [((after sequence withinMs past).observe event.1 event.2).1] := by
  simp only [outcomes, after, run_append, run]

/-- The last outcome is that of **the last event**. -/
theorem lastOutcome_concat : lastOutcome sequence withinMs (past ++ [event])
    = some ((after sequence withinMs past).observe event.1 event.2).1 := by
  simp [lastOutcome, outcomes_concat]

/-- There are **as many outcomes as events**. -/
@[simp] theorem length_outcomes : (outcomes sequence withinMs past).length = past.length :=
  length_run _ _

/-- A stream does not change the pattern. -/
theorem after_pattern : (after sequence withinMs past).sequence = sequence
    ∧ (after sequence withinMs past).withinMs = withinMs := by
  induction past using List.reverseRecOn with
  | nil => exact ⟨rfl, rfl⟩
  | append_singleton past event ih =>
    rw [after_concat]
    refine ⟨(sequence_observe _ _ _).trans ih.1, ?_⟩
    rw [← ih.2]
    unfold observe
    grind

/-- A matcher keeps **its sequence**, whatever it observes. -/
@[simp] theorem sequence_after : (after sequence withinMs past).sequence = sequence :=
  after_pattern.1

/-- A matcher keeps **its window**, whatever it observes. -/
@[simp] theorem withinMs_after : (after sequence withinMs past).withinMs = withinMs :=
  after_pattern.2

/-- Only events that have been seen took part in a match. -/
theorem Used.lt (used : Used sequence withinMs past p) : p < past.length := by
  obtain ⟨i, outcome, found, -, le, -⟩ := used
  have := (List.getElem?_eq_some_iff.mp found).1
  rw [length_outcomes] at this
  omega

/-- What a stream has done **stays done**. -/
theorem outcomes_append (sequence : List String) (withinMs : UInt64)
    (past more : List (String × Timestamp)) :
    outcomes sequence withinMs past <+: outcomes sequence withinMs (past ++ more) :=
  ⟨_, by rw [outcomes, outcomes, run_append]⟩

/-- A match **uses up** as many of the last events as the sequence has names. -/
theorem used_of_isMatch {outcome : Outcome} (more : List (String × Timestamp))
    (found : lastOutcome sequence withinMs past = some outcome) (matched : outcome.isMatch = true)
    (seen : p < past.length) (near : past.length ≤ p + sequence.length) :
    Used sequence withinMs (past ++ more) p := by
  rw [lastOutcome, List.getLast?_eq_getElem?, length_outcomes] at found
  obtain ⟨rest, eq⟩ := outcomes_append sequence withinMs past more
  refine ⟨past.length - 1, outcome, ?_, matched, by omega, by omega⟩
  rw [← eq, List.getElem?_append_left (by rw [length_outcomes]; omega), found]

/-- One more event that ends no match **uses nothing**. -/
theorem used_concat (other :
      ((after sequence withinMs past).observe event.1 event.2).1.isMatch = false) :
    Used sequence withinMs (past ++ [event]) p ↔ Used sequence withinMs past p := by
  simp only [Used, outcomes_concat]
  constructor
  · rintro ⟨i, outcome, found, matched, range⟩
    rcases lt_or_ge i (outcomes sequence withinMs past).length with old | new
    · rw [List.getElem?_append_left old] at found
      exact ⟨i, outcome, found, matched, range⟩
    · -- only the new outcome is left, and it is no match
      rw [List.getElem?_append_right new] at found
      have := List.mem_singleton.mp (List.mem_of_getElem? found)
      rw [← this, matched] at other
      cases other
  · rintro ⟨i, outcome, found, rest⟩
    exact ⟨i, outcome, List.getElem?_append_left
      (List.getElem?_eq_some_iff.mp found).1 ▸ found, rest⟩

/-! ## 4. The attempt under way -/

/-- The events `attempt`, the last ones of those past, **make up the present attempt**: the matcher
has counted them and knows when the first of them came, they spell the beginning of the sequence,
the matcher took the first of them as the beginning of an attempt, and none of them belongs to a
match. -/
structure Attempt (sequence : List String) (withinMs : UInt64)
    (before attempt : List (String × Timestamp)) : Prop where
  /-- The matcher has met as many names. -/
  index : (after sequence withinMs (before ++ attempt)).index = attempt.length
  /-- It took the time of the first event. -/
  start : ∀ first ∈ attempt.head?,
    (after sequence withinMs (before ++ attempt)).start = some first.2
  /-- They are the first names of the pattern, in order. -/
  names : attempt.map Prod.fst <+: sequence
  /-- There are more names to come. -/
  short : attempt.length < sequence.length
  /-- The first event begins an attempt. -/
  begins : ∀ first ∈ attempt.head?, (after sequence withinMs before).Begins first.1
  /-- None of the events was used up by a match. -/
  free : ∀ p, before.length ≤ p → ¬ Used sequence withinMs (before ++ attempt) p

/-- With the index zero **no attempt is under way**. -/
theorem Attempt.nil (nonempty : sequence ≠ [])
    (index : (after sequence withinMs past).index = 0) :
    Attempt sequence withinMs past [] where
  index := by simpa using index
  start := by simp
  names := List.nil_prefix
  short := List.length_pos_of_ne_nil nonempty
  begins := by simp
  free p le used := by
    have := used.lt
    simp only [List.append_nil] at this
    omega

/-- The name that an attempt **waits for**. -/
theorem Attempt.next (under : Attempt sequence withinMs before attempt)
    (names : (attempt ++ [event]).map Prod.fst <+: sequence) :
    (after sequence withinMs (before ++ attempt)).sequence[
      (after sequence withinMs (before ++ attempt)).index]? = some event.1 := by
  obtain ⟨rest, eq⟩ := names
  rw [sequence_after, under.index, ← eq]
  simp

/-- When an attempt began that goes on with some event: with **the first event of both**. -/
theorem Attempt.startAt (under : Attempt sequence withinMs before attempt)
    (event : String × Timestamp) :
    some ((after sequence withinMs (before ++ attempt)).startAt event.2)
      = (attempt ++ [event]).head?.map Prod.snd := by
  unfold Matcher.startAt
  rw [under.index]
  cases attempt with
  | nil => rfl
  | cons first rest =>
    rw [if_neg (by simp), under.start first rfl]
    rfl

/-- The next name, with more to come, **becomes part of the attempt**. -/
theorem Attempt.advance (under : Attempt sequence withinMs before attempt)
    (names : (attempt ++ [event]).map Prod.fst <+: sequence)
    (short : attempt.length + 1 < sequence.length) :
    Attempt sequence withinMs before (attempt ++ [event]) := by
  have step := observe_of_next (under.next names)
    (by rwa [under.index, sequence_after]) event.2
  have now : after sequence withinMs (before ++ attempt ++ [event]) = _ := after_concat
  rw [step, List.append_assoc] at now
  refine ⟨?index, ?start, names, by simpa using short, ?begins, ?free⟩
  case index => rw [now, List.length_append, ← under.index]; rfl
  case start =>
    intro first found
    rw [now, under.startAt, found]
    rfl
  case begins =>
    intro first found
    cases attempt with
    | cons head rest => exact under.begins first found
    | nil =>
      -- no attempt was under way, so this event begins one
      obtain rfl : event = first := by simpa using found
      obtain ⟨rest, eq⟩ := names
      refine ⟨by rw [sequence_after, ← eq]; rfl, .inl ?_⟩
      simpa using under.index
  case free =>
    intro p le
    rw [← List.append_assoc, used_concat (by rw [step]; rfl)]
    exact under.free p le

/-- An event with which an attempt begins is **the whole attempt**, if the sequence goes on. -/
theorem Begins.single (begins : (after sequence withinMs past).Begins event.1)
    (long : 1 < sequence.length) : Attempt sequence withinMs past [event] := by
  obtain ⟨head, place⟩ := begins
  rw [sequence_after] at head
  obtain ⟨rest, rfl⟩ : ∃ rest, sequence = event.1 :: rest := by
    cases sequence with
    | nil => cases head
    | cons name rest => exact ⟨rest, by rw [Option.some.inj head]⟩
  by_cases idle : (after (event.1 :: rest) withinMs past).index = 0
  · -- nothing was under way: the event is the next name of the empty attempt
    exact (Attempt.nil (by simp) idle).advance (by simp) long
  · -- something was, and the event does not go on with it
    have other := place.resolve_left idle
    have step := observe_of_first other (by simp) event.2
    have now : after (event.1 :: rest) withinMs (past ++ [event]) = _ := after_concat
    rw [step] at now
    refine ⟨by rw [now]; rfl, by rw [now]; simp, by simp, long, ?begins, ?free⟩
    case begins =>
      intro first found
      obtain rfl : event = first := by simpa using found
      exact ⟨by simp, place⟩
    case free =>
      intro p le
      rw [used_concat (by rw [step]; rfl)]
      intro used
      exact absurd used.lt (not_lt.mpr le)

/-- **Some last events of the past make up the present attempt**, whatever the past: this is what a
matcher remembers of it. -/
theorem exists_attempt (withinMs : UInt64) (nonempty : sequence ≠ [])
    (past : List (String × Timestamp)) :
    ∃ before attempt, past = before ++ attempt ∧ Attempt sequence withinMs before attempt := by
  have pos := List.length_pos_of_ne_nil nonempty
  induction past using List.reverseRecOn with
  | nil => exact ⟨[], [], rfl, .nil nonempty rfl⟩
  | append_singleton past event ih =>
    obtain ⟨before, attempt, rfl, under⟩ := ih
    set m := after sequence withinMs (before ++ attempt) with m_def
    have idle (zero : (m.observe event.1 event.2).2.index = 0) :
        ∃ before' attempt', before ++ attempt ++ [event] = before' ++ attempt'
          ∧ Attempt sequence withinMs before' attempt' :=
      ⟨_, [], (List.append_nil _).symm, .nil nonempty (by rw [after_concat]; exact zero)⟩
    by_cases next : m.sequence[m.index]? = some event.1
    · by_cases more : attempt.length + 1 < sequence.length
      · refine ⟨before, attempt ++ [event], by simp, under.advance ?_ more⟩
        rw [sequence_after, under.index] at next
        exact prefix_concat under.names next
      · -- the last name: whatever the time says, the attempt is over
        apply idle
        rw [observe_of_last next]
        rw [under.index, sequence_after]
        have := under.short
        omega
    · by_cases first : m.sequence.head? = some event.1
      · have : m.index ≠ 0 := by
          intro zero
          rw [zero, ← List.head?_eq_getElem?] at next
          exact next first
        rw [under.index] at this
        have := under.short
        exact ⟨before ++ attempt, [event], rfl,
          Begins.single ⟨first, .inr next⟩ (by omega)⟩
      · apply idle
        rw [observe_of_other (by rwa [sequence_after]) next first]

/-! ## 5. From its beginning to its end -/

/-- An attempt that has begun **goes on with the names that follow**, as long as some are missing. -/
theorem Begins.continues (begins : (after sequence withinMs before).Begins first.1)
    (names : (first :: later).map Prod.fst <+: sequence)
    (short : later.length + 1 < sequence.length) :
    Attempt sequence withinMs before (first :: later) := by
  induction later using List.reverseRecOn with
  | nil => exact begins.single short
  | append_singleton later event ih =>
    rw [List.length_append, List.length_singleton] at short
    have earlier : (first :: later).map Prod.fst <+: sequence :=
      List.IsPrefix.trans ⟨[event.1], by simp⟩ names
    exact (ih earlier (by omega)).advance names short

/-- How a match of these events ends: **completed** if they are in the window. -/
def verdict (withinMs : UInt64) (events : List (String × Timestamp)) : Outcome :=
  if span events ≤ (withinMs.toNat * nanosPerMilli : Nat) then .completed else .expired

/-- A match is completed **exactly if it fits in the window**. -/
theorem verdict_eq_completed_iff {events : List (String × Timestamp)} :
    verdict withinMs events = .completed
      ↔ span events ≤ (withinMs.toNat * nanosPerMilli : Nat) := by
  unfold verdict
  split <;> simp_all

/-- Completed or expired, it is **a match**. -/
theorem isMatch_verdict (events : List (String × Timestamp)) :
    (verdict withinMs events).isMatch = true := by
  unfold verdict
  split <;> rfl

/-- The last name **ends the match**, and the time since its first event decides how. -/
theorem Attempt.lastOutcome (under : Attempt sequence withinMs before attempt)
    (names : (attempt ++ [event]).map Prod.fst = sequence) :
    lastOutcome sequence withinMs (before ++ attempt ++ [event])
      = some (verdict withinMs (attempt ++ [event])) := by
  have full : attempt.length + 1 = sequence.length := by simp [← names]
  have took : span (attempt ++ [event])
      = event.2.since ((after sequence withinMs (before ++ attempt)).startAt event.2) := by
    obtain ⟨head, found, eq⟩ := Option.map_eq_some_iff.mp (under.startAt event).symm
    simp [span, found, ← eq]
  rw [lastOutcome_concat, observe_of_last (under.next (names ▸ List.prefix_refl _))
    (by rwa [under.index, sequence_after]), verdict, took, withinMs_after]
  simp only [withinWindow_iff]

/-- An attempt that has begun **ends in a match when all names have followed**. -/
theorem Begins.lastOutcome (begins : (after sequence withinMs before).Begins first.1)
    (names : (first :: later).map Prod.fst = sequence) :
    lastOutcome sequence withinMs (before ++ first :: later)
      = some (verdict withinMs (first :: later)) := by
  have nonempty : sequence ≠ [] := by simp [← names]
  induction later using List.reverseRecOn with
  | nil =>
    -- a sequence of one name: no attempt is ever under way
    obtain ⟨before', attempt, rfl, under⟩ := exists_attempt withinMs nonempty before
    have short := under.short
    obtain rfl : attempt = [] := by
      rw [← names] at short
      simpa using short
    have idle : Attempt sequence withinMs (before' ++ []) [] := .nil nonempty (by simpa using under.index)
    simpa using idle.lastOutcome names
  | append_singleton later event _ =>
    have under : Attempt sequence withinMs before (first :: later) :=
      begins.continues ⟨[event.1], by simpa using names⟩ (by simp [← names])
    simpa using under.lastOutcome names

/-- A match is **the end of an attempt**: the events since it began spell the sequence, and none of
them belongs to an earlier match. -/
theorem exists_of_isMatch {seen : List (String × Timestamp)} {outcome : Outcome}
    (found : lastOutcome sequence withinMs seen = some outcome)
    (matched : outcome.isMatch = true) :
    ∃ before first later, seen = before ++ first :: later
      ∧ (first :: later).map Prod.fst = sequence
      ∧ (after sequence withinMs before).Begins first.1
      ∧ outcome = verdict withinMs (first :: later)
      ∧ ∀ p, before.length ≤ p → ¬ Used sequence withinMs seen.dropLast p := by
  induction seen using List.reverseRecOn with
  | nil => cases found
  | append_singleton past event _ =>
    have last : outcome = ((after sequence withinMs past).observe event.1 event.2).1 := by
      rw [lastOutcome_concat] at found
      exact (Option.some.inj found).symm
    obtain ⟨next, full⟩ := index_of_isMatch (last ▸ matched)
    have nonempty : sequence ≠ [] := by
      rintro rfl
      simp at full
    -- the match ends the attempt that is under way before the last event
    obtain ⟨before, attempt, rfl, under⟩ := exists_attempt withinMs nonempty past
    rw [sequence_after, under.index] at next full
    have names : (attempt ++ [event]).map Prod.fst = sequence :=
      (prefix_concat under.names next).eq_of_length (by simpa using full)
    have ends := Option.some.inj (found.symm.trans (under.lastOutcome names))
    have free : ∀ p, before.length ≤ p →
        ¬ Used sequence withinMs (before ++ attempt ++ [event]).dropLast p := by
      rw [List.dropLast_concat]
      exact under.free
    -- if no attempt is under way, the last event begins one and ends it
    cases attempt with
    | cons first later =>
      exact ⟨before, first, later ++ [event], by simp, names, under.begins first rfl, ends, free⟩
    | nil =>
      have head : sequence.head? = some event.1 := by simp [← names]
      refine ⟨before, event, [], by simp, names, ⟨by rwa [sequence_after], .inl ?_⟩, ends, free⟩
      simpa using under.index

end Matcher

end RuleDispatch
