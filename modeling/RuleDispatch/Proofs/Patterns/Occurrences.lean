import RuleDispatch.Proofs.Patterns.Attempts

/-! # Occurrences of a pattern

What a pattern is for: to find the places of a stream of events where its names stand in order.

* `Due` — events that a pattern should complete with: they end a stream, spell the sequence, keep to
  the window, and none of them was used up by an earlier match.
* `completed_only_when_due` — a pattern never completes wrongly; if its first name does not recur in
  it, it ends a match wherever its names stand, whatever came before.
* `due_completes_iff` — when the first name recurs, it may miss occurrences: those whose first event
  it has taken for a later part of an attempt. It misses none, whatever the stream, just if the
  sequence starts over as itself wherever its first name recurs. -/

namespace RuleDispatch

open Matcher

/-! ## 1. Events that should complete a pattern -/

/-- The last events of a stream **should complete the pattern**: they spell it, the last of them
comes no more than `withinMs` milliseconds after the first, and none of them took part in an earlier
match. -/
structure Due (sequence : List String) (withinMs : UInt64)
    (before occurrence : List (String × Timestamp)) : Prop where
  /-- The events have the names of the pattern, in order. -/
  names : occurrence.map Prod.fst = sequence
  /-- They fit in the window. -/
  inWindow : span occurrence ≤ (withinMs.toNat * nanosPerMilli : Nat)
  /-- None of them was used up by an earlier match. -/
  free : ∀ p, before.length ≤ p →
    ¬ Used sequence withinMs (before ++ occurrence).dropLast p

section

variable {sequence : List String} {withinMs : UInt64}
  {before later : List (String × Timestamp)} {first : String × Timestamp}

/-- A pattern that completes does so **with events that are due**, the first of which began an
attempt. -/
theorem due_of_completed {seen : List (String × Timestamp)}
    (completed : lastOutcome sequence withinMs seen = some .completed) :
    ∃ before first later, seen = before ++ first :: later
      ∧ Due sequence withinMs before (first :: later)
      ∧ (after sequence withinMs before).Begins first.1 := by
  obtain ⟨before, first, later, rfl, names, begins, ends, free⟩ :=
    exists_of_isMatch completed rfl
  exact ⟨before, first, later, rfl, ⟨names, verdict_eq_completed_iff.mp ends.symm, free⟩, begins⟩

/-- Two endings of one stream that spell one sequence are **the same events**. -/
theorem eq_of_names_eq {before₁ before₂ occurrence₁ occurrence₂ : List (String × Timestamp)}
    (same : before₁ ++ occurrence₁ = before₂ ++ occurrence₂)
    (names₁ : occurrence₁.map Prod.fst = sequence) (names₂ : occurrence₂.map Prod.fst = sequence) :
    before₁ = before₂ ∧ occurrence₁ = occurrence₂ := by
  apply List.append_inj' same
  rw [← List.length_map Prod.fst, ← List.length_map Prod.fst, names₁, names₂]

/-! ## 2. A first name that does not recur -/

/-- A first name that **does not recur** always begins an attempt: no attempt waits for it. -/
theorem begins_of_unique (unique : ∀ p, 0 < p → sequence[p]? ≠ sequence.head?)
    (head : sequence.head? = some first.1) :
    (after sequence withinMs before).Begins first.1 := by
  refine ⟨by rwa [sequence_after], ?_⟩
  rw [sequence_after, ← head]
  rcases Nat.eq_zero_or_pos (after sequence withinMs before).index with idle | under
  · exact .inl idle
  · exact .inr (unique _ under)

/-- Where the names stand in order, **a match ends**, in the way that the time says. -/
theorem lastOutcome_of_unique {occurrence : List (String × Timestamp)} (nonempty : sequence ≠ [])
    (unique : ∀ p, 0 < p → sequence[p]? ≠ sequence.head?)
    (names : occurrence.map Prod.fst = sequence) :
    lastOutcome sequence withinMs (before ++ occurrence)
      = some (verdict withinMs occurrence) := by
  cases occurrence with
  | nil => exact absurd names.symm nonempty
  | cons first later =>
    have head : sequence.head? = some first.1 := by simp [← names]
    exact (begins_of_unique unique head).lastOutcome names

/-- A match ends **just where the names stand in order**. -/
theorem isMatch_iff_of_unique {seen : List (String × Timestamp)} (nonempty : sequence ≠ [])
    (unique : ∀ p, 0 < p → sequence[p]? ≠ sequence.head?) :
    (lastOutcome sequence withinMs seen = some .completed
        ∨ lastOutcome sequence withinMs seen = some .expired)
      ↔ sequence <:+ seen.map Prod.fst := by
  constructor
  · intro matched
    obtain ⟨outcome, found, isMatch⟩ : ∃ outcome,
        lastOutcome sequence withinMs seen = some outcome ∧ outcome.isMatch = true := by
      rcases matched with found | found <;> exact ⟨_, found, rfl⟩
    obtain ⟨before, first, later, rfl, names, -⟩ := exists_of_isMatch found isMatch
    exact ⟨before.map Prod.fst, by rw [List.map_append, names]⟩
  · rintro ⟨rest, eq⟩
    obtain ⟨before, occurrence, rfl, -, names⟩ := List.map_eq_append_iff.mp eq.symm
    rw [lastOutcome_of_unique nonempty unique names]
    unfold verdict
    split <;> simp

/-- The pattern completes **just where the names stand in order and in the window**. -/
theorem completed_iff_of_unique {seen : List (String × Timestamp)} (nonempty : sequence ≠ [])
    (unique : ∀ p, 0 < p → sequence[p]? ≠ sequence.head?) :
    lastOutcome sequence withinMs seen = some .completed
      ↔ ∃ before occurrence, seen = before ++ occurrence ∧ occurrence.map Prod.fst = sequence
          ∧ span occurrence ≤ (withinMs.toNat * nanosPerMilli : Nat) := by
  constructor
  · intro completed
    obtain ⟨before, first, later, eq, due, -⟩ := due_of_completed completed
    exact ⟨before, first :: later, eq, due.names, due.inWindow⟩
  · rintro ⟨before, occurrence, rfl, names, inWindow⟩
    rw [lastOutcome_of_unique nonempty unique names, verdict_eq_completed_iff.mpr inWindow]

/-- A pattern **never fires wrongly, and fires exactly when it should if its first name does not
recur**. Whatever the stream and its timestamps: the index stays below the length of the sequence;
when the last event completes the pattern, the last events spell the sequence in order, the last of
them comes within the window after the first, and none of them took part in an earlier match. If the
first name occurs nowhere else in the sequence, the last event ends a match just if the last names
spell the sequence, and completes it just if these events keep to the window. -/
theorem completed_only_when_due (sequence : List String) (withinMs : UInt64)
    (nonempty : sequence ≠ []) (seen : List (String × Timestamp)) :
    (after sequence withinMs seen).index < sequence.length
    ∧ (lastOutcome sequence withinMs seen = some .completed →
        ∃ before occurrence, seen = before ++ occurrence ∧ Due sequence withinMs before occurrence)
    ∧ ((∀ p, 0 < p → sequence[p]? ≠ sequence.head?) →
        ((lastOutcome sequence withinMs seen = some .completed
            ∨ lastOutcome sequence withinMs seen = some .expired)
          ↔ sequence <:+ seen.map Prod.fst)
        ∧ (lastOutcome sequence withinMs seen = some .completed
          ↔ ∃ before occurrence, seen = before ++ occurrence ∧ occurrence.map Prod.fst = sequence
              ∧ span occurrence ≤ (withinMs.toNat * nanosPerMilli : Nat))) := by
  refine ⟨?index, ?right, fun unique =>
    ⟨isMatch_iff_of_unique nonempty unique, completed_iff_of_unique nonempty unique⟩⟩
  case index =>
    obtain ⟨before, attempt, rfl, under⟩ := exists_attempt withinMs nonempty seen
    rw [under.index]
    exact under.short
  case right =>
    intro completed
    obtain ⟨before, first, later, eq, due, -⟩ := due_of_completed completed
    exact ⟨before, first :: later, eq, due⟩

/-- Motion and then the door, met twice in a row: the second door completes the pattern as well. -/
theorem completed_only_when_due_twice :
    ["motion", "door"] ≠ []
    ∧ lastOutcome ["motion", "door"] 500 [("motion", .first), ("door", .first),
        ("motion", .first), ("door", .first)] = some .completed := by
  refine ⟨by simp, ?_⟩
  have unique : ∀ p, 0 < p → ["motion", "door"][p]? ≠ ["motion", "door"].head? := by
    intro p pos
    match p with
    | 1 => simp
    | p + 2 => simp
  exact (((completed_only_when_due ["motion", "door"] 500 (by simp) _).2.2 unique).2).mpr
    ⟨[("motion", .first), ("door", .first)], [("motion", .first), ("door", .first)], rfl, rfl,
      by simp [span]⟩

/-! ## 3. A first name that recurs -/

/-- Events that are due complete the pattern **just if the matcher took the first of them as the
beginning of an attempt**. -/
theorem completed_iff_begins (due : Due sequence withinMs before (first :: later)) :
    lastOutcome sequence withinMs (before ++ first :: later) = some .completed
      ↔ (after sequence withinMs before).Begins first.1 := by
  constructor
  · intro completed
    obtain ⟨before', first', later', eq, due', begins⟩ := due_of_completed completed
    obtain ⟨rfl, same⟩ := eq_of_names_eq eq due.names due'.names
    cases same
    exact begins
  · intro begins
    rw [begins.lastOutcome due.names, verdict_eq_completed_iff.mpr due.inWindow]

/-- If the sequence **starts over as itself wherever its first name recurs**, the first of events that
are due always begins an attempt. Were it a later part of an attempt under way, the attempt would go
on with the events that follow and use up the first one in a match before the last one came. -/
theorem begins_of_periods
    (periods : ∀ p, 0 < p → sequence[p]? = sequence.head? → sequence.drop p <+: sequence)
    (due : Due sequence withinMs before (first :: later)) :
    (after sequence withinMs before).Begins first.1 := by
  have head : sequence.head? = some first.1 := by simp [← due.names]
  have nonempty : sequence ≠ [] := by simp [← due.names]
  by_contra inside
  obtain ⟨earlier, attempt, rfl, under⟩ := exists_attempt withinMs nonempty before
  obtain ⟨under_way, awaited⟩ : attempt.length ≠ 0 ∧ sequence[attempt.length]? = sequence.head? := by
    rw [Begins, sequence_after, under.index, head] at inside
    rw [head]
    tauto
  -- the events that complete the attempt are the first of those that are due
  set missing := sequence.length - attempt.length with missing_def
  have short := under.short
  have count : (first :: later).length = sequence.length := by rw [← due.names, List.length_map]
  have spelled : ((first :: later).take missing).map Prod.fst = sequence.drop attempt.length := by
    have := List.prefix_iff_eq_take.mp (periods _ (Nat.pos_of_ne_zero under_way) awaited)
    rw [List.map_take, due.names, this, List.length_drop]
  have names : (attempt ++ (first :: later).take missing).map Prod.fst = sequence := by
    rw [List.map_append, spelled, List.prefix_iff_eq_take.mp under.names, List.length_map,
      List.take_append_drop]
  have ends : lastOutcome sequence withinMs (earlier ++ attempt ++ (first :: later).take missing)
      = some (verdict withinMs (attempt ++ (first :: later).take missing)) := by
    cases attempt with
    | nil => exact absurd rfl under_way
    | cons start rest =>
      rw [List.append_assoc]
      exact (under.begins start rfl).lastOutcome names
  have taken : ((first :: later).take missing).length = missing := by
    rw [List.length_take]
    omega
  obtain ⟨more, rest⟩ : (first :: later).take missing <+: (first :: later).dropLast := by
    rw [List.dropLast_eq_take]
    exact List.take_prefix_take_left (by omega)
  refine due.free (earlier ++ attempt).length le_rfl ?_
  rw [List.dropLast_append_of_ne_nil (by simp), ← rest, ← List.append_assoc]
  refine used_of_isMatch more ends (isMatch_verdict _) ?_ ?_ <;>
    · simp only [List.length_append, taken]
      omega

/-- Where one list is not the beginning of another that is as long, **a first difference** stands. -/
theorem exists_difference {l₁ l₂ : List String} (le : l₁.length ≤ l₂.length)
    (other : ¬ l₁ <+: l₂) :
    ∃ common x rest₁ y rest₂, l₁ = common ++ x :: rest₁ ∧ l₂ = common ++ y :: rest₂ ∧ x ≠ y := by
  induction l₁ generalizing l₂ with
  | nil => exact absurd List.nil_prefix other
  | cons x rest₁ ih =>
    cases l₂ with
    | nil => simp at le
    | cons y rest₂ =>
      by_cases same : x = y
      · subst same
        have further : ¬ rest₁ <+: rest₂ := by
          rwa [List.prefix_cons_inj] at other
        obtain ⟨common, x', rest₁', y', rest₂', rfl, rfl, ne⟩ :=
          ih (by simpa using le) further
        exact ⟨x :: common, x', rest₁', y', rest₂', rfl, rfl, ne⟩
      · exact ⟨[], x, rest₁, y, rest₂, rfl, rfl, same⟩

/-- An event that **an attempt of some names does not wait for** leaves at most one name of it. -/
theorem index_observe_of_other {m : Matcher} (name : String) (time : Timestamp)
    (nonempty : m.sequence ≠ []) (other : m.sequence[m.index]? ≠ some name) :
    (m.observe name time).1.isMatch = false ∧ (m.observe name time).2.index ≤ 1 := by
  by_cases head : m.sequence.head? = some name
  · rw [observe_of_first other head]
    exact ⟨rfl, le_rfl⟩
  · rw [observe_of_other nonempty other head]
    exact ⟨rfl, Nat.zero_le 1⟩

/-- A stream **without any match** uses up nothing and completes nothing. -/
theorem quiet_stream {seen : List (String × Timestamp)}
    (quiet : ∀ outcome ∈ outcomes sequence withinMs seen, outcome.isMatch = false) :
    (∀ p, ¬ Used sequence withinMs seen.dropLast p)
      ∧ lastOutcome sequence withinMs seen ≠ some .completed := by
  constructor
  · rintro p ⟨i, outcome, found, matched, -⟩
    obtain ⟨last, whole⟩ := List.dropLast_prefix seen
    have kept := outcomes_append sequence withinMs seen.dropLast last
    rw [whole] at kept
    rw [quiet outcome (kept.subset (List.mem_of_getElem? found))] at matched
    cases matched
  · intro completed
    have := quiet _ (List.mem_of_getLast? completed)
    cases this

/-- Events that all belong to the present attempt **have ended no match**. -/
theorem quiet_attempt {attempt : List (String × Timestamp)}
    (under : Attempt sequence withinMs [] attempt) :
    ∀ outcome ∈ outcomes sequence withinMs attempt, outcome.isMatch = false := by
  intro outcome found
  obtain ⟨i, inside, rfl⟩ := List.mem_iff_getElem.mp found
  by_contra matched
  have := under.short
  refine under.free i (Nat.zero_le i) ⟨i, _, List.getElem?_eq_getElem inside,
    eq_true_of_ne_false matched, le_rfl, by omega⟩

/-- Events with these names, **all at one moment**. -/
def atOnce (names : List String) : List (String × Timestamp) :=
  names.map fun name => (name, .first)

/-- Events at one moment have **the names they were made with**. -/
@[simp] theorem map_fst_atOnce (names : List String) : (atOnce names).map Prod.fst = names := by
  rw [atOnce, List.map_map]
  exact List.map_id names

/-- There are **as many events as names**. -/
@[simp] theorem length_atOnce (names : List String) : (atOnce names).length = names.length :=
  List.length_map _

/-- Events for names, **one list after another**. -/
theorem atOnce_append (names more : List String) :
    atOnce (names ++ more) = atOnce names ++ atOnce more :=
  List.map_append

/-- **One name more** is one event more. -/
theorem atOnce_cons (name : String) (more : List String) :
    atOnce (name :: more) = (name, .first) :: atOnce more :=
  rfl

/-- Events of one moment take no time. -/
@[simp] theorem span_atOnce (names : List String) : span (atOnce names) = 0 := by
  cases names with
  | nil => rfl
  | cons name rest =>
    have last : (atOnce (name :: rest)).getLast?
        = some ((name :: rest).getLast (by simp), .first) := by
      rw [atOnce, List.getLast?_map, List.getLast?_eq_some_getLast (by simp)]
      rfl
    rw [span, last]
    exact Timestamp.since_self _

/-- The first names of the sequence, but not all of them, **make up an attempt** of a fresh matcher. -/
theorem attempt_atOnce {names : List String} (begun : names ≠ []) (part : names <+: sequence)
    (short : names.length < sequence.length) :
    Attempt sequence withinMs [] (atOnce names) := by
  cases names with
  | nil => exact absurd rfl begun
  | cons name rest =>
    obtain ⟨more, rfl⟩ := part
    have spelled := map_fst_atOnce (name :: rest)
    exact Begins.continues ⟨rfl, .inl rfl⟩ ⟨more, congrArg (· ++ more) spelled⟩
      (by simpa using short)

/-- Names that **break off an attempt after two names or more** and then go on for no longer than the
sequence would have ended no match by their end. -/
theorem quiet_of_broken {start rest : List String} {x y : String} (begun : start ≠ [])
    (part : start ++ [x] <+: sequence) (ne : x ≠ y) (short : rest.length + 1 < sequence.length) :
    ∀ outcome ∈ outcomes sequence withinMs (atOnce (start ++ y :: rest)),
      outcome.isMatch = false := by
  have fits : start.length + 1 ≤ sequence.length := by simpa using part.length_le
  have under : Attempt sequence withinMs [] (atOnce start) :=
    attempt_atOnce begun ((List.prefix_append _ _).trans part) (by omega)
  set m := after sequence withinMs (atOnce start) with m_def
  have pattern : m.sequence = sequence := sequence_after
  have index : m.index = start.length := by simpa using under.index
  have awaited : m.sequence[m.index]? = some x := by
    obtain ⟨more, eq⟩ := part
    rw [pattern, index, ← eq]
    simp
  obtain ⟨still, low⟩ := index_observe_of_other y .first
    (by rintro empty; rw [empty] at awaited; cases awaited) (by rw [awaited]; simpa using ne)
  -- too few names are left for another match
  have quiet : ∀ outcome ∈ ((m.observe y .first).2.run (atOnce rest)).1,
      outcome.isMatch = false := by
    apply not_isMatch_of_short
    rw [sequence_observe, pattern, length_atOnce]
    omega
  intro outcome found
  rw [atOnce_append, atOnce_cons, outcomes, run_append, run_cons] at found
  rcases List.mem_append.mp found with old | new
  · exact quiet_attempt under outcome old
  · rcases List.mem_cons.mp new with rfl | later
    · exact still
    · exact quiet outcome later

/-- Where the first name recurs and the sequence **does not start over as itself**, some stream makes
the pattern miss an occurrence: the names up to the recurrence, and then the sequence. The attempt
that the first event began goes on with it and breaks at the first difference. -/
theorem exists_missed (withinMs : UInt64) {p : Nat}
    (recurs : sequence[p]? = sequence.head?) (other : ¬ sequence.drop p <+: sequence) :
    ∃ before occurrence, Due sequence withinMs before occurrence
      ∧ lastOutcome sequence withinMs (before ++ occurrence) ≠ some .completed := by
  obtain ⟨common, x, rest₁, y, rest₂, dropped, whole, ne⟩ :=
    exists_difference (by simp) other
  -- the recurring name itself is no difference
  have agree : common ≠ [] := by
    rintro rfl
    have : sequence[p]? = some x := by
      rw [← List.head?_drop, dropped]
      rfl
    rw [this, whole] at recurs
    exact ne (Option.some.inj recurs)
  have split : sequence.take p ++ sequence = sequence.take p ++ common ++ y :: rest₂ := by
    rw [List.append_assoc, ← whole]
  have part : sequence.take p ++ common ++ [x] <+: sequence :=
    ⟨rest₁, by rw [List.append_assoc, List.append_assoc, List.singleton_append, ← dropped,
      List.take_append_drop]⟩
  have short : rest₂.length + 1 < sequence.length := by
    have := List.length_pos_of_ne_nil agree
    rw [whole, List.length_append, List.length_cons]
    omega
  have quiet : ∀ outcome ∈ outcomes sequence withinMs
      (atOnce (sequence.take p) ++ atOnce sequence), outcome.isMatch = false := by
    rw [← atOnce_append, split]
    exact quiet_of_broken (by simp [agree]) part ne short
  obtain ⟨free, missed⟩ := quiet_stream quiet
  refine ⟨atOnce (sequence.take p), atOnce sequence,
    ⟨map_fst_atOnce _, ?_, fun p _ => free p⟩, missed⟩
  rw [span_atOnce]
  exact Int.natCast_nonneg _

/-- **Which occurrences are missed.** Events that are due complete the pattern just if the matcher
took the first of them as the beginning of an attempt and not as a later part of one. All events that
are due complete it, in every stream, just if the sequence starts over as itself wherever its first
name recurs. -/
theorem due_completes_iff (sequence : List String) (withinMs : UInt64)
    (nonempty : sequence ≠ []) :
    (∀ before first later, Due sequence withinMs before (first :: later) →
      (lastOutcome sequence withinMs (before ++ first :: later) = some .completed
        ↔ (after sequence withinMs before).Begins first.1))
    ∧ ((∀ before occurrence, Due sequence withinMs before occurrence →
          lastOutcome sequence withinMs (before ++ occurrence) = some .completed)
        ↔ ∀ p, 0 < p → sequence[p]? = sequence.head? → sequence.drop p <+: sequence) := by
  refine ⟨fun before first later => completed_iff_begins, ?missed, ?none⟩
  case missed =>
    intro all p _ recurs
    by_contra other
    obtain ⟨before, occurrence, due, missed⟩ := exists_missed withinMs recurs other
    exact missed (all before occurrence due)
  case none =>
    intro periods before occurrence due
    cases occurrence with
    | nil => exact absurd due.names.symm nonempty
    | cons first later => exact (completed_iff_begins due).mpr (begins_of_periods periods due)

/-- A pattern of the same name three times misses nothing: wherever its first name recurs, it starts
over as itself. -/
theorem due_completes_iff_thrice :
    ["tap", "tap", "tap"] ≠ []
    ∧ ∀ before occurrence, Due ["tap", "tap", "tap"] 500 before occurrence →
        lastOutcome ["tap", "tap", "tap"] 500 (before ++ occurrence) = some .completed := by
  refine ⟨by simp, (due_completes_iff ["tap", "tap", "tap"] 500 (by simp)).2.mpr ?_⟩
  intro p pos recurs
  match p with
  | 1 => exact ⟨["tap"], rfl⟩
  | 2 => exact ⟨["tap", "tap"], rfl⟩
  | p + 3 => simp at recurs

/-- Up, up, down **is missed after one more up**: the first two ups belong to an attempt that the third
one breaks, and the matcher goes on from the third one alone. -/
theorem up_up_down_is_missed :
    Due ["up", "up", "down"] 500 [("up", .ofMillis 0)]
      [("up", .ofMillis 10), ("up", .ofMillis 20), ("down", .ofMillis 30)]
    ∧ lastOutcome ["up", "up", "down"] 500 ([("up", .ofMillis 0)]
        ++ [("up", .ofMillis 10), ("up", .ofMillis 20), ("down", .ofMillis 30)])
      = some .reset := by
  have outcomes_eq : outcomes ["up", "up", "down"] 500 [("up", .ofMillis 0), ("up", .ofMillis 10),
      ("up", .ofMillis 20), ("down", .ofMillis 30)]
        = [.advanced, .advanced, .restarted, .reset] := by decide
  have quiet : ∀ outcome ∈ outcomes ["up", "up", "down"] 500 ([("up", .ofMillis 0)]
      ++ [("up", .ofMillis 10), ("up", .ofMillis 20), ("down", .ofMillis 30)]),
      outcome.isMatch = false := by
    rw [List.singleton_append, outcomes_eq]
    decide
  refine ⟨⟨rfl, by decide, fun p _ => (quiet_stream quiet).1 p⟩, ?_⟩
  rw [lastOutcome, List.singleton_append, outcomes_eq]
  rfl

end

end RuleDispatch
