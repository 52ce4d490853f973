import RuleDispatch.Proofs.Relevance.Histories

/-! # Events shifted in time

Patterns look at how far events are apart, and at nothing else of their moments. So when all events come
with other payloads, and with moments that are shifted by one and the same time, everything is the same for
the rules.

* `Timestamp.Shifted`, `Event.Shifted` — a moment shifted by some nanoseconds, an event shifted so.
* `inStep_shift` — what is shifted by the same time stays as far apart.
* `World.sameForRules_of_shifted` — histories in which all events are shifted. -/

namespace RuleDispatch

namespace Timestamp

/-- The **nanoseconds** since the beginning of 1970, a leap second going on from the second before it. -/
def total (t : Timestamp) : Int :=
  t.seconds * nanosPerSecond + t.nanos

/-- A moment **shifted** by some nanoseconds, into the future or into the past; none of the two lies in a
leap second. -/
def Shifted (d : Int) (t t' : Timestamp) : Prop :=
  t.inLeapSecond = false ∧ t'.inLeapSecond = false ∧ t'.total = t.total + d

/-- Outside a leap second there are **fewer nanoseconds than in a second**. -/
theorem nanos_lt_of_inLeapSecond {t : Timestamp} (plain : t.inLeapSecond = false) :
    t.nanos < nanosPerSecond :=
  Nat.lt_of_not_le (of_decide_eq_false plain)

/-- Outside leap seconds a moment is **given by its nanoseconds**. -/
theorem eq_of_total {t t' : Timestamp} (plain : t.inLeapSecond = false) (plain' : t'.inLeapSecond = false)
    (same : t.total = t'.total) : t = t' := by
  have below := nanos_lt_of_inLeapSecond plain
  have below' := nanos_lt_of_inLeapSecond plain'
  obtain ⟨seconds, nanos, _, _, _⟩ := t
  obtain ⟨seconds', nanos', _, _, _⟩ := t'
  simp only [total, nanosPerSecond] at same below below'
  obtain rfl : seconds = seconds' := by omega
  obtain rfl : nanos = nanos' := by omega
  rfl

/-- There is **one moment** from which another is shifted. -/
theorem Shifted.unique {d : Int} {t₁ t₂ t' : Timestamp} (h₁ : Shifted d t₁ t') (h₂ : Shifted d t₂ t') :
    t₁ = t₂ := by
  obtain ⟨plain₁, -, same₁⟩ := h₁
  obtain ⟨plain₂, -, same₂⟩ := h₂
  refine eq_of_total plain₁ plain₂ ?_
  omega

/-- Moments that are shifted by the same time are **as far apart** as before. -/
theorem Shifted.since {d : Int} {start start' stop stop' : Timestamp} (h : Shifted d start start')
    (k : Shifted d stop stop') : stop.since start = stop'.since start' := by
  obtain ⟨plain, plain', same⟩ := h
  obtain ⟨plain₂, plain₂', same₂⟩ := k
  rw [since_of_no_leap plain plain₂, since_of_no_leap plain' plain₂']
  simp only [total] at same same₂
  omega

end Timestamp

/-- An event that is another one **with any payload, shifted** by some nanoseconds. -/
def Event.Shifted (d : Int) (e e' : Event) : Prop :=
  e.name = e'.name ∧ e.timestamp.Shifted d e'.timestamp

/-! ## 1. Stamps -/

/-- A moment inside a leap second that stands for **none that is shifted**. -/
def leapMoment (nanos : Nat) (below : nanos < nanosPerSecond) : Timestamp where
  seconds := 0
  nanos := nanosPerSecond + nanos
  first_le := by decide
  le_last := by decide
  nanos_lt := by omega

/-- A moment in a leap second **is in one**. -/
theorem inLeapSecond_leapMoment (nanos : Nat) (below : nanos < nanosPerSecond) :
    (leapMoment nanos below).inLeapSecond = true :=
  decide_eq_true (Nat.le_add_right nanosPerSecond nanos)

/-- A moment as it is; leap seconds are not told apart. -/
def stampBefore (t : Timestamp) : Timestamp :=
  if t.inLeapSecond then leapMoment 0 (by decide) else t

open Classical in
/-- A moment **shifted back**. One that is not shifted from any is like no moment at all. -/
noncomputable def stampAfter (d : Int) (t' : Timestamp) : Timestamp :=
  if shifted : ∃ t : Timestamp, t.Shifted d t' then shifted.choose else leapMoment 1 (by decide)

/-- What is stamped alike is **shifted**, and nothing else. -/
theorem stampBefore_eq_stampAfter_iff {d : Int} {t t' : Timestamp} :
    stampBefore t = stampAfter d t' ↔ t.Shifted d t' := by
  unfold stampBefore stampAfter
  constructor
  -- the two leap moments differ, so a stamp that is shared is a moment outside leap seconds
  · intro same
    by_cases shifted : ∃ t : Timestamp, t.Shifted d t'
    · rw [dif_pos shifted] at same
      have chosen := shifted.choose_spec
      rw [← same] at chosen
      split_ifs at chosen with leap
      · exact absurd chosen.1 (by rw [inLeapSecond_leapMoment]; decide)
      · exact chosen
    · rw [dif_neg shifted] at same
      split_ifs at same with leap
      · exact absurd (congrArg Timestamp.nanos same) (by decide)
      · exact absurd (same ▸ inLeapSecond_leapMoment 1 (by decide)) leap
  · intro shifted
    have found : ∃ t : Timestamp, t.Shifted d t' := ⟨t, shifted⟩
    rw [dif_pos found, if_neg (by rw [shifted.1]; decide)]
    exact shifted.unique found.choose_spec

/-- Stamps before and after a shift are **in step**. -/
theorem inStep_shift (d : Int) : InStep stampBefore (stampAfter d) := by
  intro start start' stop stop' began stopped ms
  rw [withinWindow, withinWindow, Timestamp.Shifted.since (stampBefore_eq_stampAfter_iff.mp began)
    (stampBefore_eq_stampAfter_iff.mp stopped)]

/-! ## 2. Histories -/

/-- What happens next without the moments and payloads of emissions. -/
noncomputable def Move.plain : Move → Move
  | .step => .step
  | .receive s => .receive s.plain

/-- Moments and payloads are disregarded, and **nothing else**. -/
def Disregard.ofContents : Disregard where
  contents := true
  values _ := false

namespace World

/-- Histories in which **all events are shifted** by the same time, and come with any payloads, are the
same for the rules. -/
theorem sameForRules_of_shifted {exec exec' : Executor} (clock clock' : Timestamp)
    {moves moves' : List Move} (same : moves.map Move.plain = moves'.map Move.plain)
    (replies : ∀ calls service data,
      (exec calls service data).plain = (exec' calls service data).plain) {d : Int}
    (shifted : List.Forall₂ (Event.Shifted d) ((empty clock).emissions exec moves)
      ((empty clock').emissions exec' moves')) :
    SameForRules exec (empty clock) moves exec' (empty clock') moves' := by
  have akin : Akin .ofContents stampBefore (stampAfter d) (empty clock) (empty clock') := rfl
  have moves_same : moves.map Disregard.ofContents.move = moves'.map Disregard.ofContents.move := by
    have plain : Disregard.ofContents.move = Move.plain := by
      funext m
      cases m with
      | step => rfl
      | receive s => cases s <;> rfl
    rw [plain, same]
  have answers : Disregard.ofContents.SameReplies exec exec' := fun calls service data => by
    have plain : Disregard.ofContents.effect = Effect.plain := by
      funext effect
      cases effect <;> rfl
    rw [plain]
    exact Reply.mk.inj (replies calls service data)
  have stamped := shifted.imp fun e e' event => stampBefore_eq_stampAfter_iff.mpr event.2
  exact (akin.lockstep_of_emissions answers (inStep_shift d) (fun _ => rfl) moves_same stamped).sameForRules
    (inStep_shift d)

end World

end RuleDispatch
