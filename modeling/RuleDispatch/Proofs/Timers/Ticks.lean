import RuleDispatch.Proofs.History
import RuleDispatch.Proofs.Lookouts

/-! # Ticks that come late

A timer ticks when it has its turn and is due, and is due again an interval after it was due. When it is
too late for that, it is due an interval after the tick instead. So ticks that were missed are made up for
only as far as the tolerance goes: one instant sees no more ticks of a timer than intervals begin within
the tolerance. Ticks of a timer whose interval is beyond the tolerance never come at one instant; those of
any other do when a jump is as long as that.

* `World.ticksOf` — the moments at which one timer ticks in a history.
* `Timer.Paces` — ticks that keep to a timer, and `World.paces_ticksOf`.
* `Timer.Paces.count_le`, `Timer.Paces.pairwise_lt` — how many come at one instant.
* `late_ticks_are_delayed` — every timer in every history.
* `short_timer_ticks_in_a_burst` — a timer that ticks several times at one instant. -/

namespace RuleDispatch

namespace World

variable {exec : Executor} {w : World}

/-- The moment at which the next step lets a timer **tick**, if it does. -/
def tick? (index : Nat) (w : World) : Option Nat :=
  if w.ticking? = some index then some w.now else none

/-- The moments at which one timer **ticks** in a history. -/
def ticksOf (exec : Executor) (w : World) (moves : List Move) (index : Nat) : List Nat :=
  shown exec (tick? index) w moves

/-- A step in which the timer ticks **is a tick now**. -/
theorem ticksOf_step_of_ticking? {index : Nat} (ticking : w.ticking? = some index)
    (moves : List Move) :
    w.ticksOf exec (.step :: moves) index = w.now :: (w.step exec).ticksOf exec moves index := by
  rw [ticksOf, shown, tick?, if_pos ticking]
  rfl

/-- Another step is **no tick** of it. -/
theorem ticksOf_step_of_ne {index : Nat} (quiet : w.ticking? ≠ some index) (moves : List Move) :
    w.ticksOf exec (.step :: moves) index = (w.step exec).ticksOf exec moves index := by
  rw [ticksOf, shown, tick?, if_neg quiet]
  rfl

/-- Something from outside leaves the timers alone. -/
theorem timers_receive (w : World) (s : Stimulus) : (w.receive s).timers = w.timers :=
  congrArg Lookouts.timers (lookouts_receive w s)

/-- What comes from outside leaves the timers **as they are**. -/
theorem timer_receive {index : Nat} {t : Timer} (there : w.timers[index]? = some t) (s : Stimulus) :
    (w.receive s).timers[index]? = some t := by
  rw [timers_receive, there]

end World

/-! ## 1. Keeping to a timer -/

namespace Timer

/-- Ticks that **keep to a timer**: each comes when the timer is due, which is due again then. -/
inductive Paces : Timer → List Nat → Prop where
  /-- It need not tick. -/
  | nil (t : Timer) : Paces t []
  /-- It ticks when it is due or later. -/
  | cons {t : Timer} {now : Nat} {ticks : List Nat} (due : t.deadline ≤ now)
      (later : Paces (t.ticked now) ticks) : Paces t (now :: ticks)

variable {t : Timer} {ticks : List Nat}

/-- A tick puts a timer off **by an interval at least**. -/
theorem le_nextDeadline (t : Timer) (now : Nat) :
    t.deadline + t.interval ≤ t.nextDeadline now := by
  unfold nextDeadline
  split_ifs <;> omega

/-- No tick **brings a deadline forward**. -/
theorem deadline_le_ticked (t : Timer) (now : Nat) : t.deadline ≤ (t.ticked now).deadline :=
  Nat.le_trans (Nat.le_add_right _ _) (t.le_nextDeadline now)

/-- After a tick the timer is due **an interval after it was due**, or after the tick when this came
too late. -/
theorem nextDeadline_cases (t : Timer) (now : Nat) :
    (t.deadline + tolerance < now ∧ t.nextDeadline now = now + t.interval)
      ∨ (now ≤ t.deadline + tolerance ∧ t.nextDeadline now = t.deadline + t.interval) := by
  unfold nextDeadline
  split_ifs with late
  · exact .inl ⟨late, rfl⟩
  · exact .inr ⟨Nat.le_of_not_lt late, rfl⟩

namespace Paces

/-- Ticks that keep to a timer once it is cancelled **keep to the timer**. -/
theorem of_stopped (h : t.stopped.Paces ticks) : t.Paces ticks := by
  induction ticks generalizing t with
  | nil => exact .nil t
  | cons now ticks ih =>
    cases h with
    | cons due later => exact .cons due (ih later)

/-- Ticks that keep to a timer as it is later on **keep to it now**. -/
theorem of_later {t' : Timer} (h : t'.Paces ticks) (later : t.Later t') : t.Paces ticks := by
  rcases later with rfl | rfl
  · exact h
  · exact h.of_stopped

/-- No tick comes **before the timer is due**. -/
theorem deadline_le (h : t.Paces ticks) : ∀ time ∈ ticks, t.deadline ≤ time := by
  induction h with
  | nil => nofun
  | @cons t now ticks due _ ih =>
    refine List.forall_mem_cons.mpr ⟨due, fun time member => ?_⟩
    have put_off : t.deadline + t.interval ≤ (t.ticked now).deadline := t.le_nextDeadline now
    have := ih time member
    omega

/-- Ticks of an interval **beyond the tolerance** come one after another. -/
theorem pairwise_lt (h : t.Paces ticks) (beyond : tolerance < t.interval) :
    ticks.Pairwise (· < ·) := by
  induction h with
  | nil => exact .nil
  | @cons t now ticks due later ih =>
    refine List.pairwise_cons.mpr ⟨fun time member => ?_, ih beyond⟩
    have put_off := later.deadline_le time member
    have next : (t.ticked now).deadline = t.nextDeadline now := rfl
    have cases := t.nextDeadline_cases now
    omega

/-- How many ticks can still come **at one instant**: none before the timer is due, and after that no
more than intervals begin until then, or within the tolerance if the tick comes too late. -/
def room (t : Timer) (time : Nat) : Nat :=
  if time < t.deadline then 0
  else min ((time - t.deadline) / t.interval) (tolerance / t.interval) + 1

/-- A tick at the instant **takes up room**. -/
theorem room_ticked_lt {time : Nat} (spaced : 0 < t.interval) (due : t.deadline ≤ time) :
    room (t.ticked time) time < room t time := by
  have interval : (t.ticked time).interval = t.interval := rfl
  have next : (t.ticked time).deadline = t.nextDeadline time := rfl
  unfold room
  rw [interval, next, if_neg (Nat.not_lt.mpr due)]
  split_ifs with later
  · exact Nat.succ_pos _
  · rcases t.nextDeadline_cases time with ⟨-, again⟩ | ⟨in_time, again⟩
    · omega
    · -- one interval less is left until the instant
      rw [again] at later ⊢
      have left : time - t.deadline = (time - (t.deadline + t.interval)) + t.interval := by omega
      have within : (time - t.deadline) / t.interval ≤ tolerance / t.interval :=
        Nat.div_le_div_right (by omega)
      rw [left, Nat.add_div_right _ spaced] at within ⊢
      omega

/-- A tick at another instant makes no room. -/
theorem room_ticked_le (t : Timer) (now time : Nat) :
    room (t.ticked now) time ≤ room t time := by
  have interval : (t.ticked now).interval = t.interval := rfl
  have next : (t.ticked now).deadline = t.nextDeadline now := rfl
  have put_off := t.le_nextDeadline now
  unfold room
  rw [interval, next]
  split_ifs with later earlier
  · exact Nat.le_refl 0
  · exact Nat.zero_le _
  · omega
  · have fewer : (time - t.nextDeadline now) / t.interval ≤ (time - t.deadline) / t.interval :=
      Nat.div_le_div_right (by omega)
    omega

/-- **One instant sees few ticks.** -/
theorem count_le_room (h : t.Paces ticks) (spaced : 0 < t.interval) (time : Nat) :
    ticks.count time ≤ room t time := by
  induction h with
  | nil => exact Nat.zero_le _
  | @cons t now ticks due _ ih =>
    have rest := ih spaced
    by_cases here : now = time
    · subst here
      have less := room_ticked_lt spaced due
      rw [List.count_cons_self]
      omega
    · rw [List.count_cons_of_ne (by simpa using here)]
      exact rest.trans (room_ticked_le t now time)

/-- At one time a timer ticks **as often as its tolerance allows**, at most. -/
theorem count_le (h : t.Paces ticks) (spaced : 0 < t.interval) (time : Nat) :
    ticks.count time ≤ tolerance / t.interval + 1 := by
  refine (h.count_le_room spaced time).trans ?_
  unfold room
  split_ifs
  · exact Nat.zero_le _
  · exact Nat.succ_le_succ (Nat.min_le_right _ _)

end Paces

end Timer

/-! ## 2. Ticks of a timer -/

namespace World

variable {exec : Executor} {w : World}

/-- **All ticks of a timer** keep to it, whatever happens. -/
theorem paces_ticksOf (exec : Executor) {index : Nat} {t : Timer} (there : w.timers[index]? = some t)
    (moves : List Move) : t.Paces (w.ticksOf exec moves index) := by
  induction moves generalizing w t with
  | nil => exact .nil t
  | cons m moves ih =>
    cases m with
    | receive s => exact ih (timer_receive there s)
    | step =>
      obtain ⟨t', there', later⟩ := timer_step exec there
      have rest := (ih there').of_later later
      by_cases ticking : w.ticking? = some index
      · rw [ticksOf_step_of_ticking? ticking]
        rw [if_pos ticking] at rest
        obtain ⟨held, there'', -, due⟩ := due_of_ticking? ticking
        obtain rfl := Option.some.inj (there.symm.trans there'')
        exact .cons due rest
      · rw [ticksOf_step_of_ne ticking]
        rwa [if_neg ticking] at rest

end World

open World

/-- A world with one timer. -/
def withTimer (interval : UInt64) : World :=
  (World.empty .first).after noEffects (Move.played (.operation (.timer "t" interval ⟨[], 0⟩)) 1)

/-- The ticks of this timer when a jump **passes its first tick** by as much as the tolerance. -/
def missedTicks (interval : Nat) : List Nat :=
  (withTimer (.ofNat interval)).ticksOf noEffects
    (Move.played (.jump (interval + Timer.tolerance)) 10) 0

/-- A jump past the first tick by as much as the tolerance finds the second one due as well, if the
interval is **within the tolerance**. -/
theorem missedTicks_not_increasing {interval : Nat} (spaced : 0 < interval)
    (within : interval ≤ Timer.tolerance) : ¬ (missedTicks interval).Pairwise (· < ·) := by
  have few : interval ≤ 5 := within
  interval_cases interval
  · rw [show missedTicks 1 = [6, 6, 6, 6, 6, 6] by cbv]
    decide
  · rw [show missedTicks 2 = [7, 7, 7] by cbv]
    decide
  · rw [show missedTicks 3 = [8, 8] by cbv]
    decide
  · rw [show missedTicks 4 = [9, 9] by cbv]
    decide
  · rw [show missedTicks 5 = [10, 10] by cbv]
    decide

/-- The one timer of this world, when it was not missed yet. -/
theorem timer_withTimer {interval : Nat} (spaced : 0 < interval) (within : interval ≤ 5) :
    (withTimer (.ofNat interval)).timers[0]?
      = some { interval, deadline := interval, target := .callback 0 } := by
  interval_cases interval <;> cbv

/-- **Late ticks are delayed** as far as they come later than the tolerance. Whatever happens, a timer
ticks when it is due, and is due again after an interval; so one instant sees at most one tick of it, and
one more for each interval that fits into the tolerance. The ticks of timers of some interval come at
strictly increasing instants in all histories just if the interval is longer than the tolerance. -/
theorem late_ticks_are_delayed (interval : Nat) (spaced : 0 < interval) :
    (∀ (exec : Executor) (w : World) (moves : List Move) (index : Nat) (t : Timer),
      w.timers[index]? = some t → t.interval = interval →
      t.Paces (w.ticksOf exec moves index)
        ∧ ∀ time, (w.ticksOf exec moves index).count time ≤ Timer.tolerance / interval + 1)
    ∧ ((∀ (exec : Executor) (wallClock : Timestamp) (past moves : List Move) (w : World),
      w = (World.empty wallClock).after exec past → ∀ (index : Nat) (t : Timer),
      w.timers[index]? = some t → t.interval = interval →
      (w.ticksOf exec moves index).Pairwise (· < ·)) ↔ Timer.tolerance < interval) := by
  refine ⟨?_, fun increasing => ?_, fun beyond => ?_⟩
  · rintro exec w moves index t there rfl
    have paces := paces_ticksOf exec there moves
    exact ⟨paces, paces.count_le spaced⟩
  · refine Nat.lt_of_not_le fun within => missedTicks_not_increasing spaced within ?_
    exact increasing noEffects .first _ _ _ rfl 0 _ (timer_withTimer spaced within) rfl
  · rintro exec wallClock past moves w - index t there rfl
    exact (paces_ticksOf exec there moves).pairwise_lt beyond

/-- A timer of a second that is missed for a long time ticks once when this is over, and then goes on. -/
theorem late_ticks_are_delayed_second :
    let moves := Move.played (.jump 3600000) 6 ++ Move.played (.advance 2500) 20
    ((withTimer 1000).ticksOf noEffects moves 0).Pairwise (· < ·)
      ∧ (withTimer 1000).ticksOf noEffects moves 0 = [3600000, 3601000, 3602000] :=
  ⟨(late_ticks_are_delayed 1000 (by decide)).2.mpr (by decide) noEffects .first _ _ _ rfl 0
    ⟨1000, 1000, .callback 0, true⟩ (by cbv) rfl, by cbv⟩

/-- **A timer may tick several times at one instant.** A timer of a millisecond that is missed by no more
than the tolerance makes up for all its ticks when the jump is over. -/
theorem short_timer_ticks_in_a_burst :
    ¬ ∀ (exec : Executor) (wallClock : Timestamp) (past moves : List Move) (index : Nat) (t : Timer),
      ((World.empty wallClock).after exec past).timers[index]? = some t → 0 < t.interval →
      (((World.empty wallClock).after exec past).ticksOf exec moves index).Pairwise (· < ·) := by
  intro increasing
  have ticks := increasing noEffects .first
    (Move.played (.operation (.timer "t" 1 ⟨[], 0⟩)) 1) (Move.played (.jump 6) 10) 0
    ⟨1, 1, .callback 0, true⟩ (by cbv) (by decide)
  rw [show ((World.empty .first).after noEffects
      (Move.played (.operation (.timer "t" 1 ⟨[], 0⟩)) 1)).ticksOf noEffects
        (Move.played (.jump 6) 10) 0 = [6, 6, 6, 6, 6, 6] by cbv] at ticks
  exact absurd ticks (by decide)

end RuleDispatch
