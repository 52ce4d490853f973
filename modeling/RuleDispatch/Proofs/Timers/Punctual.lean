import RuleDispatch.Proofs.Runs.Timetable
import RuleDispatch.Proofs.Timers.Wakeful

/-! # Timers keep to their schedule

Once it is known when those who wait wake up, the ticks of a timer that is left alone are known as well:
each comes when the one who waits for its deadline wakes up, and sets the next deadline. What else there is
in the world does not matter for them. While the clock is only advanced, sleepers wake up in time, and the
ticks come one interval after another.

* `Timer.ticksBy`, `Timer.ticksUntil` — the schedule of a timer, as long as it is left alone.
* `Timer.ticksBy_of_exact`, `Timer.ticksUntil_of_exact` — the schedule when everybody wakes up in time.
* `World.OnSchedule` — a timer ticks on schedule until it is cancelled.
* `World.Wakeful.onSchedule` — so does every timer in every orderly history. -/

namespace RuleDispatch

/-! ## 1. The schedule of a timer -/

namespace Timer

/-- The **next so many ticks** of a timer that is left alone; `wake` says when somebody who waits for a
moment wakes up. -/
def ticksBy (wake : Nat → Nat) : Nat → Timer → List Nat
  | 0, _ => []
  | n + 1, t => wake t.deadline :: ticksBy wake n (t.ticked (wake t.deadline))

/-- The timer **after so many ticks**. -/
def tickedBy (wake : Nat → Nat) : Nat → Timer → Timer
  | 0, t => t
  | n + 1, t => tickedBy wake n (t.ticked (wake t.deadline))

/-- The ticks of a timer that is left alone **up to some moment**. Each is due an interval after the one
before, so there are no more of them than instants. -/
def ticksUntil (wake : Nat → Nat) (time : Nat) (t : Timer) : List Nat :=
  (t.ticksBy wake (time + 1)).filter (· ≤ time)

variable {wake wake' : Nat → Nat} {t : Timer}

/-- Whether a timer is active does not matter for its schedule. -/
theorem ticksBy_stopped (wake : Nat → Nat) (n : Nat) (t : Timer) :
    t.stopped.ticksBy wake n = t.ticksBy wake n := by
  induction n generalizing t with
  | zero => rfl
  | succ n ih => exact congrArg (wake t.deadline :: ·) (ih (t.ticked (wake t.deadline)))

/-- A cancelled timer **would tick** when it would have ticked otherwise. -/
theorem tickedBy_stopped (wake : Nat → Nat) (n : Nat) (t : Timer) :
    t.stopped.tickedBy wake n = (t.tickedBy wake n).stopped := by
  induction n generalizing t with
  | zero => rfl
  | succ n ih => exact ih (t.ticked (wake t.deadline))

/-- A timer that is cancelled later on **had the same schedule**. -/
theorem Later.ticksBy {t' : Timer} (later : t.Later t') (wake : Nat → Nat) (n : Nat) :
    t'.ticksBy wake n = t.ticksBy wake n := by
  rcases later with rfl | rfl
  · rfl
  · exact ticksBy_stopped wake n t

/-- A timer that is there later would tick **at the same times**. -/
theorem Later.tickedBy {t' : Timer} (later : t.Later t') (wake : Nat → Nat) (n : Nat) :
    (t.tickedBy wake n).Later (t'.tickedBy wake n) := by
  rcases later with rfl | rfl
  · exact .inl rfl
  · exact .inr (tickedBy_stopped wake n t)

/-- The schedule hangs only on when those wake up **who wait for its deadline or a later moment**. -/
theorem ticksBy_congr (same : ∀ d, t.deadline ≤ d → wake d = wake' d) (n : Nat) :
    t.ticksBy wake n = t.ticksBy wake' n ∧ t.tickedBy wake n = t.tickedBy wake' n := by
  induction n generalizing t with
  | zero => exact ⟨rfl, rfl⟩
  | succ n ih =>
    -- the timer is never due earlier again, so its next ticks hang on later moments only
    obtain ⟨ticks, timer⟩ := ih fun d later => same d (Nat.le_trans (t.deadline_le_ticked _) later)
    rw [Timer.ticksBy, Timer.ticksBy, Timer.tickedBy, Timer.tickedBy, ticks, timer,
      same t.deadline (Nat.le_refl _)]
    exact ⟨rfl, rfl⟩

/-- The ticks to come after so many are those of the timer **after that**. -/
theorem ticksBy_add (wake : Nat → Nat) (n m : Nat) (t : Timer) :
    t.ticksBy wake (n + m) = t.ticksBy wake n ++ (t.tickedBy wake n).ticksBy wake m := by
  induction n generalizing t with
  | zero => rw [Nat.zero_add]; rfl
  | succ n ih =>
    rw [Nat.add_right_comm]
    exact congrArg (wake t.deadline :: ·) (ih _)

/-- Every tick puts the timer off by an interval at least. -/
theorem le_deadline_tickedBy (wake : Nat → Nat) (n : Nat) (t : Timer) :
    t.deadline + n * t.interval ≤ (t.tickedBy wake n).deadline := by
  induction n generalizing t with
  | zero => simp [tickedBy]
  | succ n ih =>
    have put_off : t.deadline + t.interval ≤ (t.ticked (wake t.deadline)).deadline :=
      t.le_nextDeadline _
    have rest : (t.ticked (wake t.deadline)).deadline + n * t.interval
        ≤ (t.tickedBy wake (n + 1)).deadline := ih _
    rw [Nat.add_one_mul]
    omega

/-- No tick comes **before the timer is due**. -/
theorem deadline_le_of_mem_ticksBy (late : ∀ d, d ≤ wake d) {n time : Nat}
    (member : time ∈ t.ticksBy wake n) : t.deadline ≤ time := by
  induction n generalizing t with
  | zero => cases member
  | succ n ih =>
    rcases List.mem_cons.mp member with rfl | later
    · exact late _
    · have put_off : t.deadline + t.interval ≤ (t.ticked (wake t.deadline)).deadline :=
        t.le_nextDeadline _
      have := ih later
      omega

/-- Up to some moment there are **no more ticks than instants**. -/
theorem le_of_ticksBy_le (late : ∀ d, d ≤ wake d) (spaced : 0 < t.interval) {n time : Nat}
    (past : ∀ tick ∈ t.ticksBy wake n, tick ≤ time) : n ≤ time + 1 := by
  cases n with
  | zero => exact Nat.zero_le _
  | succ n =>
    -- the last of the ticks comes `n` intervals after the first one was due, or later
    have last : wake (t.tickedBy wake n).deadline ∈ t.ticksBy wake (n + 1) := by
      rw [ticksBy_add]
      exact List.mem_append_right _ List.mem_cons_self
    have put_off := le_deadline_tickedBy wake n t
    have intervals : n ≤ n * t.interval := Nat.le_mul_of_pos_right n spaced
    have := late (t.tickedBy wake n).deadline
    have := past _ last
    omega

/-- Ticks that have come, while the next one has not, are **all up to now**. -/
theorem ticksBy_eq_ticksUntil (late : ∀ d, d ≤ wake d) (spaced : 0 < t.interval) {n time : Nat}
    (past : ∀ tick ∈ t.ticksBy wake n, tick ≤ time) (next : time < (t.tickedBy wake n).deadline) :
    t.ticksBy wake n = t.ticksUntil wake time := by
  obtain ⟨more, enough⟩ := Nat.exists_eq_add_of_le (le_of_ticksBy_le late spaced past)
  have future : ∀ tick ∈ (t.tickedBy wake n).ticksBy wake more, ¬ tick ≤ time := fun tick member =>
    Nat.not_le.mpr (Nat.lt_of_lt_of_le next (deadline_le_of_mem_ticksBy late member))
  rw [ticksUntil, enough, ticksBy_add, List.filter_append,
    List.filter_eq_self.mpr fun tick member => decide_eq_true (past tick member),
    List.filter_eq_nil_iff.mpr fun tick member => by simpa using future tick member, List.append_nil]

/-! ## 2. The schedule of a timer that is never late -/

/-- A timer that ticks **when it is due** is due again an interval after that. -/
theorem nextDeadline_deadline (t : Timer) : t.nextDeadline t.deadline = t.deadline + t.interval := by
  rw [nextDeadline, if_neg (by omega)]

/-- Ticks that come in time come **one interval after another**. -/
theorem ticksBy_of_exact (exact : ∀ d, t.deadline ≤ d → wake d = d) (n : Nat) :
    t.ticksBy wake n = (List.range n).map (fun k => t.deadline + k * t.interval)
      ∧ (t.tickedBy wake n).deadline = t.deadline + n * t.interval := by
  induction n generalizing t with
  | zero => exact ⟨rfl, by simp [tickedBy]⟩
  | succ n ih =>
    have first : wake t.deadline = t.deadline := exact _ (Nat.le_refl _)
    have next : (t.ticked t.deadline).deadline = t.deadline + t.interval := t.nextDeadline_deadline
    have interval : (t.ticked t.deadline).interval = t.interval := rfl
    obtain ⟨ticks, timer⟩ := ih (t := t.ticked t.deadline) fun d later => exact d (by omega)
    rw [next, interval] at ticks timer
    refine ⟨?_, ?_⟩
    · rw [ticksBy, first, ticks, List.range_succ_eq_map, List.map_cons, List.map_map, Nat.zero_mul,
        Nat.add_zero]
      refine congrArg (t.deadline :: ·) (List.map_congr_left fun k _ => ?_)
      rw [Function.comp_apply, Nat.succ_mul]
      omega
    · rw [tickedBy, first, timer, Nat.succ_mul]
      omega

/-- Up to some moment that is not before the timer was started, **as many ticks come in time as intervals
fit in**. -/
theorem ticksUntil_of_exact (late : ∀ d, d ≤ wake d) (exact : ∀ d, t.deadline ≤ d → wake d = d)
    (spaced : 0 < t.interval) {start time : Nat} (due : t.deadline = start + t.interval) :
    t.ticksUntil wake time
      = (List.range ((time - start) / t.interval)).map fun k => start + (k + 1) * t.interval := by
  generalize count : (time - start) / t.interval = n
  -- the first `n` ticks are past, the next one is not
  obtain ⟨ticks, timer⟩ := ticksBy_of_exact exact n
  have whole : n * t.interval ≤ time - start := count ▸ Nat.div_mul_le_self _ _
  have part : time - start < (n + 1) * t.interval := by
    rw [← count, ← Nat.div_lt_iff_lt_mul spaced]
    exact Nat.lt_succ_self _
  have moments : ∀ k, t.deadline + k * t.interval = start + (k + 1) * t.interval := by
    intro k
    rw [due, Nat.succ_mul]
    omega
  rw [← ticksBy_eq_ticksUntil late spaced (n := n) ?_ ?_, ticks]
  · simp only [moments]
  · -- so many intervals have passed
    intro tick member
    rw [ticks] at member
    obtain ⟨k, less, rfl⟩ := List.mem_map.mp member
    rw [moments]
    have : (k + 1) * t.interval ≤ n * t.interval :=
      Nat.mul_le_mul_right _ (List.mem_range.mp less)
    have : 0 < (k + 1) * t.interval := Nat.mul_pos (Nat.succ_pos k) spaced
    omega
  · -- and not one more
    rw [timer, moments]
    omega

end Timer

/-! ## 3. Timers of a world -/

namespace World

variable {exec : Executor} {w : World}

/-- **A timer that is not active** never ticks, and stays as it is. -/
theorem ticksOf_of_inactive (exec : Executor) {index : Nat} {t : Timer}
    (there : w.timers[index]? = some t) (inactive : t.active = false) (moves : List Move) :
    w.ticksOf exec moves index = [] ∧ (w.after exec moves).timers[index]? = some t := by
  induction moves generalizing w with
  | nil => exact ⟨rfl, there⟩
  | cons m moves ih =>
    cases m with
    | receive s => exact ih (timer_receive there s)
    | step =>
      have quiet : w.ticking? ≠ some index := by
        intro ticking
        obtain ⟨held, there', active, -⟩ := due_of_ticking? ticking
        obtain rfl := Option.some.inj (there.symm.trans there')
        rw [inactive] at active
        cases active
      obtain ⟨t', there', later⟩ := timer_step exec there
      rw [if_neg quiet] at later
      have same : t' = t := by
        rcases later with rfl | rfl
        · rfl
        · rw [Timer.stopped, ← inactive]
      rw [ticksOf_step_of_ne quiet]
      exact ih (same ▸ there')

/-- **All ticks of a timer** in an orderly history are the first ones of its schedule, and the timer is as
it is after those, or cancelled. -/
theorem Wakeful.exists_ticksBy (h : Wakeful w) (poised : Poised w) (sound : Sound w)
    {moves : List Move} (orderly : Orderly exec w moves) {index : Nat} {t : Timer}
    (there : w.timers[index]? = some t) :
    ∃ n t', w.ticksOf exec moves index = t.ticksBy (w.wakes moves) n
      ∧ (w.after exec moves).timers[index]? = some t'
      ∧ (t.tickedBy (w.wakes moves) n).Later t' := by
  induction moves generalizing w t with
  | nil => exact ⟨0, t, rfl, there, .inl rfl⟩
  | cons m moves ih =>
    obtain ⟨poised', orderly'⟩ := poised.move sound exec orderly
    have sound' := sound.of_moved (sound.move exec m)
    cases m with
    | receive s =>
      rw [← wakes_receive orderly.1 s moves]
      exact ih (h.receive s) poised' sound' orderly' (timer_receive there s)
    | step =>
      cases active : t.active with
      | false =>
        -- it was cancelled before, so it made all its ticks
        obtain ⟨none, same⟩ := ticksOf_of_inactive exec there active (.step :: moves)
        exact ⟨0, t, none, same, .inl rfl⟩
      | true =>
        -- seen from the next world on, sleepers wake up when they did seen from here
        have woken (d : Nat) := h.wakes_step poised sound exec there active moves (d := d)
        obtain ⟨next, there', later⟩ := timer_step exec there
        obtain ⟨n, t', ticks, found, after⟩ :=
          ih (h.step poised sound exec) poised' sound' orderly' there'
        rw [later.ticksBy] at ticks
        replace after := (later.tickedBy _ n).trans after
        by_cases ticking : w.ticking? = some index
        · -- it ticks now, at the moment when it wakes up
          rw [if_pos ticking] at ticks after
          obtain ⟨held, there'', -, due⟩ := due_of_ticking? ticking
          obtain rfl := Option.some.inj (there.symm.trans there'')
          have now : w.wakes (.step :: moves) t.deadline = w.now := w.wakes_of_le _ due
          obtain ⟨sameTicks, sameTimer⟩ := Timer.ticksBy_congr
            (fun d beyond => woken d (Nat.le_trans (t.deadline_le_ticked w.now) beyond)) n
          refine ⟨n + 1, t', ?_, found, ?_⟩
          · rw [ticksOf_step_of_ticking? ticking, ticks, sameTicks, Timer.ticksBy, now]
          · rwa [Timer.tickedBy, now, ← sameTimer]
        · rw [if_neg ticking] at ticks after
          obtain ⟨sameTicks, sameTimer⟩ := Timer.ticksBy_congr woken n
          refine ⟨n, t', ?_, found, sameTimer ▸ after⟩
          rw [ticksOf_step_of_ne ticking, ticks, sameTicks]

/-- What ticked did so **by now**. -/
theorem Poised.le_now_of_mem_ticksOf (h : Poised w) (sound : Sound w) {moves : List Move}
    (orderly : Orderly exec w moves) (index : Nat) :
    w.now ≤ (w.after exec moves).now
      ∧ ∀ tick ∈ w.ticksOf exec moves index, tick ≤ (w.after exec moves).now := by
  induction moves generalizing w with
  | nil => exact ⟨Nat.le_refl _, nofun⟩
  | cons m moves ih =>
    obtain ⟨poised, later⟩ := h.move sound exec orderly
    obtain ⟨forward, ticked⟩ := ih poised (sound.of_moved (sound.move exec m)) later
    cases m with
    | receive s =>
      have same : (w.receive s).now = w.now := congrArg Lookouts.now (lookouts_receive w s)
      exact ⟨same ▸ forward, ticked⟩
    | step =>
      have all : w.now ≤ ((w.step exec).after exec moves).now :=
        Nat.le_trans (h.now_le_step sound exec) forward
      refine ⟨all, fun tick member => ?_⟩
      by_cases ticking : w.ticking? = some index
      · rw [ticksOf_step_of_ticking? ticking] at member
        rcases List.mem_cons.mp member with rfl | after
        · exact all
        · exact ticked tick after
      · rw [ticksOf_step_of_ne ticking] at member
        exact ticked tick member

/-- What it means that a timer **ticks on schedule** until it is cancelled. Neither the other timers nor
anything else but the moves of the clock has a part in the schedule. -/
structure OnSchedule (w : World) (exec : Executor) (moves : List Move) (index : Nat) (t : Timer) :
    Prop where
  /-- It ticked as its schedule begins. -/
  sofar : ∃ n, w.ticksOf exec moves index = t.ticksBy (w.wakes moves) n
  /-- When nothing is being done, no tick that has come is missing, unless it is cancelled. -/
  idle : (w.after exec moves).isIdle = true → ∀ t',
    (w.after exec moves).timers[index]? = some t' → t'.active = true →
      w.ticksOf exec moves index = t.ticksUntil (w.wakes moves) (w.after exec moves).now

/-- **Every timer** ticks on schedule in every orderly history. -/
theorem Wakeful.onSchedule (h : Wakeful w) (poised : Poised w) (sound : Sound w) {moves : List Move}
    (orderly : Orderly exec w moves) {index : Nat} {t : Timer}
    (there : w.timers[index]? = some t) (spaced : 0 < t.interval) :
    w.OnSchedule exec moves index t := by
  obtain ⟨n, t', ticks, there', later⟩ := h.exists_ticksBy poised sound orderly there
  refine ⟨⟨n, ticks⟩, fun idle held found active => ?_⟩
  obtain rfl := Option.some.inj (there'.symm.trans found)
  have next := (h.after poised sound orderly).lt_deadline_of_idle idle there' active
  have past := (poised.le_now_of_mem_ticksOf sound orderly index).2
  rw [ticks] at past ⊢
  rw [later.deadline] at next
  exact Timer.ticksBy_eq_ticksUntil (w.le_wakes moves) spaced past next

/-- While **the clock is only advanced**, a timer that was put in just now ticks one interval after
another, and when nothing is being done it ticked as often as intervals fit in. -/
theorem OnSchedule.of_advancing {moves : List Move} {index : Nat} {t : Timer}
    (h : w.OnSchedule exec moves index t) (spaced : 0 < t.interval) {start : Nat}
    (new : t.New start) (began : w.now = start) (advancing : ∀ ms, .jump ms ∉ w.clockMoves moves) :
    (∃ n, w.ticksOf exec moves index
        = (List.range n).map fun k => start + (k + 1) * t.interval)
      ∧ ((w.after exec moves).isIdle = true → ∀ t',
        (w.after exec moves).timers[index]? = some t' → t'.active = true →
          w.ticksOf exec moves index
            = (List.range (((w.after exec moves).now - start) / t.interval)).map
              fun k => start + (k + 1) * t.interval) := by
  have exact : ∀ d, t.deadline ≤ d → w.wakes moves d = d := fun d later =>
    wakes_of_advancing advancing (by rw [new.due] at later; omega)
  refine ⟨?_, fun idle t' found active => ?_⟩
  · obtain ⟨n, ticks⟩ := h.sofar
    refine ⟨n, ?_⟩
    rw [ticks, (Timer.ticksBy_of_exact exact n).1, new.due]
    refine List.map_congr_left fun k _ => ?_
    rw [Nat.succ_mul]
    omega
  · rw [h.idle idle t' found active]
    exact Timer.ticksUntil_of_exact (w.le_wakes moves) exact spaced new.due

end World

end RuleDispatch
