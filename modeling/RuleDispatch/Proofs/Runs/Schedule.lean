import RuleDispatch.Proofs.Runs.Turn
import RuleDispatch.Proofs.History

/-! # The timetable of a run

When a run makes its calls depends on little: on what it has still to do, on how its calls are
answered, and on how the clock moves. A clock that advances stops at every moment for which somebody
waits, so sleepers wake up in time; a clock that jumps wakes those whose moment it passed at the end
of the jump.

* `ClockMove`, `wakeAt` — moves of the clock, and when a sleeper wakes up.
* `Response` — what a service call means for the run that makes it.
* `schedule` — what actions come to, with its moments. -/

namespace RuleDispatch

/-! ## 1. The clock -/

/-- A **move of the clock**. -/
inductive ClockMove where
  | advance (ms : Nat)
  | jump (ms : Nat)
deriving DecidableEq, Repr

/-- The move of the clock that something from outside is. -/
def Stimulus.clock? : Stimulus → Option ClockMove
  | .operation _ => none
  | .advance ms => some (.advance ms)
  | .jump ms => some (.jump ms)

/-- The move of the clock that comes from outside. -/
def Move.clock? : Move → Option ClockMove
  | .step => none
  | .receive s => s.clock?

/-- What is left, at some moment, of a **move of the clock under way**. -/
def Frame.clock? (now : Nat) : Frame → Option ClockMove
  | .advanceTo time => some (.advance (time - now))
  | .leap ms => some (.jump ms)
  | _ => none

/-- When somebody who waits for `deadline` at the moment `now` **wakes up**, with these moves of the
clock to come. -/
def wakeAt (now : Nat) : List ClockMove → Nat → Nat
  | [], deadline => max now deadline
  | .advance ms :: rest, deadline =>
    if deadline ≤ now + ms then max now deadline else wakeAt (now + ms) rest deadline
  | .jump ms :: rest, deadline =>
    if deadline ≤ now then now
    else if deadline ≤ now + ms then now + ms
    else wakeAt (now + ms) rest deadline

/-- Nobody wakes up **too early**. -/
theorem le_wakeAt (now : Nat) (clock : List ClockMove) (deadline : Nat) :
    now ≤ wakeAt now clock deadline ∧ deadline ≤ wakeAt now clock deadline := by
  induction clock generalizing now with
  | nil => exact ⟨Nat.le_max_left _ _, Nat.le_max_right _ _⟩
  | cons move rest ih =>
    have later (ms : Nat) := ih (now + ms)
    cases move with
    | advance ms =>
      have := later ms
      unfold wakeAt
      split <;> omega
    | jump ms =>
      have := later ms
      unfold wakeAt
      split
      · omega
      · split <;> omega

/-- A moment that has come wakes up **at once**. -/
theorem wakeAt_of_le {now deadline : Nat} (h : deadline ≤ now) (clock : List ClockMove) :
    wakeAt now clock deadline = now := by
  cases clock with
  | nil => exact Nat.max_eq_left h
  | cons move rest =>
    cases move with
    | advance ms =>
      rw [wakeAt, if_pos (by omega)]
      exact Nat.max_eq_left h
    | jump ms => rw [wakeAt, if_pos h]

/-- Without jumps everybody wakes up **in time**. -/
theorem wakeAt_eq_max {clock : List ClockMove} (h : ∀ ms, .jump ms ∉ clock) (now deadline : Nat) :
    wakeAt now clock deadline = max now deadline := by
  induction clock generalizing now with
  | nil => rfl
  | cons move rest ih =>
    cases move with
    | jump ms => exact absurd List.mem_cons_self (h ms)
    | advance ms =>
      have later := ih (fun ms member => h ms (List.mem_cons_of_mem _ member)) (now + ms)
      unfold wakeAt
      split
      · rfl
      · rw [later]
        omega

/-- The clock may **stop on its way**: who waits for no earlier moment does not notice. -/
theorem wakeAt_advance_split {now stop time deadline : Nat} (rest : List ClockMove)
    (before : now ≤ stop) (after : stop ≤ time) (h : stop ≤ deadline) :
    wakeAt now (.advance (time - now) :: rest) deadline
      = wakeAt stop (.advance (time - stop) :: rest) deadline := by
  have whole : now + (time - now) = time := by omega
  have half : stop + (time - stop) = time := by omega
  rw [wakeAt, wakeAt, whole, half]
  split <;> omega

/-- The clock has advanced: who waits for no earlier moment does not notice. -/
theorem wakeAt_advance {now time deadline : Nat} (rest : List ClockMove) (before : now ≤ time)
    (h : time ≤ deadline) :
    wakeAt now (.advance (time - now) :: rest) deadline = wakeAt time rest deadline := by
  have whole : now + (time - now) = time := by omega
  rw [wakeAt, whole]
  split
  · next same =>
    obtain rfl := Nat.le_antisymm same h
    rw [wakeAt_of_le (Nat.le_refl _)]
    omega
  · rfl

/-- The clock has jumped: who waited for a later moment does not notice. -/
theorem wakeAt_jump {now ms deadline : Nat} (rest : List ClockMove) (h : now < deadline) :
    wakeAt now (.jump ms :: rest) deadline = wakeAt (now + ms) rest deadline := by
  rw [wakeAt, if_neg (Nat.not_le.mpr h)]
  split
  · next passed => rw [wakeAt_of_le passed]
  · rfl

/-! ## 2. Calls -/

/-- The pauses among the effects of a service call. -/
def pausesOf (effects : List Effect) : List Nat :=
  effects.filterMap fun
    | .pause ms => some ms
    | .act _ _ => none

/-- What a service call means **for the run that makes it**: the pauses it makes, and whether the run
is over with it. -/
structure Response where
  pauses : List Nat
  panics : Bool
deriving DecidableEq, Repr

/-- What a reply means for the run. -/
def Reply.response (r : Reply) : Response :=
  ⟨pausesOf r.effects, r.result = .panicked⟩

/-- When a **sleep** ends that begins at `time`. An empty one ends at once, and none is longer than
the longest sleep. -/
def sleepUntil (wake : Nat → Nat) (time ms : Nat) : Nat :=
  if ms = 0 then time else wake (time + min ms World.longestSleep)

/-- When sleeps end, one after another. -/
def sleepThrough (wake : Nat → Nat) (time : Nat) (sleeps : List Nat) : Nat :=
  sleeps.foldl (sleepUntil wake) time

/-- **What actions come to**, with its moments: `time` is when they begin, `made` how many calls the
run made before, and `answers` what its calls come to. -/
def schedule (wake : Nat → Nat) (answers : Nat → Response) :
    Nat → Nat → List Action → List (Nat × Deed)
  | time, _, [] => [(time, .finish)]
  | time, made, .serviceCall service data :: rest =>
    (time, .call service data) ::
      if (answers made).panics then [(sleepThrough wake time (answers made).pauses, .panic)]
      else schedule wake answers (sleepThrough wake time (answers made).pauses) (made + 1) rest
  | time, made, .wait ms :: rest =>
    schedule wake answers (sleepUntil wake time ms.toNat) made rest
  | time, _, .stop :: _ => [(time, .finish)]
  | time, made, .repeatCount _ _ :: rest => schedule wake answers time made rest
  | time, made, .unknown :: rest => schedule wake answers time made rest

/-- Every timetable **ends with something**. -/
theorem schedule_ne_nil (wake : Nat → Nat) (answers : Nat → Response) (time made : Nat)
    (actions : List Action) : schedule wake answers time made actions ≠ [] := by
  induction actions generalizing time made with
  | nil => rintro ⟨⟩
  | cons action rest ih =>
    cases action with
    | serviceCall service data => rintro ⟨⟩
    | wait ms => exact ih _ _
    | stop => rintro ⟨⟩
    | repeatCount => exact ih _ _
    | unknown => exact ih _ _

section

variable {wake wake' : Nat → Nat} {time : Nat}

/-- Nobody sleeps **back in time**. -/
theorem le_sleepUntil (late : ∀ d, d ≤ wake d) (ms : Nat) : time ≤ sleepUntil wake time ms := by
  have := late (time + min ms World.longestSleep)
  unfold sleepUntil
  split <;> omega

/-- Not even in **several sleeps**. -/
theorem le_sleepThrough (late : ∀ d, d ≤ wake d) (sleeps : List Nat) :
    time ≤ sleepThrough wake time sleeps := by
  induction sleeps generalizing time with
  | nil => exact Nat.le_refl _
  | cons ms rest ih => exact Nat.le_trans (le_sleepUntil late ms) ih

/-- Nothing is done **before its time**. -/
theorem le_of_mem_schedule (late : ∀ d, d ≤ wake d) (answers : Nat → Response) {made : Nat}
    {actions : List Action} {deed : Nat × Deed}
    (h : deed ∈ schedule wake answers time made actions) : time ≤ deed.1 := by
  induction actions generalizing time made with
  | nil => exact Nat.le_of_eq (List.mem_singleton.mp h ▸ rfl)
  | cons action rest ih =>
    cases action with
    | serviceCall service data =>
      rcases List.mem_cons.mp h with rfl | later
      · exact Nat.le_refl _
      · split at later
        · rw [List.mem_singleton.mp later]
          exact le_sleepThrough late _
        · exact Nat.le_trans (le_sleepThrough late _) (ih later)
    | wait ms => exact Nat.le_trans (le_sleepUntil late _) (ih h)
    | stop => exact Nat.le_of_eq (List.mem_singleton.mp h ▸ rfl)
    | repeatCount => exact ih h
    | unknown => exact ih h

/-- Sleeps depend on **later moments** only. -/
theorem sleepUntil_congr (same : ∀ d, time < d → wake d = wake' d) (ms : Nat) :
    sleepUntil wake time ms = sleepUntil wake' time ms := by
  unfold sleepUntil
  split
  · rfl
  · refine same _ ?_
    have : 0 < World.longestSleep := by decide
    omega

/-- Sleeps end at the same time **whenever all waking from now on does**. -/
theorem sleepThrough_congr (late : ∀ d, d ≤ wake d) (same : ∀ d, time < d → wake d = wake' d)
    (sleeps : List Nat) : sleepThrough wake time sleeps = sleepThrough wake' time sleeps := by
  induction sleeps generalizing time with
  | nil => rfl
  | cons ms rest ih =>
    have first := sleepUntil_congr same ms
    have longer : time ≤ sleepUntil wake time ms := le_sleepUntil late ms
    calc sleepThrough wake time (ms :: rest)
        = sleepThrough wake (sleepUntil wake time ms) rest := rfl
      _ = sleepThrough wake' (sleepUntil wake time ms) rest :=
        ih fun d later => same d (Nat.lt_of_le_of_lt longer later)
      _ = sleepThrough wake' time (ms :: rest) := by rw [first]; rfl

/-- So does the timetable. -/
theorem schedule_congr (late : ∀ d, d ≤ wake d) (same : ∀ d, time < d → wake d = wake' d)
    (answers : Nat → Response) (made : Nat) (actions : List Action) :
    schedule wake answers time made actions = schedule wake' answers time made actions := by
  induction actions generalizing time made with
  | nil => rfl
  | cons action rest ih =>
    cases action with
    | serviceCall service data =>
      have pauses := sleepThrough_congr late same (answers made).pauses
      have longer : time ≤ sleepThrough wake time (answers made).pauses := le_sleepThrough late _
      simp only [schedule]
      rw [← pauses, ih fun d later => same d (Nat.lt_of_le_of_lt longer later)]
    | wait ms =>
      have first := sleepUntil_congr same ms.toNat
      have longer : time ≤ sleepUntil wake time ms.toNat := le_sleepUntil late _
      simp only [schedule]
      rw [← first, ih fun d later => same d (Nat.lt_of_le_of_lt longer later)]
    | stop => rfl
    | repeatCount => exact ih same made
    | unknown => exact ih same made

end

end RuleDispatch
