import RuleDispatch.Proofs.Subscriptions.Account
import RuleDispatch.Proofs.Timers.Arrival
import RuleDispatch.Proofs.Timers.Punctual

/-! # Timers and their handles

Who started a timer holds a handle of it by a label. The timer ticks on schedule until the handle is
cancelled or dropped, and after that it never ticks again, wherever this happens: in the middle of what its
own target does, or when it is ready for its turn already. The other timers do not notice.

* `World.takesOff?` — the timer whose handle the next step cancels or drops.
* `World.Ceases`, `World.ceases_of_takesOff?` — what such a step does.
* `World.lasts_of_step`, `World.lasts_after` — a timer stays active until then.
* `World.KeepsTime` — a timer that keeps to its schedule from its beginning.
* `timers_tick_on_schedule` — every timer does. -/

namespace RuleDispatch

namespace World

variable {exec : Executor} {w : World}

/-! ## 1. Handles cancelled or dropped -/

/-- The timer whose handle the next step **cancels or drops**: it is the one that has the label. A new timer
under a label takes the place of the old one, whose handle is dropped. -/
def takesOff? (w : World) : Option Nat :=
  match w.stack with
  | .perform (.timerCancel label) :: _ => w.labels.timers.lookup label
  | .perform (.timerDrop label) :: _ => w.labels.timers.lookup label
  | .perform (.timer label _ _) :: _ => w.labels.timers.lookup label
  | _ => none

/-- What a step does that **stops a timer**: it never ticks again, and nothing else changes for any
timer. -/
structure Ceases (w : World) (exec : Executor) (index : Nat) (t : Timer) : Prop where
  /-- The timer is cancelled at once. -/
  stopped : (w.step exec).timers[index]? = some t.stopped
  /-- It does not tick again. -/
  silent : ∀ moves, (w.step exec).ticksOf exec moves index = []
  /-- Other timers are active still, and due when they were. -/
  others : ∀ (other : Nat) (held : Timer), other ≠ index → w.timers[other]? = some held →
    (w.step exec).timers[other]? = some held
  /-- No time passes, and who was ready for a turn or had one still does. -/
  still : (w.step exec).now = w.now ∧ (w.step exec).ready = w.ready
    ∧ (w.step exec).stack = w.stack.tail

/-- **Cancelling** stops one timer. -/
theorem timers_cancelTimer (w : World) (index : Nat) :
    (w.cancelTimer index).timers = w.timers.modify index Timer.stopped := by
  unfold cancelTimer
  split_ifs with active
  · rfl
  · -- one that is not active is stopped already
    refine List.ext_getElem? fun other => ?_
    rw [List.getElem?_modify]
    cases there : w.timers[other]? with
    | none => rfl
    | some t =>
      by_cases here : index = other
      · rw [timerActive, here, there] at active
        have inactive : t.active = false := eq_false_of_ne_true active
        simp [here, Timer.stopped, ← inactive]
      · simp [here]

/-- The timer that is **put in**. -/
theorem timers_addTimer (w : World) (interval : Nat) (target : Target) :
    (w.addTimer interval target).timers
      = w.timers ++ [⟨interval, w.now + interval, target, interval ≠ 0⟩] := by
  unfold addTimer
  split_ifs <;> rfl

/-- A timer put in **under a label**, the one that had it stopped. -/
theorem timers_timerAs (w : World) (label : String) (interval : Nat) (target : Target) :
    (w.timerAs label interval target).timers
      = (w.labels.timers.lookup label).elim id (fun old => (·.modify old Timer.stopped))
        (w.timers ++ [⟨interval, w.now + interval, target, interval ≠ 0⟩]) := by
  have timers := timers_addTimer w interval target
  unfold timerAs
  cases w.labels.timers.lookup label with
  | none => exact timers
  | some old => exact (timers_cancelTimer _ old).trans (congrArg (·.modify old Timer.stopped) timers)

/-- **Disposing of a watcher** leaves the timers. -/
theorem timers_disposeWatcher (w : World) (place : Nat) : (w.disposeWatcher place).timers = w.timers := by
  unfold disposeWatcher
  split <;> rfl

/-- What works on the world **from outside** leaves the timers alone whose handles it does not take. -/
theorem timers_step_of_outside (exec : Executor) (outside : w.worksOutside .step = true) {index : Nat}
    {t : Timer} (there : w.timers[index]? = some t) (other : w.takesOff? ≠ some index) :
    (w.step exec).timers[index]? = some t := by
  have cancelled (v : World) (same : v.timers = w.timers) (old : Nat)
      (others : some old ≠ some index) : (v.cancelTimer old).timers[index]? = some t := by
    rw [timers_cancelTimer, same, List.getElem?_modify_ne _ _ fun here => others (congrArg some here)]
    exact there
  unfold worksOutside at outside
  cases stack : w.stack with
  | nil =>
    rw [stack] at outside
    cases outside
  | cons frame rest =>
    rw [stack] at outside
    have taken : w.step exec = act { w with stack := rest } exec frame := by rw [step, stack]
    rw [taken]
    cases frame with
    | perform op =>
      simp only [act]
      cases op with
      | subscribe | listenNumber | listenText => exact there
      | subscribeAgain | unsubscribe | unlisten =>
        simp only [perform]
        split <;> exact there
      | watch label sequence withinMs script =>
        simp only [perform, watchAs]
        split
        · exact (congrArg (·[index]?) (timers_disposeWatcher _ _)).trans there
        · exact there
      | watchDispose label | watchDrop label =>
        simp only [perform]
        split
        · exact (congrArg (·[index]?) (timers_disposeWatcher _ _)).trans there
        · exact there
      | timer label ms script =>
        refine (congrArg (·[index]?) (timers_timerAs _ label ms.toNat _)).trans ?_
        rw [takesOff?, stack] at other
        have added : (w.timers ++ [⟨ms.toNat, w.now + ms.toNat, .callback w.callbacks.length,
            ms.toNat ≠ 0⟩])[index]? = some t := getElem?_concat_of_some there
        show ((w.labels.timers.lookup label).elim id _ _)[index]? = _
        cases label' : w.labels.timers.lookup label with
        | none => exact added
        | some old =>
          refine (List.getElem?_modify_ne _ _ fun here => other ?_).trans added
          exact label'.trans (congrArg some here)
      | timerCancel label | timerDrop label =>
        rw [takesOff?, stack] at other
        simp only [perform]
        split
        · next old label' =>
          refine cancelled _ ?_ old (label' ▸ other)
          rfl
        · exact there
      | emit | subscribers | setNumber | setText | get | listeners | watchState | timerActive | run
      | cancel | isCancelled | line | console | describe | register | load | unregister | trigger
      | ruleIds | isRunning | disposeAll | dropEngine => cases outside
    | respond | record | deliver | tellNumber | tellText | lines | execute | serve | resume | drain
    | advanceTo | leap => cases outside

/-- Taking a handle is **work from outside**. -/
theorem worksOutside_of_takesOff? {index : Nat} (taken : w.takesOff? = some index) :
    w.worksOutside .step = true := by
  unfold takesOff? at taken
  unfold worksOutside
  split at taken
  · next stack => rw [stack]; rfl
  · next stack => rw [stack]; rfl
  · next stack => rw [stack]; rfl
  · cases taken

/-- **Taking a handle** stops the timer, in whatever world. -/
theorem ceases_of_takesOff? (exec : Executor) {index : Nat} {t : Timer}
    (there : w.timers[index]? = some t) (taken : w.takesOff? = some index) : w.Ceases exec index t := by
  have others (other : Nat) (held : Timer) (ne : other ≠ index) (found : w.timers[other]? = some held) :
      (w.step exec).timers[other]? = some held :=
    timers_step_of_outside exec (worksOutside_of_takesOff? taken) found
      (by rw [taken]; exact fun same => ne (Option.some.inj same).symm)
  suffices done : (w.step exec).timers[index]? = some t.stopped
      ∧ (w.step exec).ledger = { w.ledger with stack := w.stack.tail } from
    { stopped := done.1
      silent := fun moves => (ticksOf_of_inactive exec done.1 rfl moves).1
      others
      still := ⟨congrArg Ledger.now done.2, congrArg Ledger.ready done.2, congrArg Ledger.stack done.2⟩ }
  -- each of the three operations stops what has the label
  have stopped {timers : List Timer} (found : timers[index]? = some t) :
      (timers.modify index Timer.stopped)[index]? = some t.stopped := by
    rw [List.getElem?_modify, found]
    simp
  unfold takesOff? at taken
  split at taken
  · next label rest stack =>
    rw [step, stack]
    simp only [act, perform, taken, List.tail_cons]
    refine ⟨?_, (ledger_cancelTimer _ index).trans rfl⟩
    exact (congrArg (·[index]?) (timers_cancelTimer { w with stack := rest } index)).trans (stopped there)
  · next label rest stack =>
    rw [step, stack]
    simp only [act, perform, taken, List.tail_cons]
    refine ⟨?_, (ledger_cancelTimer _ index).trans rfl⟩
    exact (congrArg (·[index]?) (timers_cancelTimer _ index)).trans (stopped there)
  · next label ms script rest stack =>
    rw [step, stack]
    simp only [act, perform, List.tail_cons]
    refine ⟨?_, (ledger_timerAs _ label ms.toNat _).trans rfl⟩
    refine (congrArg (·[index]?) (timers_timerAs _ label ms.toNat _)).trans ?_
    show ((w.labels.timers.lookup label).elim id _ _)[index]? = _
    rw [taken]
    exact stopped (getElem?_concat_of_some there)
  · cases taken

/-! ## 2. Timers that go on -/

/-- The active timers that call callbacks are **on the clock**, and not for any rule. -/
theorem mem_outsiders_clock {index interval callback : Nat} :
    (index, .timer interval (.callback callback)) ∈ w.outsiders .clock
      ↔ ∃ t, w.timers[index]? = some t ∧ t.active = true ∧ t.interval = interval
        ∧ t.target = .callback callback := by
  rw [outsiders, List.mem_filter, mem_clock_iff]
  exact and_iff_left rfl

/-- A timer that calls a callback **stays active** unless its handle is taken. -/
theorem lasts_of_step (accounts : Accounts w) (exec : Executor) {index callback : Nat} {t : Timer}
    (there : w.timers[index]? = some t) (target : t.target = .callback callback)
    (active : t.active = true) (held : w.takesOff? ≠ some index) :
    ∃ t', (w.step exec).timers[index]? = some t' ∧ t'.target = .callback callback
      ∧ t'.active = true := by
  cases outside : w.worksOutside .step with
  | true => exact ⟨t, timers_step_of_outside exec outside there held, target, active⟩
  | false =>
    have listed := mem_outsiders_clock.mpr ⟨t, there, active, rfl, target⟩
    rw [← (accounts.move exec .step).2 outside .clock] at listed
    obtain ⟨t', there', active', -, target'⟩ := mem_outsiders_clock.mp listed
    exact ⟨t', there', target', active'⟩

/-- So it is **at the end of a history** in which nobody takes its handle. -/
theorem lasts_after (accounts : Accounts w) {index callback : Nat} {t : Timer}
    (there : w.timers[index]? = some t) (target : t.target = .callback callback)
    (active : t.active = true) {moves : List Move}
    (held : ∀ before after, moves = before ++ .step :: after →
      (w.after exec before).takesOff? ≠ some index) :
    ∃ t', (w.after exec moves).timers[index]? = some t' ∧ t'.active = true := by
  induction moves generalizing w t with
  | nil => exact ⟨t, there, active⟩
  | cons m moves ih =>
    have later (before after : List Move) (split : moves = before ++ .step :: after) :
        ((w.move exec m).after exec before).takesOff? ≠ some index :=
      held (m :: before) after (by rw [split]; rfl)
    have accounts' := (accounts.move exec m).1
    cases m with
    | receive s =>
      exact ih accounts' (timer_receive there s) target active later
    | step =>
      obtain ⟨t', there', target', active'⟩ :=
        lasts_of_step accounts exec there target active (held [] moves rfl)
      exact ih accounts' there' target' active' later

/-- Labels hold **timers that are there**. -/
theorem Accounts.lt_of_lookup (accounts : Accounts w) {label : String} {index : Nat}
    (held : w.labels.timers.lookup label = some index) : index < w.timers.length :=
  accounts.issued none (.timer index) ⟨_, Keyed.mem_of_lookup held, rfl⟩

/-- A timer **started by an operation** is active from the beginning just if it has an interval, and that
is the answer. -/
theorem Accounts.timer_started (accounts : Accounts w) (exec : Executor) {label : String} {ms : UInt64}
    {script : Script Operation} {rest : List Frame}
    (stack : w.stack = .perform (.timer label ms script) :: rest) :
    (w.step exec).timers[w.timers.length]?
        = some ⟨ms.toNat, w.now + ms.toNat, .callback w.callbacks.length, ms.toNat ≠ 0⟩
      ∧ (w.step exec).answer = .flag (ms.toNat ≠ 0) := by
  have taken : w.step exec = ({ w with stack := rest }.addCallback label script).timerAs label ms.toNat
      (.callback w.callbacks.length) := by
    rw [step, stack]
    rfl
  have answer : (w.step exec).answer = .flag ((w.step exec).timerActive w.timers.length) := by
    rw [taken]
    rfl
  have started : (w.step exec).timers[w.timers.length]?
      = some ⟨ms.toNat, w.now + ms.toNat, .callback w.callbacks.length, ms.toNat ≠ 0⟩ := by
    rw [taken, timers_timerAs]
    show ((w.labels.timers.lookup label).elim id _ _)[w.timers.length]? = _
    cases held : w.labels.timers.lookup label with
    | none => exact List.getElem?_concat_length
    | some old =>
      -- the one that had the label is another
      have before := accounts.lt_of_lookup held
      exact (List.getElem?_modify_ne _ _ (Nat.ne_of_lt before)).trans List.getElem?_concat_length
  refine ⟨started, answer.trans (congrArg Answer.flag ?_)⟩
  show (((w.step exec).timers[w.timers.length]?).map (·.active)).getD false = _
  rw [started]
  rfl

/-! ## 3. Keeping to a schedule -/

/-- A timer that **keeps to its schedule** in a history, having been put in at some moment. -/
structure KeepsTime (w : World) (exec : Executor) (moves : List Move) (index : Nat) (t : Timer)
    (start : Nat) : Prop where
  /-- However the clock moves, it ticks when it wakes up. -/
  schedule : w.OnSchedule exec moves index t
  /-- Each tick is a call of its target. -/
  calls : ∀ before after, moves = before ++ .step :: after →
    (w.after exec before).ticking? = some index → ∃ t', t'.target = t.target
      ∧ (w.after exec before).timers[index]? = some t'
      ∧ (w.after exec before).step exec
        = ({ w.after exec before with
            timers := (w.after exec before).timers.modify index fun t =>
              t.ticked (w.after exec before).now } : World).callTarget .tick t.target
  /-- While the clock is only advanced, it ticks one interval after another. -/
  sofar : (∀ ms, .jump ms ∉ w.clockMoves moves) →
    ∃ n, w.ticksOf exec moves index = (List.range n).map fun k => start + (k + 1) * t.interval
  /-- When nothing is being done then, it ticked as often as intervals fit in. -/
  idle : (∀ ms, .jump ms ∉ w.clockMoves moves) → (w.after exec moves).isIdle = true →
    (∃ t', (w.after exec moves).timers[index]? = some t' ∧ t'.active = true) →
    w.ticksOf exec moves index
      = (List.range (((w.after exec moves).now - start) / t.interval)).map
        fun k => start + (k + 1) * t.interval
  /-- If it calls a callback, it is active as long as nobody takes its handle. -/
  lasts : t.active = true → (∃ callback, t.target = .callback callback) →
    (∀ before after, moves = before ++ .step :: after →
      (w.after exec before).takesOff? ≠ some index) →
    ∃ t', (w.after exec moves).timers[index]? = some t' ∧ t'.active = true

/-- A timer **calls the same target** all the time. -/
theorem exists_target_after (exec : Executor) {index : Nat} {t : Timer}
    (there : w.timers[index]? = some t) (moves : List Move) :
    ∃ t', (w.after exec moves).timers[index]? = some t' ∧ t'.target = t.target := by
  induction moves generalizing w t with
  | nil => exact ⟨t, there, rfl⟩
  | cons m moves ih =>
    cases m with
    | receive s => exact ih (timer_receive there s)
    | step =>
      obtain ⟨t', there', later⟩ := timer_step exec there
      obtain ⟨t'', found, same⟩ := ih there'
      have target : t'.target = t.target := by
        rcases later with rfl | rfl <;> split_ifs <;> rfl
      exact ⟨t'', found, same.trans target⟩

/-- **A timer that was put in just now** keeps to its schedule. -/
theorem Wakeful.keepsTime (h : Wakeful w) (poised : Poised w) (sound : Sound w) (accounts : Accounts w)
    {moves : List Move} (orderly : Orderly exec w moves) {index : Nat} {t : Timer}
    (there : w.timers[index]? = some t) (spaced : 0 < t.interval) {start : Nat} (new : t.New start)
    (began : w.now = start) : w.KeepsTime exec moves index t start := by
  have schedule := h.onSchedule poised sound orderly there spaced
  refine
    { schedule
      calls := fun before after split ticking => ?_
      sofar := fun advancing => (schedule.of_advancing spaced new began advancing).1
      idle := fun advancing idle => ?_
      lasts := fun active => ?_ }
  · obtain ⟨t', found, target⟩ := exists_target_after exec there before
    exact ⟨t', target, found, target ▸ (step_of_ticking? exec ticking found).2⟩
  · rintro ⟨t', found, active⟩
    exact (schedule.of_advancing spaced new began advancing).2 idle t' found active
  · rintro ⟨callback, target⟩ held
    exact lasts_after accounts there target active held

end World

open World

/-- **Timers tick on schedule and stop for good.** In an orderly history a timer that has an interval ticks
when it wakes up, whatever other timers there are; while the clock is only advanced, this is one interval
after another from the moment at which it was put in, and when nothing is being done it ticked as often as
intervals fit in. An operation that starts a timer answers whether it has an interval; one that has none is
never active and never ticks. When the handle of a timer is cancelled or dropped, at whatever moment, the
timer never ticks again, and the others do not notice. An advance of the clock comes to its end as long as
no run is ready for a turn on the way. -/
theorem timers_tick_on_schedule (exec : Executor) (wallClock : Timestamp) (past moves : List Move)
    (orderly : Orderly exec (.empty wallClock) (past ++ .step :: moves)) (w : World)
    (reached : w = (World.empty wallClock).after exec past) :
    (∀ (index : Nat) (t : Timer), w.timers[index]? = none → (w.step exec).timers[index]? = some t →
      (0 < t.interval → (w.step exec).KeepsTime exec moves index t w.now)
        ∧ (t.interval = 0 → t.active = false ∧ ∀ future, (w.step exec).ticksOf exec future index = []))
    ∧ (∀ label ms script rest, w.stack = .perform (.timer label ms script) :: rest →
      (w.step exec).timers[w.timers.length]?
          = some ⟨ms.toNat, w.now + ms.toNat, .callback w.callbacks.length, ms.toNat ≠ 0⟩
        ∧ (w.step exec).answer = .flag (ms.toNat ≠ 0))
    ∧ (∀ (v : World) (index : Nat) (t : Timer), v.timers[index]? = some t →
      v.takesOff? = some index → v.Ceases exec index t)
    ∧ (w.isIdle = true → ∀ ms,
      (∀ steps id, .run id ∉ ((w.receive (.advance ms)).after exec (List.replicate steps .step)).ready) →
      ∃ steps, ((w.receive (.advance ms)).after exec (List.replicate steps .step)).isIdle = true
        ∧ ((w.receive (.advance ms)).after exec (List.replicate steps .step)).now = w.now + ms) := by
  obtain ⟨before, after⟩ := orderly_append.mp orderly
  rw [← reached] at after
  have sound : Sound w := reached ▸ (sound_empty wallClock).after past
  have poised : Poised w := reached ▸ (poised_empty wallClock).after (sound_empty wallClock) before
  have wakeful : Wakeful w := reached ▸
    (wakeful_empty wallClock).after (poised_empty wallClock) (sound_empty wallClock) before
  have spaced : Spaced w :=
    reached ▸ after_induct (fun _ m spaced => spaced.move exec m) (spaced_empty wallClock) past
  have accounts : Accounts w := reached ▸ (accounts_empty wallClock).after exec past
  refine ⟨fun index t absent there => ⟨fun interval => ?_, fun none => ?_⟩, fun label ms script rest stack => ?_,
    fun v index t there taken => ceases_of_takesOff? exec there taken, fun idle ms unrun => ?_⟩
  · obtain ⟨now, new⟩ := new_of_step exec absent there
    exact (wakeful.step poised sound exec).keepsTime (poised.step sound exec)
      (sound.of_moved (sound.move exec .step)) (accounts.move exec .step).1 after there interval new now
  · have inactive : t.active = false := by
      by_contra active
      have := (new_of_step exec absent there).2.spaced (eq_true_of_ne_false active)
      omega
    exact ⟨inactive, fun future => (ticksOf_of_inactive exec there inactive future).1⟩
  · exact accounts.timer_started exec stack
  · exact exists_advanced poised sound wakeful spaced idle ms unrun

/-- A world in which a timer is about to be started. -/
def startingTimer (label : String) (interval : UInt64) (script : Script Operation) : World :=
  (World.empty .first).after noEffects [.receive (.operation (.timer label interval script))]

/-- A timer of ten milliseconds, and advances of twenty-five and of ten. Another of one millisecond that is
late by several ticks is cancelled by the first of them, and makes no other. -/
theorem timers_tick_on_schedule_ten :
    ((startingTimer "t" 10 ⟨[], 0⟩).step noEffects).ticksOf noEffects
        (Move.played (.advance 25) 13 ++ Move.played (.advance 10) 8) 0 = [10, 20, 30]
      ∧ ∀ moves,
        (((startingTimer "u" 1 ⟨[.timerCancel "u"], 1⟩).after noEffects
          (.step :: Move.played (.jump 6) 4)).step noEffects).ticksOf noEffects moves 0 = [] := by
  have orderly : Orderly noEffects (.empty .first)
      ((Move.played (.operation (.timer "t" 10 ⟨[], 0⟩)) 1 ++ Move.played (.advance 25) 13)
        ++ Move.played (.advance 10) 8) :=
    orderly_append.mpr ⟨orderly_append.mpr ⟨orderly_played rfl _ _, orderly_played (by cbv) _ _⟩,
      orderly_played (by cbv) _ _⟩
  obtain ⟨started, -, stops, -⟩ := timers_tick_on_schedule noEffects .first
    [.receive (.operation (.timer "t" 10 ⟨[], 0⟩))]
    (Move.played (.advance 25) 13 ++ Move.played (.advance 10) 8) orderly (startingTimer "t" 10 ⟨[], 0⟩) rfl
  have keeps := (started 0 ⟨10, 10, .callback 0, true⟩ (by cbv) (by cbv)).1 (by decide)
  refine ⟨(keeps.idle (fun ms jumps => ?_) (by cbv) ⟨⟨10, 40, .callback 0, true⟩, by cbv, rfl⟩).trans (by cbv),
    (stops _ 0 ⟨1, 2, .callback 0, true⟩ (by cbv) (by cbv)).silent⟩
  have clock : ClockMove.jump ms ∈ [.advance 25, .advance 10] := jumps
  simp at clock

end RuleDispatch
