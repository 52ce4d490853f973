import RuleDispatch.Proofs.Disposal.Deliveries
import RuleDispatch.Proofs.Runs.Prospect
import RuleDispatch.Proofs.Timers.Ticks

/-! # No timer is passed over

While things come from outside only when nothing is being done, the clock moves only when no task has a
turn and none is ready for one. Every active timer is then due at a later moment: when its moment comes it
is woken, and it has its turn before the clock goes on. When a timer wakes up hangs on the time and on the
moves of the clock alone, and a step that is no move of the clock changes neither.

* `World.Still` — what a step leaves alone that is no move of the clock.
* `World.wakes_receive`, `World.Still.wakes`, `World.Poised.wakes_clock` — when sleepers wake up, one move
  later.
* `World.Wakeful` — no timer is passed over; so it stays.
* `World.Wakeful.wakes_step` — when an active timer wakes up, one step later. -/

namespace RuleDispatch.World

variable {exec : Executor} {w w' : World}

/-! ## 1. Steps that are no move of the clock -/

/-- What a step leaves alone that is **no move of the clock**: the time, the moves of the clock to come, and
the turns that ready tasks are going to have. -/
structure Still (exec : Executor) (w : World) : Prop where
  now : (w.step exec).now = w.now
  clock : ∀ future, (w.step exec).clockMoves future = w.clockMoves (.step :: future)
  turns : ∀ task ∈ w.ready, task ∈ (w.step exec).ready ∨ .resume task ∈ (w.step exec).stack

/-- The moves of the clock to come **do not hang on frames** that do not move it. -/
theorem clockMoves_append {frames rest : List Frame} (stack : w.stack = frames ++ rest)
    (quiet : ∀ f ∈ frames, f.clock? w.now = none) (future : List Move) :
    w.clockMoves future = rest.filterMap (Frame.clock? w.now) ++ future.filterMap Move.clock? := by
  rw [clockMoves, stack, filterMap_clock?_append quiet]

/-- What goes on with something **taken off the stack** leaves the clock alone. -/
theorem Still.of_extends {u : World} {frame : Frame} {rest : List Frame} (frames : List Frame)
    (stack : w.stack = frame :: rest) (quiet : frame.clock? w.now = none) (now : u.now = w.now)
    (ready : u.ready = w.ready) (below : u.stack = frames ++ rest)
    (others : ∀ f ∈ frames, f.clock? w.now = none) (ext : Extends u (w.step exec)) :
    Still exec w := by
  have now' : (w.step exec).now = w.now := ext.now.trans now
  obtain ⟨more, plain, stack'⟩ := ext.stack
  rw [below, ← List.append_assoc] at stack'
  refine ⟨now', fun future => ?_, fun task member => .inl (ext.ready task (ready ▸ member))⟩
  rw [clockMoves_append stack' (fun f member => ?_), clockMoves_append (show w.stack = [frame] ++ rest from stack)
    (by simpa using quiet), now']
  · rfl
  · rw [now']
    exact (List.mem_append.mp member).elim (fun new => clock?_of_isPlain _ (plain f new)) (others f)

/-- A step is **a move of the clock**, when no task is ready, or it leaves the clock alone. -/
theorem Poised.clocked_or_still (h : Poised w) (sound : Sound w) (exec : Executor) :
    (Clocked w.stack ∧ w.ready = []) ∨ Still exec w := by
  cases stack : w.stack with
  | nil =>
    have idle := step_idle exec w stack
    exact .inr ⟨by rw [idle], fun future => by rw [idle]; rfl, fun task member => .inl (idle.symm ▸ member)⟩
  | cons frame rest =>
    have taken : w.step exec = act { w with stack := rest } exec frame := by rw [World.step, stack]
    rcases h.clocked_or_layers stack with clock | plain | ⟨id, run⟩ | ⟨index, rfl⟩ | rfl
    · exact .inl (stack ▸ clock)
    · refine .inr (.of_extends (u := { w with stack := rest }) [] stack
        (clock?_of_isPlain _ plain) rfl rfl rfl (by simp) ?_)
      rw [taken]
      exact extends_acts (acts_plain exec { w with stack := rest } plain)
    · -- a run has its turn
      obtain ⟨-, r, member, rfl, phase⟩ := h.turn frame (stack ▸ List.mem_cons_self) id run
      have turned := turned_step exec sound.toNumbered stack run member
      have ends : TurnEnds w.now r (r.turn exec w.now w.calls frame) :=
        Run.turnEnds exec w.calls run phase
      exact .inr ⟨turned.now, turned.clockMoves ends stack run,
        fun task member => .inl (turned.ready ▸ member)⟩
    · -- a timer has its turn
      obtain ⟨u, same, place, -, -, acts⟩ := acts_tick { w with stack := rest } index
      have now : u.now = w.now := congrArg Ledger.now same
      have ready : u.ready = w.ready := congrArg Ledger.ready same
      have ext : Extends u (w.step exec) := taken ▸ extends_acts acts
      rcases place with place | place
      · exact .inr (.of_extends [] stack rfl now ready place (by simp) ext)
      · exact .inr (.of_extends [.resume (.timer index)] stack rfl now ready place
          (by simp [Frame.clock?]) ext)
    · -- the next turn is given
      cases queue : w.ready with
      | nil =>
        have closed := step_drain_of_nil exec stack queue
        refine .inr ⟨by rw [closed], fun future => ?_, by simp [queue]⟩
        rw [closed, clockMoves, clockMoves, stack]
        rfl
      | cons task tasks =>
        have given := step_drain_of_cons exec stack queue
        refine .inr ⟨by rw [given], fun future => ?_, fun other member => ?_⟩
        · rw [given, clockMoves, clockMoves, stack]
          rfl
        · rw [given]
          rw [queue] at member
          rcases List.mem_cons.mp member with rfl | later
          · exact .inr List.mem_cons_self
          · exact .inl later

/-! ## 2. When sleepers wake up -/

/-- A step that is no move of the clock changes **nobody's waking**. -/
theorem Still.wakes (still : Still exec w) (future : List Move) :
    (w.step exec).wakes future = w.wakes (.step :: future) := by
  funext d
  rw [World.wakes, World.wakes, still.now, still.clock]

/-- Something from outside, taken up while nothing is being done, changes nobody's waking. -/
theorem wakes_receive (idle : w.isIdle = true) (s : Stimulus) (future : List Move) :
    (w.receive s).wakes future = w.wakes (.receive s :: future) := by
  have stack : w.stack = [] := List.isEmpty_iff.mp idle
  funext d
  cases s with
  | operation op =>
    rw [wakes, wakes, clockMoves, clockMoves, receive, stack_push, stack]
    rfl
  | advance ms =>
    have span : w.now + ms - w.now = ms := Nat.add_sub_cancel_left w.now ms
    rw [wakes, wakes, clockMoves, clockMoves, receive, stack_push, stack]
    simp only [List.append_nil, List.filterMap_cons, Frame.clock?, push, span]
    rfl
  | jump ms =>
    rw [wakes, wakes, clockMoves, clockMoves, receive, stack_push, stack]
    rfl

/-- **Time passing** changes nothing for those who wait for a later moment and have an appointment. -/
theorem Poised.wakes_clock (h : Poised w) (exec : Executor) (clock : Clocked w.stack)
    {next deadline d : Nat} (appointment : w.nextAppointment? = some next) (before : next ≤ deadline)
    (come : w.now < deadline) (later : deadline ≤ d) (future : List Move) :
    (w.step exec).wakes future d = w.wakes (.step :: future) d := by
  have woken (v : World) : v.wakeDue.now = v.now ∧ v.wakeDue.stack = v.stack :=
    ⟨congrArg Ledger.now (ledger_wakeDue v), congrArg Ledger.stack (ledger_wakeDue v)⟩
  generalize stack : w.stack = all at clock
  cases clock with
  | advancing time =>
    -- to stop at the next appointment splits the advance in two, or else it is over with this step
    have reached : w.now ≤ time := h.forward time (by simp [stack])
    have moves : w.clockMoves (.step :: future)
        = .advance (time - w.now) :: future.filterMap Move.clock? := by
      rw [clockMoves, stack]
      rfl
    rw [World.wakes, World.wakes, moves, clockMoves]
    rcases Nat.lt_or_ge time next with beyond | stop
    · rw [step_advance_of_lt exec stack fun other found =>
        Option.some.inj (appointment.symm.trans found) ▸ beyond]
      exact (wakeAt_advance _ reached (by omega)).symm
    · rw [step_advance_of_le exec stack appointment stop, (woken _).1, (woken _).2]
      exact (wakeAt_advance_split _ (Nat.le_max_left _ _) (Nat.max_le.mpr ⟨reached, stop⟩)
        (Nat.max_le.mpr ⟨by omega, by omega⟩)).symm
  | leaping ms =>
    have moves : w.clockMoves (.step :: future) = .jump ms :: future.filterMap Move.clock? := by
      rw [clockMoves, stack]
      rfl
    rw [World.wakes, World.wakes, moves, clockMoves, step_leap exec stack, (woken _).1, (woken _).2]
    exact (wakeAt_jump _ (by omega)).symm

/-! ## 3. No timer is passed over -/

/-- **No timer is passed over**: one that is active is ready for its turn, which is going to be given, or
has it, or is due at a moment to come. -/
def Wakeful (w : World) : Prop :=
  ∀ (index : Nat) (t : Timer), w.timers[index]? = some t → t.active = true →
    (.timer index ∈ w.ready ∧ .drain ∈ w.stack) ∨ .resume (.timer index) ∈ w.stack
      ∨ w.now < t.deadline

/-- In an empty world there is **no timer to pass over**. -/
theorem wakeful_empty (wallClock : Timestamp) : Wakeful (empty wallClock) := by
  intro index t there
  cases there

/-- The active timers **whose moment has come** are due. -/
theorem timer_mem_due {index : Nat} {t : Timer} (there : w.timers[index]? = some t)
    (active : t.active = true) (come : t.deadline ≤ w.now) : .timer index ∈ w.due := by
  have appointed : (t.deadline, Task.timer index) ∈ w.appointments := by
    refine List.mem_append_right _ (List.mem_filterMap.mpr ⟨(t, index), ?_, if_pos active⟩)
    exact List.mk_mem_zipIdx_iff_getElem?.mpr there
  refine List.mem_map.mpr ⟨(t.deadline, .timer index), ?_, rfl⟩
  exact List.mem_mergeSort.mpr (List.mem_filter.mpr ⟨appointed, decide_eq_true come⟩)

/-- No active timer is due **before the next appointment**. -/
theorem nextAppointment?_le_timer {index : Nat} {t : Timer} (there : w.timers[index]? = some t)
    (active : t.active = true) :
    ∃ next, w.nextAppointment? = some next ∧ next ≤ t.deadline := by
  have appointed : t.deadline ∈ w.appointments.map (·.1) := by
    refine List.mem_map.mpr ⟨(t.deadline, .timer index), List.mem_append_right _ ?_, rfl⟩
    exact List.mem_filterMap.mpr
      ⟨(t, index), List.mk_mem_zipIdx_iff_getElem?.mpr there, if_pos active⟩
  unfold nextAppointment?
  cases least : (w.appointments.map (·.1)).min? with
  | none =>
    rw [List.min?_eq_none_iff.mp least] at appointed
    cases appointed
  | some next => exact ⟨next, rfl, (List.min?_eq_some_iff.mp least).2 _ appointed⟩

/-- Everybody whose moment has come is ready **once they are woken**. -/
theorem wakeful_wakeDue (w : World) {index : Nat} {t : Timer}
    (there : w.wakeDue.timers[index]? = some t) (active : t.active = true) :
    .timer index ∈ w.wakeDue.ready ∨ w.wakeDue.now < t.deadline := by
  have timers : w.wakeDue.timers = w.timers := congrArg Lookouts.timers (lookouts_wakeDue w)
  have now : w.wakeDue.now = w.now := congrArg Lookouts.now (lookouts_wakeDue w)
  rw [timers] at there
  rcases Nat.lt_or_ge w.now t.deadline with later | come
  · exact .inr (now.symm ▸ later)
  · exact .inl (mem_ready_foldl_wake.mpr (.inr (timer_mem_due there active come)))

/-- When **nothing is being done**, every active timer is due at a moment to come. -/
theorem Wakeful.lt_deadline_of_idle (h : Wakeful w) (idle : w.isIdle = true) {index : Nat} {t : Timer}
    (there : w.timers[index]? = some t) (active : t.active = true) : w.now < t.deadline := by
  have stack : w.stack = [] := List.isEmpty_iff.mp idle
  simpa [stack] using h index t there active

/-- Turns are given **as long as a task is ready**. -/
theorem drain_mem_step (exec : Executor) (given : .drain ∈ w.stack) (queue : w.ready ≠ []) :
    .drain ∈ (w.step exec).stack := by
  cases stack : w.stack with
  | nil =>
    rw [stack] at given
    cases given
  | cons frame rest =>
    rw [stack] at given
    rcases List.mem_cons.mp given with rfl | below
    · obtain ⟨task, tasks, ready⟩ := List.exists_cons_of_ne_nil queue
      rw [step_drain_of_cons exec stack ready]
      exact List.mem_cons_of_mem _ List.mem_cons_self
    · exact (suffix_move exec .step stack).subset below

/-- When **the clock comes next**, every active timer is due at a moment to come. -/
theorem Wakeful.lt_deadline (h : Wakeful w) (clock : Clocked w.stack) (queue : w.ready = [])
    {index : Nat} {t : Timer} (there : w.timers[index]? = some t) (active : t.active = true) :
    w.now < t.deadline := by
  rcases h index t there active with ⟨ready, -⟩ | turn | later
  · rw [queue] at ready
    cases ready
  · generalize w.stack = all at clock turn
    cases clock <;> simp at turn
  · exact later

/-- **The clock moving** passes no timer over. -/
theorem wakeful_step_of_clocked (exec : Executor) (clock : Clocked w.stack) :
    Wakeful (w.step exec) := by
  intro index t there active
  generalize stack : w.stack = all at clock
  cases clock with
  | advancing time =>
    rcases w.appointment_or_none time with ⟨next, appointment, before⟩ | none
    · rw [step_advance_of_le exec stack appointment before] at there ⊢
      exact (wakeful_wakeDue _ there active).imp (⟨·, by simp [stack_wakeDue]⟩) .inr
    · rw [step_advance_of_lt exec stack none] at there ⊢
      obtain ⟨next, appointment, before⟩ := nextAppointment?_le_timer (w := w) there active
      exact .inr (.inr (Nat.lt_of_lt_of_le (none next appointment) before))
  | leaping ms =>
    rw [step_leap exec stack] at there ⊢
    exact (wakeful_wakeDue _ there active).imp (⟨·, by simp [stack_wakeDue]⟩) .inr

/-- **Every step** passes no timer over. -/
theorem Wakeful.step (h : Wakeful w) (poised : Poised w) (sound : Sound w) (exec : Executor) :
    Wakeful (w.step exec) := by
  rcases poised.clocked_or_still sound exec with ⟨clock, -⟩ | still
  · exact wakeful_step_of_clocked exec clock
  intro index t' there' active
  rw [still.now]
  cases there : w.timers[index]? with
  | none =>
    -- a timer that was put in is due an interval from now
    obtain ⟨-, new⟩ := new_of_step exec there there'
    have := new.spaced active
    exact .inr (.inr (by rw [new.due]; omega))
  | some t =>
    obtain ⟨_, found, later⟩ := timer_step exec there
    obtain rfl := Option.some.inj (there'.symm.trans found)
    by_cases ticking : w.ticking? = some index
    · -- a timer that ticks keeps its turn
      obtain ⟨turn, called⟩ := step_of_ticking? exec ticking there
      refine .inr (.inl ?_)
      rw [called]
      exact (acts_callTarget _ _ t.target).suffix.subset turn
    · rw [if_neg ticking] at later
      obtain rfl := later.active active
      -- one that does not tick is where it was, unless its turn is over
      rcases h index _ there active with ⟨ready, given⟩ | turn | future
      · exact (still.turns _ ready).imp (⟨·, drain_mem_step exec given (List.ne_nil_of_mem ready)⟩) .inl
      · cases stack : w.stack with
        | nil =>
          rw [stack] at turn
          cases turn
        | cons frame rest =>
          rw [stack] at turn
          rcases List.mem_cons.mp turn with rfl | below
          · -- it has its turn and does not tick, so it is not due
            refine .inr (.inr (Nat.lt_of_not_le fun come => ticking ?_))
            rw [ticking?, stack]
            exact if_pos (by rw [isDue, there]; simp [active, come])
          · exact .inr (.inl ((suffix_move exec .step stack).subset below))
      · exact .inr (.inr future)

/-- Something from outside passes no timer over. -/
theorem Wakeful.receive (h : Wakeful w) (s : Stimulus) : Wakeful (w.receive s) := by
  intro index t there active
  rw [timers_receive] at there
  have kept : w.stack <:+ (w.receive s).stack := by
    cases s <;> exact List.suffix_append _ _
  have same : (w.receive s).ready = w.ready ∧ (w.receive s).now = w.now := by
    cases s <;> exact ⟨rfl, rfl⟩
  rw [same.1, same.2]
  exact (h index t there active).imp (And.imp_right fun given => kept.subset given)
    (Or.imp_left fun turn => kept.subset turn)

/-- **Orderly histories** pass no timer over. -/
theorem Wakeful.after (h : Wakeful w) (poised : Poised w) (sound : Sound w) {moves : List Move}
    (orderly : Orderly exec w moves) : Wakeful (w.after exec moves) := by
  induction moves generalizing w with
  | nil => exact h
  | cons m moves ih =>
    obtain ⟨poised', later⟩ := poised.move sound exec orderly
    have sound' := sound.of_moved (sound.move exec m)
    cases m with
    | step => exact ih (h.step poised sound exec) poised' sound' later
    | receive s => exact ih (h.receive s) poised' sound' later

/-- When an active timer **wakes up**, now and whenever it is due again later, is not changed by one
step. -/
theorem Wakeful.wakes_step (h : Wakeful w) (poised : Poised w) (sound : Sound w) (exec : Executor)
    {index : Nat} {t : Timer} (there : w.timers[index]? = some t) (active : t.active = true)
    (future : List Move) {d : Nat} (later : t.deadline ≤ d) :
    (w.step exec).wakes future d = w.wakes (.step :: future) d := by
  rcases poised.clocked_or_still sound exec with ⟨clock, queue⟩ | still
  · obtain ⟨next, appointment, before⟩ := nextAppointment?_le_timer there active
    exact poised.wakes_clock exec clock appointment before (h.lt_deadline clock queue there active)
      later future
  · rw [still.wakes]

end RuleDispatch.World
