import RuleDispatch.Proofs.Dispatch.Ending
import RuleDispatch.Proofs.Timers.Wakeful

/-! # An advance of the clock comes to its end

A timer that has its turn ticks until it is due later, since every tick puts it off; what its target does
comes to its end each time. So a drain comes to its end when all that is ready are timers, and then the
clock goes on to a later moment. While no run is ready for a turn, an advance of the clock therefore comes
to its end, at the moment for which it was made.

* `World.Unrun` — a world in which no run is ready for a turn, whatever steps are taken.
* `World.Unrun.turn_ends`, `World.Unrun.drain_ends`, `World.Unrun.advance_ends` — a turn of a timer, a
  drain, and time passing come to their ends.
* `World.exists_advanced` — the whole advance. -/

namespace RuleDispatch.World

variable {exec : Executor} {w w' : World}

/-- The active timers **have an interval**. -/
def Spaced (w : World) : Prop :=
  ∀ (index : Nat) (t : Timer), w.timers[index]? = some t → t.active = true → 0 < t.interval

/-- An empty world has **no timers**. -/
theorem spaced_empty (wallClock : Timestamp) : Spaced (empty wallClock) := by
  intro index t there
  cases there

/-- **Every move** lets active timers have an interval. -/
theorem Spaced.move (h : Spaced w) (exec : Executor) (m : Move) : Spaced (w.move exec m) := by
  intro index t' there' active
  cases m with
  | receive s => exact h index t' ((congrArg (·[index]?) (timers_receive w s)).symm.trans there') active
  | step =>
    cases there : w.timers[index]? with
    | none => exact (new_of_step exec there there').2.spaced active
    | some t =>
      -- a timer keeps its interval, and one that is active was active before
      obtain ⟨_, found, later⟩ := timer_step exec there
      obtain rfl := Option.some.inj (there'.symm.trans found)
      have same := later.active active
      have interval : t'.interval = t.interval := by
        rw [later.interval]
        split_ifs <;> rfl
      have before : t.active = true := by
        rw [same] at active
        split_ifs at active <;> exact active
      rw [interval]
      exact h index t there before

/-- A world in which **no run is ready for a turn**, whatever steps are taken, and what is known of every
world in which nothing came from outside too early. -/
structure Unrun (exec : Executor) (w : World) : Prop where
  poised : Poised w
  sound : Sound w
  wakeful : Wakeful w
  spaced : Spaced w
  unrun : ∀ steps id, .run id ∉ (w.after exec (List.replicate steps .step)).ready

/-- No run is ready for a turn **a step later**, either. -/
theorem Unrun.step (h : Unrun exec w) : Unrun exec (w.step exec) where
  poised := h.poised.step h.sound exec
  sound := h.sound.of_moved (h.sound.move exec .step)
  wakeful := h.wakeful.step h.poised h.sound exec
  spaced := h.spaced.move exec .step
  unrun steps id := h.unrun (steps + 1) id

/-! ## 1. Turns of timers -/

/-- What **lies between two steps** while only plain things are done: no time passes, no task gets ready,
and a timer that is still active has not ticked. -/
structure Meanwhile (w w' : World) : Prop where
  now : w'.now = w.now
  ready : w'.ready ⊆ w.ready
  timers : ∀ (index : Nat) (t : Timer), w.timers[index]? = some t →
    ∃ t', w'.timers[index]? = some t' ∧ t.Later t'

/-- Nothing lies **between a world and itself**. -/
theorem Meanwhile.refl (w : World) : Meanwhile w w :=
  ⟨rfl, List.Subset.refl _, fun _ t there => ⟨t, there, .inl rfl⟩⟩

/-- What lies between steps may come **one after the other**. -/
theorem Meanwhile.trans {u v : World} (first : Meanwhile u v) (later : Meanwhile v w) :
    Meanwhile u w where
  now := later.now.trans first.now
  ready := List.Subset.trans later.ready first.ready
  timers index t there := by
    obtain ⟨t', there', before⟩ := first.timers index t there
    obtain ⟨t'', there'', after⟩ := later.timers index t' there'
    exact ⟨t'', there'', before.trans after⟩

/-- What goes on **without a run being ready** wakes no task. -/
theorem Extends.ready_subset {u : World} (ext : Extends u w') (unrun : ∀ id, .run id ∉ w'.ready) :
    w'.ready ⊆ u.ready := by
  intro task member
  rcases ext.woken task member with old | ⟨r, -, rfl, -⟩
  · exact old
  · exact absurd member (unrun r.id)

/-- Something **plain** done. -/
theorem Unrun.step_plain (h : Unrun exec w) {frame : Frame} {rest : List Frame}
    (stack : w.stack = frame :: rest) (plain : frame.isPlain = true) : Meanwhile w (w.step exec) := by
  have taken : w.step exec = act { w with stack := rest } exec frame := by rw [World.step, stack]
  have ext : Extends { w with stack := rest } (w.step exec) :=
    taken ▸ extends_acts (acts_plain exec { w with stack := rest } plain)
  have quiet : w.ticking? = none := by
    unfold ticking?
    split
    · next turn =>
      rw [stack] at turn
      obtain ⟨rfl, -⟩ := List.cons.inj turn
      cases plain
    · rfl
  refine ⟨ext.now, ext.ready_subset (h.unrun 1), fun index t there => ?_⟩
  obtain ⟨t', there', later⟩ := timer_step exec there
  rw [quiet, if_neg (Option.some_ne_none index).symm] at later
  exact ⟨t', there', later⟩

/-- **Plain things** on top of others come to their end. -/
theorem Unrun.plain_ends (h : Unrun exec w) {above base : List Frame}
    (plain : ∀ f ∈ above, f.isPlain = true) (stack : w.stack = above ++ base) :
    ∃ steps, (w.after exec (List.replicate steps .step)).stack = base
      ∧ Unrun exec (w.after exec (List.replicate steps .step))
      ∧ Meanwhile w (w.after exec (List.replicate steps .step)) :=
  exists_done_of_kept exec (P := fun v => Unrun exec v ∧ Meanwhile w v)
    (fun _ _ _ stack plain ⟨unrun, between⟩ =>
      ⟨unrun.step, between.trans (unrun.step_plain stack plain)⟩)
    w above base plain stack ⟨h, .refl w⟩

/-- Steps after steps are steps. -/
theorem after_replicate_add (exec : Executor) (w : World) (m n : Nat) :
    w.after exec (List.replicate (m + n) .step)
      = (w.after exec (List.replicate m .step)).after exec (List.replicate n .step) := by
  rw [List.replicate_add, after_append]

/-- By how much a timer is **overdue**. -/
def overdue (w : World) (index : Nat) : Nat :=
  (w.timers[index]?).elim 0 fun t => if t.active then w.now + 1 - t.deadline else 0

/-- A turn of a timer that **does not tick** is over at once. -/
theorem step_of_not_ticking (exec : Executor) {index : Nat} {rest : List Frame}
    (stack : w.stack = .resume (.timer index) :: rest) (quiet : w.ticking? ≠ some index) :
    w.step exec = { w with stack := rest } := by
  have early : ({ w with stack := rest } : World).isDue index = false := by
    by_contra due
    rw [Bool.not_eq_false] at due
    exact quiet (by rw [ticking?, stack]; exact if_pos due)
  have taken : w.step exec = tick { w with stack := rest } index := by
    rw [World.step, stack]
    rfl
  rw [taken, tick]
  split
  · rfl
  · next t there => rw [isDue_eq there, early, Bool.not_false, if_pos rfl]

/-- **A tick** puts its timer off, and what its target does comes to its end. -/
theorem Unrun.tick_ends (h : Unrun exec w) {index : Nat} (ticking : w.ticking? = some index) :
    ∃ steps, (w.after exec (List.replicate steps .step)).stack = w.stack
      ∧ Unrun exec (w.after exec (List.replicate steps .step))
      ∧ (w.after exec (List.replicate steps .step)).now = w.now
      ∧ (w.after exec (List.replicate steps .step)).ready ⊆ w.ready
      ∧ (w.after exec (List.replicate steps .step)).overdue index < w.overdue index := by
  obtain ⟨t, there, active, due⟩ := due_of_ticking? ticking
  obtain ⟨-, called⟩ := step_of_ticking? exec ticking there
  have ext : Extends { w with timers := w.timers.modify index fun t => t.ticked w.now } (w.step exec) :=
    called ▸ extends_acts (acts_callTarget _ .tick t.target)
  obtain ⟨frames, plain, stack⟩ := ext.stack
  obtain ⟨t', there', later⟩ := timer_step exec there
  rw [if_pos ticking] at later
  -- what the target does lies above the turn, which is there again for another look at the timer
  obtain ⟨steps, done, unrun, between⟩ := h.step.plain_ends plain stack
  obtain ⟨t'', there'', later'⟩ := between.timers index t' there'
  have now : ((w.step exec).after exec (List.replicate steps .step)).now = w.now :=
    between.now.trans ext.now
  refine ⟨steps + 1, done, unrun, now, ?_, ?_⟩
  · exact List.Subset.trans between.ready (ext.ready_subset (h.unrun 1))
  · have spaced := h.spaced index t there active
    have put_off : t.deadline + t.interval ≤ t''.deadline := by
      rw [(later.trans later').deadline]
      exact t.le_nextDeadline w.now
    have after : ((w.step exec).after exec (List.replicate steps .step)).overdue index
        ≤ w.now + 1 - t''.deadline := by
      rw [overdue, there'', now]
      show (if t''.active = true then _ else 0) ≤ _
      split_ifs <;> omega
    have before : w.overdue index = w.now + 1 - t.deadline := by
      rw [overdue, there]
      exact if_pos active
    show ((w.step exec).after exec (List.replicate steps .step)).overdue index < _
    omega

/-- **The turn of a timer** comes to its end. -/
theorem Unrun.turn_ends (h : Unrun exec w) {index : Nat} {rest : List Frame}
    (stack : w.stack = .resume (.timer index) :: rest) :
    ∃ steps, (w.after exec (List.replicate steps .step)).stack = rest
      ∧ Unrun exec (w.after exec (List.replicate steps .step))
      ∧ (w.after exec (List.replicate steps .step)).now = w.now
      ∧ (w.after exec (List.replicate steps .step)).ready ⊆ w.ready := by
  -- each tick makes the timer less overdue, and one that is not overdue does not tick
  induction left : w.overdue index using Nat.strong_induction_on generalizing w with
  | _ n ih =>
    by_cases ticking : w.ticking? = some index
    · obtain ⟨steps, done, unrun, now, ready, less⟩ := h.tick_ends ticking
      obtain ⟨more, done', unrun', now', ready'⟩ :=
        ih _ (left ▸ less) unrun (done.trans stack) rfl
      refine ⟨steps + more, ?_⟩
      rw [after_replicate_add]
      exact ⟨done', unrun', now'.trans now, List.Subset.trans ready' ready⟩
    · have closed := step_of_not_ticking exec stack ticking
      have stack' : (w.step exec).stack = rest := by rw [closed]
      have now : (w.step exec).now = w.now := by rw [closed]
      have ready : (w.step exec).ready = w.ready := by rw [closed]
      exact ⟨1, stack', h.step, now, fun _ member => ready ▸ member⟩

/-! ## 2. Time passing -/

/-- **A drain** comes to its end, with nothing ready any more. -/
theorem Unrun.drain_ends (h : Unrun exec w) {rest : List Frame} (stack : w.stack = .drain :: rest) :
    ∃ steps, (w.after exec (List.replicate steps .step)).stack = rest
      ∧ Unrun exec (w.after exec (List.replicate steps .step))
      ∧ (w.after exec (List.replicate steps .step)).now = w.now
      ∧ (w.after exec (List.replicate steps .step)).ready = [] := by
  -- a turn wakes nobody, so there is one task less that is ready each time
  induction left : w.ready.length using Nat.strong_induction_on generalizing w with
  | _ n ih =>
    cases queue : w.ready with
    | nil =>
      have closed := step_drain_of_nil exec stack queue
      have stack' : (w.step exec).stack = rest := by rw [closed]
      have now : (w.step exec).now = w.now := by rw [closed]
      have ready : (w.step exec).ready = [] := by rw [closed, queue]
      exact ⟨1, stack', h.step, now, ready⟩
    | cons task tasks =>
      have given := step_drain_of_cons exec stack queue
      have ready : (w.step exec).ready = tasks := by rw [given]
      have moment : (w.step exec).now = w.now := by rw [given]
      cases task with
      | run id => exact absurd (queue ▸ List.mem_cons_self) (h.unrun 0 id)
      | timer index =>
        obtain ⟨steps, done, unrun, now, fewer⟩ := h.step.turn_ends (congrArg World.stack given)
        rw [ready] at fewer
        have less := (List.subperm_of_subset unrun.poised.nodup fewer).length_le
        rw [queue, List.length_cons] at left
        obtain ⟨more, done', unrun', now', none⟩ := ih _ (by omega) unrun done rfl
        refine ⟨1 + steps + more, ?_⟩
        rw [after_replicate_add, after_replicate_add]
        exact ⟨done', unrun', now'.trans (now.trans moment), none⟩

/-- The clock **stops only at a later moment**. -/
theorem Unrun.lt_nextAppointment? (h : Unrun exec w) (clock : Clocked w.stack) (queue : w.ready = [])
    {next : Nat} (appointment : w.nextAppointment? = some next) : w.now < next := by
  have appointed := (List.min?_eq_some_iff.mp appointment).1
  obtain ⟨⟨moment, task⟩, member, rfl⟩ := List.mem_map.mp appointed
  rcases List.mem_append.mp member with run | timer
  · obtain ⟨r, there, waits⟩ := List.mem_filterMap.mp run
    obtain ⟨d, deadline, same⟩ := Option.map_eq_some_iff.mp waits
    obtain ⟨d', deadline', future⟩ := h.poised.waits clock queue there
    obtain rfl := Option.some.inj (deadline.symm.trans deadline')
    obtain ⟨rfl, -⟩ := Prod.mk.inj same
    exact future
  · obtain ⟨⟨t, index⟩, there, waits⟩ := List.mem_filterMap.mp timer
    dsimp only at waits
    split_ifs at waits with active
    obtain ⟨rfl, -⟩ := Prod.mk.inj (Option.some.inj waits)
    exact h.wakeful.lt_deadline clock queue (List.mk_mem_zipIdx_iff_getElem?.mp there) active

/-- **Time passing** comes to its end. -/
theorem Unrun.advance_ends (h : Unrun exec w) {time : Nat}
    (stack : w.stack = [.advanceTo time, .respond .done]) (queue : w.ready = []) :
    ∃ steps, (w.after exec (List.replicate steps .step)).isIdle = true
      ∧ (w.after exec (List.replicate steps .step)).now = time := by
  -- the clock stops at later and later moments on its way
  induction left : time - w.now using Nat.strong_induction_on generalizing w with
  | _ n ih =>
    have clock : Clocked w.stack := stack ▸ .advancing time
    rcases w.appointment_or_none time with ⟨next, appointment, before⟩ | none
    · -- those who wait for the next appointment have their turns
      have woken := step_advance_of_le exec stack appointment before
      have later := h.lt_nextAppointment? clock queue appointment
      have now : (w.step exec).now = max w.now next := by
        rw [woken]
        exact congrArg Ledger.now (ledger_wakeDue _)
      have stack' : (w.step exec).stack = [.drain, .advanceTo time, .respond .done] := by
        rw [woken, stack_wakeDue]
      obtain ⟨steps, done, unrun, now', none⟩ := h.step.drain_ends stack'
      obtain ⟨more, idle, arrived⟩ := ih _ (by omega) unrun done none rfl
      refine ⟨1 + steps + more, ?_⟩
      rw [after_replicate_add, after_replicate_add]
      exact ⟨idle, arrived⟩
    · have passed := step_advance_of_lt exec stack none
      have answered : (w.step exec).step exec
          = { w with now := time, stack := [], answer := .done } := by
        rw [passed]
        rfl
      exact ⟨2, congrArg World.isIdle answered, congrArg World.now answered⟩

/-- **An advance of the clock** comes to its end, at the moment for which it was made, while no run is
ready for a turn on the way. -/
theorem exists_advanced (poised : Poised w) (sound : Sound w) (wakeful : Wakeful w) (spaced : Spaced w)
    (idle : w.isIdle = true) (ms : Nat)
    (unrun : ∀ steps id,
      .run id ∉ ((w.receive (.advance ms)).after exec (List.replicate steps .step)).ready) :
    ∃ steps, ((w.receive (.advance ms)).after exec (List.replicate steps .step)).isIdle = true
      ∧ ((w.receive (.advance ms)).after exec (List.replicate steps .step)).now = w.now + ms := by
  have begun : Unrun exec (w.receive (.advance ms)) :=
    { poised := poised.receive idle _
      sound := sound.of_moved (sound.move exec (.receive (.advance ms)))
      wakeful := wakeful.receive _
      spaced := spaced.move exec (.receive (.advance ms))
      unrun }
  have stack : (w.receive (.advance ms)).stack
      = [.drain, .advanceTo (w.now + ms), .respond .done] := by
    rw [receive, stack_push, List.isEmpty_iff.mp idle]
    rfl
  obtain ⟨steps, done, later, -, none⟩ := begun.drain_ends stack
  obtain ⟨more, arrived⟩ := later.advance_ends done none
  exact ⟨steps + more, by rwa [after_replicate_add]⟩

end RuleDispatch.World
