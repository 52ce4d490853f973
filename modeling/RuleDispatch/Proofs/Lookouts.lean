import RuleDispatch.Proofs.Fittings

/-! # The lookouts of a world

Watchers wait for patterns and timers for moments: these are the lookouts of a world. What watchers have
seen changes only when an event is shown to them, and when timers are due only when they tick. Apart
from that they stay as they are until they are taken off, and once they are taken off they stay so.

* `World.lookouts` — the clock, the watchers and the timers.
* `Watcher.Later`, `Timer.Later` — one of them later on: as it was, or taken off.
* `World.Tends` — the lookouts looked after; `tends_…` says it of one function each.
* `World.showing?`, `World.ticking?` — the watcher and the timer that the next step stirs.
* `World.timer_step`, `World.watcher_step` — what one step does to each of them. -/

namespace RuleDispatch

/-! ## 1. Lookouts later on -/

/-- A watcher **disposed of**. -/
def Watcher.retired (x : Watcher) : Watcher :=
  { x with disposed := true, subscriptions := [] }

/-- A timer **cancelled**. -/
def Timer.stopped (t : Timer) : Timer :=
  { t with active := false }

/-- A watcher that **was shown an event**. -/
def Watcher.shown (x : Watcher) (event : Event) : Watcher :=
  { x with matcher := (x.matcher.observe event.name event.timestamp).2 }

/-- A timer that **ticked**. -/
def Timer.ticked (t : Timer) (now : Nat) : Timer :=
  { t with deadline := t.nextDeadline now }

/-- A watcher **later on**, no event having been shown to it: as it was, or disposed of. -/
def Watcher.Later (x x' : Watcher) : Prop :=
  x' = x ∨ x' = x.retired

/-- A timer **later on**, not having ticked: as it was, or cancelled. -/
def Timer.Later (t t' : Timer) : Prop :=
  t' = t ∨ t' = t.stopped

/-- A watcher that is there later **than a later one**. -/
theorem Watcher.Later.trans {x y z : Watcher} (first : x.Later y) (second : y.Later z) :
    x.Later z := by
  rcases first with rfl | rfl
  · exact second
  · rcases second with rfl | rfl <;> exact .inr rfl

/-- A timer that is there later **than a later one**. -/
theorem Timer.Later.trans {t u v : Timer} (first : t.Later u) (second : u.Later v) : t.Later v := by
  rcases first with rfl | rfl
  · exact second
  · rcases second with rfl | rfl <;> exact .inr rfl

/-- A watcher **keeps what it has seen**. -/
theorem Watcher.Later.matcher {x x' : Watcher} (h : x.Later x') : x'.matcher = x.matcher := by
  rcases h with rfl | rfl <;> rfl

/-- A timer **keeps its deadline**. -/
theorem Timer.Later.deadline {t t' : Timer} (h : t.Later t') : t'.deadline = t.deadline := by
  rcases h with rfl | rfl <;> rfl

/-- A timer **keeps its interval**. -/
theorem Timer.Later.interval {t t' : Timer} (h : t.Later t') : t'.interval = t.interval := by
  rcases h with rfl | rfl <;> rfl

/-- **Cancelled is cancelled.** -/
theorem Timer.Later.active {t t' : Timer} (h : t.Later t') (active : t'.active = true) :
    t' = t := by
  rcases h with rfl | rfl
  · rfl
  · cases active

/-- A timer **put in at some moment**: it is due an interval after that, and active only if the interval
is not empty. -/
structure Timer.New (t : Timer) (now : Nat) : Prop where
  due : t.deadline = now + t.interval
  spaced : t.active = true → 0 < t.interval

/-- The **lookouts**: the clock, the watchers and the timers. -/
structure Lookouts where
  now : Nat
  watchers : List Watcher
  timers : List Timer

namespace World

variable {u v w w' : World}

/-- The lookouts **of a world**. -/
def lookouts (w : World) : Lookouts :=
  ⟨w.now, w.watchers, w.timers⟩

/-- The lookouts **looked after**, while no event is shown to anyone and no timer ticks: whoever was
there is there still or is taken off; whoever is new has seen nothing, and is due an interval from
now. -/
structure Tends (w w' : World) : Prop where
  now : w'.now = w.now
  watchers : ∀ (place : Nat) (x : Watcher), w.watchers[place]? = some x →
    ∃ x', w'.watchers[place]? = some x' ∧ x.Later x'
  timers : ∀ (index : Nat) (t : Timer), w.timers[index]? = some t →
    ∃ t', w'.timers[index]? = some t' ∧ t.Later t'
  newWatchers : ∀ (place : Nat) (x' : Watcher), w.watchers[place]? = none →
    w'.watchers[place]? = some x' → x'.matcher = .fresh x'.matcher.sequence x'.matcher.withinMs
  newTimers : ∀ (index : Nat) (t' : Timer), w.timers[index]? = none →
    w'.timers[index]? = some t' → t'.New w.now

namespace Tends

/-- Leaving the lookouts **alone**. -/
theorem of_lookouts (same : w'.lookouts = w.lookouts) : Tends w w' where
  now := congrArg Lookouts.now same
  watchers place x there :=
    ⟨x, (congrArg (·.watchers[place]?) same).trans there, .inl rfl⟩
  timers index t there := ⟨t, (congrArg (·.timers[index]?) same).trans there, .inl rfl⟩
  newWatchers place x' none there := by
    rw [show w'.watchers = w.watchers from congrArg Lookouts.watchers same, none] at there
    cases there
  newTimers index t' none there := by
    rw [show w'.timers = w.timers from congrArg Lookouts.timers same, none] at there
    cases there

/-- Lookouts that **stay as they are** are looked after. -/
theorem refl (w : World) : Tends w w :=
  .of_lookouts rfl

/-- Lookouts can be looked after **one thing after the other**. -/
theorem trans (first : Tends u v) (later : Tends v w) : Tends u w where
  now := later.now.trans first.now
  watchers place x there := by
    obtain ⟨y, there', before⟩ := first.watchers place x there
    obtain ⟨z, there'', after⟩ := later.watchers place y there'
    exact ⟨z, there'', before.trans after⟩
  timers index t there := by
    obtain ⟨t', there', before⟩ := first.timers index t there
    obtain ⟨t'', there'', after⟩ := later.timers index t' there'
    exact ⟨t'', there'', before.trans after⟩
  newWatchers place x' none there := by
    -- it is new in the first part, or it comes in the second
    cases between : v.watchers[place]? with
    | none => exact later.newWatchers place x' between there
    | some x =>
      obtain ⟨x'', there', after⟩ := later.watchers place x between
      obtain rfl := Option.some.inj (there.symm.trans there')
      rw [after.matcher]
      exact first.newWatchers place x none between
  newTimers index t' none there := by
    cases between : v.timers[index]? with
    | none => exact first.now ▸ later.newTimers index t' between there
    | some t =>
      obtain ⟨t'', there', after⟩ := later.timers index t between
      obtain rfl := Option.some.inj (there.symm.trans there')
      have new := first.newTimers index t none between
      -- a timer that is active in the end is as it was in between
      refine ⟨by rw [after.deadline, after.interval]; exact new.due, fun active => ?_⟩
      have same := after.active active
      exact same ▸ new.spaced (same ▸ active)

/-- What tends the lookouts of a world with the same lookouts tends those of this one. -/
theorem congr (h : Tends v w) (same : v.lookouts = u.lookouts) : Tends u w :=
  (of_lookouts same).trans h

end Tends

/-! ## 2. What leaves the lookouts alone -/

/-- **Waking a task** leaves the lookouts. -/
@[simp] theorem lookouts_wake (w : World) (task : Task) : (w.wake task).lookouts = w.lookouts := by
  unfold wake
  split <;> rfl

/-- **Waking what is due** leaves the lookouts. -/
@[simp] theorem lookouts_wakeDue (w : World) : w.wakeDue.lookouts = w.lookouts := by
  unfold wakeDue
  generalize w.due = tasks
  induction tasks generalizing w with
  | nil => rfl
  | cons task rest ih => rw [List.foldl_cons, ih, lookouts_wake]

/-- **Cancelling a run** leaves the lookouts. -/
@[simp] theorem lookouts_cancelRun (w : World) (id : Nat) :
    (w.cancelRun id).lookouts = w.lookouts := by
  unfold cancelRun
  dsimp only
  split
  · exact lookouts_wake _ _
  · rfl

/-- **Cancelling a labelled run** leaves the lookouts. -/
theorem lookouts_cancelLabel (w : World) (label : String) :
    (w.cancelLabel label).lookouts = w.lookouts := by
  have each (v : World) (runs : List Run) :
      (runs.foldl (fun w r => w.cancelRun r.id) v).lookouts = v.lookouts := by
    induction runs generalizing v with
    | nil => rfl
    | cons r rest ih => rw [List.foldl_cons, ih, lookouts_cancelRun]
  exact each { w with labels := { w.labels with cancelled := label :: w.labels.cancelled } } _

/-- **Firing a rule** leaves the lookouts. -/
@[simp] theorem lookouts_fire (w : World) (index : Nat) :
    (w.fire index).lookouts = w.lookouts := by
  unfold fire
  split
  · rfl
  · next r _ =>
    split_ifs
    · rfl
    · rfl
    · rfl
    · show (w.preempt r.rule.id _).lookouts = _
      unfold preempt
      split
      · exact lookouts_cancelRun _ _
      · rfl

/-- **Calling a callback** leaves the lookouts: what it does comes later. -/
@[simp] theorem lookouts_runCallback (w : World) (index : Nat) (entry : String → Entry) :
    (w.runCallback index entry).lookouts = w.lookouts := by
  unfold runCallback
  split <;> rfl

/-- **Calling a target** leaves the lookouts. -/
@[simp] theorem lookouts_callTarget (w : World) (entry : String → Entry) (target : Target) :
    (w.callTarget entry target).lookouts = w.lookouts := by
  cases target with
  | callback index => exact lookouts_runCallback w index entry
  | rule index => exact lookouts_fire w index

/-- **Telling a listener of a number** leaves the lookouts. -/
theorem lookouts_hearNumber (w : World) (key : String) (value : Float) (listener : NumberListener) :
    (w.hearNumber key value listener).lookouts = w.lookouts := by
  cases listener with
  | callback index => exact lookouts_runCallback w index _
  | threshold rule entity bounds =>
    unfold hearNumber
    dsimp only
    split_ifs
    · exact lookouts_fire w rule
    · rfl

/-- **Obeying a command** leaves the lookouts. -/
theorem lookouts_applyCommand (w : World) (frames : List Frame) (command : Command) :
    (w.applyCommand frames command).lookouts = w.lookouts := by
  cases command <;> rfl

/-- **Reading a line** leaves the lookouts. -/
theorem lookouts_readLine (w : World) (text : String) :
    (w.readLine text).lookouts = w.lookouts := by
  unfold readLine
  split
  · exact lookouts_applyCommand w _ _
  · rfl

/-- **Reading lines** leaves the lookouts. -/
theorem lookouts_readLines (w : World) (shown : List String) (lines : List (Option String)) :
    (w.readLines shown lines).lookouts = w.lookouts := by
  unfold readLines
  split
  · rfl
  · rfl
  · split
    · exact lookouts_applyCommand w _ _
    · rfl
    · rfl

/-- **Strides, service calls and turns of runs** leave the lookouts alone. -/
theorem lookouts_execute (exec : Executor) (w : World) (id : Nat) :
    (w.execute exec id).lookouts = w.lookouts := by
  unfold execute
  split
  · rfl
  · next r _ =>
    dsimp only
    cases (r.progress.next r.cancelled).1 with
    | nothing | call | stop => rfl
    | wait ms =>
      show (waitFor _ _ _).lookouts = _
      unfold waitFor
      split <;> rfl
    | finish =>
      show (finishRun _ _).lookouts = _
      unfold finishRun
      dsimp only
      split <;> rfl

/-- **A step of a service call** leaves the lookouts. -/
theorem lookouts_serve (w : World) (id : Nat) (call : Call) :
    (w.serve id call).lookouts = w.lookouts := by
  unfold serve
  split
  · unfold endCall
    split
    · rfl
    · rfl
    · split
      · rfl
      · unfold panicRun
        dsimp only
        split <;> rfl
  · rfl
  · dsimp only
    split <;> rfl

/-- **Waking a run up** leaves the lookouts. -/
theorem lookouts_resumeRun (w : World) (id : Nat) : (w.resumeRun id).lookouts = w.lookouts := by
  unfold resumeRun
  split
  · rfl
  · split
    · rfl
    · split_ifs <;> rfl
    · split_ifs <;> rfl

/-- **Giving the ready their turns** leaves the lookouts. -/
theorem lookouts_drain (w : World) : w.drain.lookouts = w.lookouts := by
  unfold drain
  split <;> rfl

/-- **Moves of the clock** leave the watchers and the timers alone. -/
theorem lookouts_advanceTo (w : World) (time : Nat) :
    (w.advanceTo time).lookouts = { w.lookouts with now := (w.advanceTo time).now } := by
  have woken (v : World) : v.wakeDue.watchers = v.watchers ∧ v.wakeDue.timers = v.timers :=
    ⟨congrArg Lookouts.watchers (lookouts_wakeDue v), congrArg Lookouts.timers (lookouts_wakeDue v)⟩
  unfold advanceTo
  split
  · next next _ =>
    split_ifs
    · obtain ⟨watchers, timers⟩ := woken { w with now := max w.now next }
      exact congrArg₂ (Lookouts.mk _) watchers timers
    · rfl
  · rfl

/-! ## 3. Lookouts put up and taken off -/

/-- A list with **one more at the end** has what it had, and this one. -/
theorem getElem?_concat_cases {α : Type} {things : List α} {a b : α} {place : Nat}
    (there : (things ++ [a])[place]? = some b) : things[place]? = some b ∨ b = a := by
  rcases Nat.lt_or_ge place things.length with before | beyond
  · rw [List.getElem?_append_left before] at there
    exact .inl there
  · rw [List.getElem?_append_right beyond] at there
    exact .inr (List.mem_singleton.mp (List.mem_of_getElem? there))

/-- What stands in a place **still stands there** when something is added at the end. -/
theorem getElem?_concat_of_some {α : Type} {things : List α} {a b : α} {place : Nat}
    (there : things[place]? = some a) : (things ++ [b])[place]? = some a := by
  rw [List.getElem?_append_left (List.getElem?_eq_some_iff.mp there).1, there]

/-- **A new timer** is due an interval from now, and active if this is not empty. -/
theorem tends_addTimer (w : World) (interval : Nat) (target : Target) :
    Tends w (w.addTimer interval target) := by
  have added : (w.addTimer interval target).lookouts
      = { w.lookouts with
          timers := w.timers ++ [{ interval, deadline := w.now + interval, target
                                   active := interval ≠ 0 }] } := by
    unfold addTimer
    split <;> rfl
  have timers : (w.addTimer interval target).timers = _ := congrArg Lookouts.timers added
  exact
    { now := congrArg Lookouts.now added
      watchers := fun place x there =>
        ⟨x, (congrArg (·.watchers[place]?) added).trans there, .inl rfl⟩
      timers := fun index t there => ⟨t, timers ▸ getElem?_concat_of_some there, .inl rfl⟩
      newWatchers := fun place x' none there => by
        rw [show (w.addTimer interval target).watchers = w.watchers from
          congrArg Lookouts.watchers added, none] at there
        cases there
      newTimers := fun index t' none there => by
        rw [timers] at there
        rcases getElem?_concat_cases there with old | rfl
        · rw [none] at old
          cases old
        · exact ⟨rfl, fun active => Nat.pos_of_ne_zero (of_decide_eq_true active)⟩ }

/-- What is **cancelled** is one timer, which is there. -/
theorem tends_cancelTimer (w : World) (index : Nat) : Tends w (w.cancelTimer index) := by
  unfold cancelTimer
  split_ifs
  · refine
      { now := rfl
        watchers := fun place x there => ⟨x, there, .inl rfl⟩
        timers := fun other t there => ?_
        newWatchers := fun place x' none there => ?_
        newTimers := fun other t' none there => ?_ }
    · show ∃ t', (w.timers.modify index fun t => { t with active := false })[other]? = some t' ∧ _
      rw [List.getElem?_modify, there]
      by_cases here : index = other
      · exact ⟨t.stopped, by simp [here, Timer.stopped], .inr rfl⟩
      · exact ⟨t, by simp [here], .inl rfl⟩
    · exact absurd (none.symm.trans there) nofun
    · have gone : (w.timers.modify index fun t => { t with active := false })[other]? = some t' :=
        there
      rw [List.getElem?_modify, none] at gone
      cases gone
  · exact .refl w

/-- **A new watcher** has seen nothing so far. -/
theorem tends_addWatcher (w : World) (sequence : List String) (withinMs : UInt64)
    (target : Target) : Tends w (w.addWatcher sequence withinMs target) where
  now := rfl
  watchers _ x there := ⟨x, getElem?_concat_of_some there, .inl rfl⟩
  timers _ t there := ⟨t, there, .inl rfl⟩
  newWatchers place x' none there := by
    rcases getElem?_concat_cases there with old | rfl
    · rw [none] at old
      cases old
    · rfl
  newTimers _ _ none there := absurd (none.symm.trans there) nofun

/-- **Disposing of a watcher** tends the lookouts. -/
theorem tends_disposeWatcher (w : World) (index : Nat) : Tends w (w.disposeWatcher index) := by
  unfold disposeWatcher
  split
  · exact .refl w
  · next watcher _ =>
    refine
      { now := rfl
        watchers := fun place x there => ?_
        timers := fun _ t there => ⟨t, there, .inl rfl⟩
        newWatchers := fun place x' none there => ?_
        newTimers := fun other t' none there => absurd (none.symm.trans there) nofun }
    · show ∃ x', (w.watchers.modify index fun x =>
        { x with disposed := true, subscriptions := [] })[place]? = some x' ∧ _
      rw [List.getElem?_modify, there]
      by_cases here : index = place
      · exact ⟨x.retired, by simp [here, Watcher.retired], .inr rfl⟩
      · exact ⟨x, by simp [here], .inl rfl⟩
    · have gone : (w.watchers.modify index fun x =>
          { x with disposed := true, subscriptions := [] })[place]? = some x' := there
      rw [List.getElem?_modify, none] at gone
      cases gone

/-- **Taking a subscription back** tends the lookouts. -/
theorem tends_retract (w : World) (s : Subscription) : Tends w (w.retract s) := by
  cases s with
  | event | threshold => exact .of_lookouts rfl
  | timer index => exact tends_cancelTimer w index
  | pattern place => exact tends_disposeWatcher w place

/-- What tends the lookouts for one thing does so **for several**. -/
theorem tends_foldl {α : Type} {f : World → α → World} (each : ∀ w a, Tends w (f w a))
    (w : World) (as : List α) : Tends w (as.foldl f w) := by
  induction as generalizing w with
  | nil => exact .refl w
  | cons a rest ih => exact (each w a).trans (ih (f w a))

/-- **Wiring triggers** tends the lookouts. -/
theorem tends_wireAll (w : World) (index : Nat) (rule : String) (triggers : List Trigger) :
    Tends w (w.wireAll index rule triggers).1 := by
  induction triggers generalizing w with
  | nil => exact .refl w
  | cons trigger rest ih =>
    refine Tends.trans ?_ (ih (w.wire index rule trigger).1)
    cases trigger with
    | event | threshold | unknown => exact .of_lookouts rfl
    | schedule intervalMs => exact tends_addTimer w _ _
    | pattern sequence withinMs => exact tends_addWatcher w sequence withinMs _

/-- **Disposing of a rule** tends the lookouts. -/
theorem tends_dispose (w : World) (index : Nat) : Tends w (w.dispose index) := by
  unfold dispose
  split
  · exact .refl w
  · next r _ =>
    have marked : Tends w (w.modifyRegistration index fun r =>
        { r with disposed := true, subscriptions := [] }) := .of_lookouts rfl
    dsimp only
    split_ifs
    · exact marked
    · exact (marked.trans (tends_foldl tends_retract _ r.subscriptions)).trans (.of_lookouts rfl)

/-- **Unregistering a rule** tends the lookouts. -/
theorem tends_unregister (w : World) (id : String) : Tends w (w.unregister id) := by
  unfold unregister
  split
  · exact .refl w
  · exact (tends_dispose _ _).congr rfl

/-- **Enrolling a rule** tends the lookouts. -/
theorem tends_enrol (w : World) (rule : Rule) : Tends w (w.enrol rule) := by
  have wired := tends_wireAll { w with registrations := w.registrations ++ [({ rule } : Registration)] }
    w.registrations.length rule.id rule.triggers
  have seated : Tends w _ := wired.congr (by rfl)
  exact seated.trans (.of_lookouts rfl)

/-- **Registering a rule** tends the lookouts. -/
theorem tends_register (w : World) (rule : Rule) : Tends w (w.register rule) := by
  have taken := tends_unregister w rule.id
  have put (v : World) (noted : v.lookouts = (w.unregister rule.id).lookouts) :
      Tends w (if rule.enabled then v.enrol rule else v.note .ruleDisabled) := by
    have first : Tends w v := taken.trans (.of_lookouts noted)
    split_ifs
    · exact first.trans (tends_enrol v rule)
    · exact first.trans (.of_lookouts rfl)
  unfold register
  dsimp only
  refine put _ ?_
  split_ifs <;> rfl

/-- **Loading a document** tends the lookouts. -/
theorem tends_load (w : World) (document : String) : Tends w (w.load document) := by
  unfold load
  split
  · exact .of_lookouts rfl
  · next batch _ =>
    have told := tends_foldl (f := fun w (s : Skipped) => w.record (.skipped s))
      (fun _ _ => .of_lookouts rfl) w batch.skipped
    exact (told.trans (tends_foldl tends_register _ batch.rules)).trans (.of_lookouts rfl)

/-- **Disposing of rules** tends the lookouts. -/
theorem tends_disposeEach (w : World) (rules : Keyed Nat) : Tends w (w.disposeEach rules) :=
  tends_foldl (f := fun w (entry : String × Nat) => w.dispose entry.2)
    (fun w entry => tends_dispose w entry.2) w rules

/-! ## 4. Operations and steps -/

/-- **A watcher with a label** tends the lookouts. -/
theorem tends_watchAs (w : World) (label : String) (sequence : List String) (withinMs : UInt64)
    (target : Target) : Tends w (w.watchAs label sequence withinMs target) := by
  have added := tends_addWatcher w sequence withinMs target
  unfold watchAs
  dsimp only
  split
  · exact added.trans ((tends_disposeWatcher _ _).congr (by rfl))
  · exact added.trans (.of_lookouts rfl)

/-- **A timer with a label** tends the lookouts. -/
theorem tends_timerAs (w : World) (label : String) (interval : Nat) (target : Target) :
    Tends w (w.timerAs label interval target) := by
  have added := tends_addTimer w interval target
  let labelled : World :=
    { w.addTimer interval target with
      labels := { (w.addTimer interval target).labels with
        timers := (w.addTimer interval target).labels.timers.put label w.timers.length } }
  have first : Tends w labelled := added.trans (.of_lookouts rfl)
  unfold timerAs
  dsimp only
  split
  · exact (first.trans (tends_cancelTimer labelled _)).trans (.of_lookouts rfl)
  · exact first.trans (.of_lookouts rfl)

/-- **What the engine is asked for** tends the lookouts if it does so when the engine is there. -/
theorem tends_withEngine (w : World) {act : World → World} (done : Tends w (act w)) :
    Tends w (w.withEngine act) := by
  unfold withEngine
  split_ifs
  · exact done
  · exact .of_lookouts rfl

/-- **Every operation** tends the lookouts. -/
theorem tends_perform (w : World) (op : Operation) : Tends w (w.perform op) := by
  -- answering tends no lookout
  have answered {v : World} (done : Tends w v) (answer : Answer) : Tends w (v.respond answer) :=
    done.trans (.of_lookouts rfl)
  cases op with
  | subscribe | emit | subscribers | setNumber | setText | get | listenNumber | listenText
  | listeners | isCancelled | console => exact .of_lookouts rfl
  | subscribeAgain | unsubscribe | unlisten | watchState | timerActive | run | describe =>
    simp only [perform]
    split <;> exact .of_lookouts rfl
  | watch label sequence withinMs script =>
    exact answered ((tends_watchAs (w.addCallback label script) label sequence withinMs _).congr rfl) _
  | timer label ms script =>
    exact (tends_timerAs (w.addCallback label script) label ms.toNat _).congr rfl
  | watchDispose label =>
    simp only [perform]
    split
    · exact answered (tends_disposeWatcher w _) _
    · exact .of_lookouts rfl
  | watchDrop label =>
    simp only [perform]
    split
    · exact answered ((tends_disposeWatcher _ _).congr (by rfl)) _
    · exact .of_lookouts rfl
  | timerCancel label =>
    simp only [perform]
    split
    · exact answered (tends_cancelTimer w _) _
    · exact .of_lookouts rfl
  | timerDrop label =>
    simp only [perform]
    split
    · exact answered ((tends_cancelTimer _ _).congr (by rfl)) _
    · exact .of_lookouts rfl
  | cancel label => exact .of_lookouts (lookouts_cancelLabel w label)
  | line text => exact .of_lookouts (lookouts_readLine w text)
  | register rule =>
    simp only [perform]
    refine tends_withEngine w ?_
    split
    · exact answered (tends_register w _) _
    · exact .of_lookouts rfl
  | load document =>
    simp only [perform]
    exact tends_withEngine w (tends_load w document)
  | unregister id =>
    simp only [perform]
    exact tends_withEngine w (answered (tends_unregister w id) _)
  | trigger id =>
    simp only [perform]
    refine tends_withEngine w ?_
    split
    · exact .of_lookouts (lookouts_fire w _)
    · exact .of_lookouts rfl
  | ruleIds | isRunning =>
    simp only [perform]
    exact tends_withEngine w (.of_lookouts rfl)
  | disposeAll | dropEngine =>
    simp only [perform]
    exact tends_withEngine w (answered ((tends_disposeEach _ _).congr (by rfl)) _)

/-- The watcher to whom **the next step shows an event**, with the event. -/
def showing? (w : World) : Option (Nat × Event) :=
  match w.stack with
  | .deliver event (.watcher place :: _) :: _ => some (place, event)
  | _ => none

/-- Whether a timer is **active and due**. -/
def isDue (w : World) (index : Nat) : Bool :=
  (w.timers[index]?).any fun t => t.active && t.deadline ≤ w.now

/-- The timer that **the next step lets tick**. -/
def ticking? (w : World) : Option Nat :=
  match w.stack with
  | .resume (.timer index) :: _ => if w.isDue index then some index else none
  | _ => none

/-- What an event shown changes is **the watcher in its place**. -/
theorem modify_shown {watchers : List Watcher} {place : Nat} {x : Watcher}
    (there : watchers[place]? = some x) (event : Event) :
    (watchers.modify place fun held =>
        { held with matcher := (x.matcher.observe event.name event.timestamp).2 })
      = watchers.modify place fun held => held.shown event := by
  refine List.ext_getElem? fun other => ?_
  rw [List.getElem?_modify, List.getElem?_modify]
  by_cases here : place = other
  · rw [← here, there]
    rfl
  · simp [here]

/-- An event shown to a watcher changes **what it has seen**, and nothing else. -/
theorem lookouts_observe (w : World) (event : Event) (place : Nat) :
    (w.observe event place).lookouts
      = { w.lookouts with watchers := w.watchers.modify place fun x => x.shown event } := by
  unfold observe
  split
  · next none =>
    rw [List.modify_eq_self (List.getElem?_eq_none_iff.mp none)]
    rfl
  · next x there =>
    dsimp only
    rw [modify_shown there]
    unfold settleWatcher
    split
    · split_ifs
      · rfl
      · exact lookouts_callTarget _ _ _
    · rfl
    · rfl

/-- What a tick changes is **the timer in its place**. -/
theorem modify_ticked {timers : List Timer} {index : Nat} {t : Timer} (there : timers[index]? = some t)
    (now : Nat) :
    (timers.modify index fun held => { held with deadline := t.nextDeadline now })
      = timers.modify index fun held => held.ticked now := by
  refine List.ext_getElem? fun other => ?_
  rw [List.getElem?_modify, List.getElem?_modify]
  by_cases here : index = other
  · rw [← here, there]
    rfl
  · simp [here]

/-- A timer is not due **if it is not active, or if it is too early**. -/
theorem isDue_eq {w : World} {index : Nat} {t : Timer} (there : w.timers[index]? = some t) :
    (!t.active || decide (w.now < t.deadline)) = !w.isDue index := by
  rw [isDue, there, Option.any_some, Bool.not_and, ← decide_not,
    decide_eq_decide.mpr Nat.not_le.symm]

/-- A timer that ticks is **due again later**, and nothing else changes. -/
theorem lookouts_tick (w : World) (index : Nat) :
    (w.tick index).lookouts
      = if w.isDue index then
          { w.lookouts with timers := w.timers.modify index fun t => t.ticked w.now }
        else w.lookouts := by
  unfold tick
  split
  · next none => rw [if_neg (by rw [isDue, none]; exact Bool.false_ne_true)]
  · next t there =>
    dsimp only
    rw [isDue_eq there, modify_ticked there]
    cases w.isDue index with
    | false => rfl
    | true => exact lookouts_callTarget _ _ _

/-- **What one step does to the lookouts**: an event is shown to a watcher, a timer ticks, time passes,
or they are tended. -/
inductive Stirs (w w' : World) : Prop where
  /-- An event is shown to a watcher. -/
  | shows (place : Nat) (event : Event) (showing : w.showing? = some (place, event))
      (quiet : w.ticking? = none)
      (done : w'.lookouts
        = { w.lookouts with watchers := w.watchers.modify place fun x => x.shown event })
  /-- A timer ticks. -/
  | ticks (index : Nat) (quiet : w.showing? = none) (ticking : w.ticking? = some index)
      (done : w'.lookouts = { w.lookouts with timers := w.timers.modify index fun t => t.ticked w.now })
  /-- Time passes. -/
  | passes (quiet : w.showing? = none) (still : w.ticking? = none) (now : Nat)
      (done : w'.lookouts = { w.lookouts with now })
  /-- They are tended. -/
  | tends (quiet : w.showing? = none) (still : w.ticking? = none) (done : Tends w w')

/-- **Every step** is of one of these kinds. -/
theorem stirs_step (exec : Executor) (w : World) : Stirs w (w.step exec) := by
  cases stack : w.stack with
  | nil =>
    rw [step_idle exec w stack]
    exact .tends (by rw [showing?, stack]) (by rw [ticking?, stack]) (.refl w)
  | cons frame rest =>
    let below : World := { w with stack := rest }
    have taken : w.step exec = below.act exec frame := by rw [step, stack]
    rw [taken]
    -- what neither shows an event nor lets a timer tick tends the lookouts
    have tended (quiet : w.showing? = none) (still : w.ticking? = none)
        (done : Tends below (below.act exec frame)) : Stirs w (below.act exec frame) :=
      .tends quiet still (done.congr rfl)
    have passed (quiet : w.showing? = none) (still : w.ticking? = none) {now : Nat}
        (done : (below.act exec frame).lookouts = { below.lookouts with now }) :
        Stirs w (below.act exec frame) :=
      .passes quiet still now done
    cases frame with
    | perform op =>
      exact tended (by rw [showing?, stack]) (by rw [ticking?, stack]) (tends_perform below op)
    | respond | record =>
      exact tended (by rw [showing?, stack]) (by rw [ticking?, stack]) (.of_lookouts rfl)
    | deliver event handlers =>
      cases handlers with
      | nil => exact tended (by rw [showing?, stack]) (by rw [ticking?, stack]) (.refl below)
      | cons handler others =>
        cases handler with
        | target target =>
          exact tended (by rw [showing?, stack]) (by rw [ticking?, stack])
            (.of_lookouts (lookouts_callTarget (below.push [.deliver event others]) _ target))
        | watcher place =>
          exact .shows place event (by rw [showing?, stack]) (by rw [ticking?, stack])
            (lookouts_observe (below.push [.deliver event others]) event place)
    | tellNumber key value listeners =>
      refine tended (by rw [showing?, stack]) (by rw [ticking?, stack]) (.of_lookouts ?_)
      cases listeners with
      | nil => rfl
      | cons listener others =>
        exact lookouts_hearNumber (below.push [.tellNumber key value others]) key value listener
    | tellText key value listeners =>
      refine tended (by rw [showing?, stack]) (by rw [ticking?, stack]) (.of_lookouts ?_)
      cases listeners with
      | nil => rfl
      | cons listener others =>
        exact lookouts_runCallback (below.push [.tellText key value others]) listener _
    | lines lines shown =>
      exact tended (by rw [showing?, stack]) (by rw [ticking?, stack])
        (.of_lookouts (lookouts_readLines below shown lines))
    | execute id =>
      exact tended (by rw [showing?, stack]) (by rw [ticking?, stack])
        (.of_lookouts (lookouts_execute exec below id))
    | serve id call =>
      exact tended (by rw [showing?, stack]) (by rw [ticking?, stack])
        (.of_lookouts (lookouts_serve below id call))
    | resume task =>
      have quiet : w.showing? = none := by rw [showing?, stack]
      cases task with
      | run id =>
        exact tended quiet (by rw [ticking?, stack]) (.of_lookouts (lookouts_resumeRun below id))
      | timer index =>
        have done := lookouts_tick below index
        have ticking : w.ticking? = if below.isDue index then some index else none := by
          rw [ticking?, stack]
          rfl
        split_ifs at done ticking
        · exact .ticks index quiet ticking done
        · exact tended quiet ticking (.of_lookouts done)
    | drain =>
      exact tended (by rw [showing?, stack]) (by rw [ticking?, stack])
        (.of_lookouts (lookouts_drain below))
    | advanceTo time =>
      exact passed (by rw [showing?, stack]) (by rw [ticking?, stack]) (lookouts_advanceTo below time)
    | leap ms =>
      exact passed (by rw [showing?, stack]) (by rw [ticking?, stack])
        (lookouts_wakeDue { below with now := below.now + ms })

/-- Something from outside leaves the lookouts alone. -/
theorem lookouts_receive (w : World) (s : Stimulus) : (w.receive s).lookouts = w.lookouts := by
  cases s <;> rfl

/-! ## 5. One watcher and one timer -/

/-- **One watcher over one step**: it was shown an event if there was one to show it, and at most it was
disposed of. -/
theorem watcher_step (exec : Executor) {place : Nat} {x : Watcher}
    (there : w.watchers[place]? = some x) :
    ∃ x', (w.step exec).watchers[place]? = some x' ∧ Watcher.Later
      ((w.showing?.filter (·.1 = place)).elim x fun shown => x.shown shown.2) x' := by
  cases stirs_step exec w with
  | shows other event showing quiet done =>
    have watchers : (w.step exec).watchers = w.watchers.modify other fun x => x.shown event :=
      congrArg Lookouts.watchers done
    rw [watchers, List.getElem?_modify, there, showing]
    by_cases here : other = place
    · exact ⟨x.shown event, by simp [here], .inl (by simp [here, Option.filter_some])⟩
    · exact ⟨x, by simp [here], .inl (by simp [here, Option.filter_some])⟩
  | ticks index quiet ticking done =>
    rw [quiet]
    exact ⟨x, (congrArg (·.watchers[place]?) done).trans there, .inl rfl⟩
  | passes quiet still now done =>
    rw [quiet]
    exact ⟨x, (congrArg (·.watchers[place]?) done).trans there, .inl rfl⟩
  | tends quiet still done =>
    rw [quiet]
    exact done.watchers place x there

/-- A watcher that **the step put up** has seen nothing. -/
theorem fresh_of_step (exec : Executor) {place : Nat} {x : Watcher}
    (absent : w.watchers[place]? = none) (there : (w.step exec).watchers[place]? = some x) :
    x.matcher = .fresh x.matcher.sequence x.matcher.withinMs := by
  have still (same : (w.step exec).watchers[place]? = w.watchers[place]?) :
      x.matcher = .fresh x.matcher.sequence x.matcher.withinMs :=
    absurd (absent.symm.trans (same.symm.trans there)) nofun
  cases stirs_step exec w with
  | shows other event showing quiet done =>
    have watchers : (w.step exec).watchers = w.watchers.modify other fun x => x.shown event :=
      congrArg Lookouts.watchers done
    rw [watchers, List.getElem?_modify, absent] at there
    cases there
  | ticks index quiet ticking done => exact still (congrArg (·.watchers[place]?) done)
  | passes quiet still' now done => exact still (congrArg (·.watchers[place]?) done)
  | tends quiet still' done => exact done.newWatchers place x absent there

/-- **One timer over one step**: it ticked if it was its turn and it was due, and at most it was
cancelled. -/
theorem timer_step (exec : Executor) {index : Nat} {t : Timer} (there : w.timers[index]? = some t) :
    ∃ t', (w.step exec).timers[index]? = some t' ∧ Timer.Later
      (if w.ticking? = some index then t.ticked w.now else t) t' := by
  cases stirs_step exec w with
  | shows other event showing quiet done =>
    rw [quiet]
    exact ⟨t, (congrArg (·.timers[index]?) done).trans there, .inl rfl⟩
  | ticks other quiet ticking done =>
    have timers : (w.step exec).timers = w.timers.modify other fun t => t.ticked w.now :=
      congrArg Lookouts.timers done
    rw [timers, List.getElem?_modify, there, ticking]
    by_cases here : other = index
    · exact ⟨t.ticked w.now, by simp [here], .inl (by simp [here])⟩
    · exact ⟨t, by simp [here], .inl (by simp [here])⟩
  | passes quiet still now done =>
    rw [still]
    exact ⟨t, (congrArg (·.timers[index]?) done).trans there, .inl rfl⟩
  | tends quiet still done =>
    rw [still]
    exact done.timers index t there

/-- A timer that **the step put in** is due an interval from now, and active only if that is not
empty. -/
theorem new_of_step (exec : Executor) {index : Nat} {t : Timer} (absent : w.timers[index]? = none)
    (there : (w.step exec).timers[index]? = some t) : (w.step exec).now = w.now ∧ t.New w.now := by
  have still (same : (w.step exec).timers[index]? = w.timers[index]?) :
      (w.step exec).now = w.now ∧ t.New w.now :=
    absurd (absent.symm.trans (same.symm.trans there)) nofun
  cases stirs_step exec w with
  | shows other event showing quiet done => exact still (congrArg (·.timers[index]?) done)
  | ticks other quiet ticking done =>
    have timers : (w.step exec).timers = w.timers.modify other fun t => t.ticked w.now :=
      congrArg Lookouts.timers done
    rw [timers, List.getElem?_modify, absent] at there
    cases there
  | passes quiet still' now done => exact still (congrArg (·.timers[index]?) done)
  | tends quiet still' done => exact ⟨done.now, done.newTimers index t absent there⟩

/-- The step that lets a timer tick **calls its target**; the timer is due again by then, and keeps its
turn. -/
theorem step_of_ticking? (exec : Executor) {index : Nat} {t : Timer}
    (ticking : w.ticking? = some index) (there : w.timers[index]? = some t) :
    .resume (.timer index) ∈ w.stack
      ∧ w.step exec
        = ({ w with timers := w.timers.modify index fun t => t.ticked w.now } : World).callTarget
          .tick t.target := by
  unfold ticking? at ticking
  split at ticking
  · next place rest stack =>
    split_ifs at ticking with due
    obtain rfl := Option.some.inj ticking
    refine ⟨stack ▸ List.mem_cons_self, ?_⟩
    have there' : ({ w with stack := rest } : World).timers[place]? = some t := there
    have due' : ({ w with stack := rest } : World).isDue place = true := due
    have taken : w.step exec = tick { w with stack := rest } place := by
      rw [step, stack]
      rfl
    rw [taken, tick, there']
    dsimp only
    rw [isDue_eq there', due', Bool.not_true, if_neg Bool.false_ne_true, modify_ticked there']
    simp only [push, List.singleton_append, ← stack]
  · cases ticking

/-- The timer that ticks is **active and due**. -/
theorem due_of_ticking? {index : Nat} (ticking : w.ticking? = some index) :
    ∃ t, w.timers[index]? = some t ∧ t.active = true ∧ t.deadline ≤ w.now := by
  unfold ticking? at ticking
  split at ticking
  · next place rest stack =>
    split_ifs at ticking with due
    obtain rfl := Option.some.inj ticking
    obtain ⟨t, there, ready⟩ := (Option.any_eq_true _ _).mp due
    rw [Bool.and_eq_true, decide_eq_true_eq] at ready
    exact ⟨t, there, ready⟩
  · cases ticking

end World

end RuleDispatch
