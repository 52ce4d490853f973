import RuleDispatch.Proofs.Subscriptions.Equipped

/-! # No trace is left

A rule that is registered under a free id and taken out again leaves no trace: the bus has the
subscribers, and so the channels, that it had before, the store has the listeners and the clock has the
timers, due when they were due.

* `World.Restores` — what is there to be called back is what was there.
* `World.Tallied.board_perform` — the boards are as they were.
* `World.Accrues` — views of the world that only grow when rules are put in and taken out.
* `World.deadlines` — when timers are due, which is such a view.
* `World.Tallied.restores` — no trace is left.
* `subscriptions_are_those_of_rules` — every reachable world. -/

namespace RuleDispatch

namespace World

variable {w w' : World}

/-- What is there to be called back **is what was there**. -/
structure Restores (w w' : World) : Prop where
  /-- The subscriptions on the bus. -/
  subscribers : w'.bus.subscribers = w.bus.subscribers
  /-- The names that are heard. -/
  channels : w'.bus.channels = w.bus.channels
  /-- The listeners to numbers. -/
  numbers : w'.store.numberListeners = w.store.numberListeners
  /-- The listeners to texts. -/
  texts : w'.store.textListeners = w.store.textListeners
  /-- The active timers. -/
  timers : w'.timers.filter (·.active) = w.timers.filter (·.active)

/-! ## 1. The boards -/

/-- What stands on a board tells **who was subscribed**, who listens and who reads. -/
theorem subscribers_injective : Function.Injective fun s : Subscriber Handler =>
    (s.id, Fixture.subscriber s.name s.handler) := by
  rintro ⟨name, id, handler⟩ ⟨name', id', handler'⟩ shown
  obtain ⟨ids, fixture⟩ := Prod.mk.inj shown
  injection fixture with names handlers
  exact congr (congrArg₂ Subscriber.mk names ids) handlers

/-- Different listeners are **different fixtures**. -/
theorem listeners_injective : Function.Injective fun l : Nat × NumberListener =>
    (l.1, Fixture.listener l.2) := by
  intro l m shown
  obtain ⟨id, fixture⟩ := Prod.mk.inj shown
  injection fixture with listener
  exact Prod.ext id listener

/-- Different readers are **different fixtures**. -/
theorem readers_injective : Function.Injective fun l : Nat × Nat => (l.1, Fixture.reader l.2) := by
  intro l m shown
  obtain ⟨id, fixture⟩ := Prod.mk.inj shown
  injection fixture with callback
  exact Prod.ext id callback

/-- What is **listed for the next place and taken off again** leaves the boards as they were: nothing
was there for this place before. -/
theorem Tallied.board_strips (h : Tallied w) {u : World} {triggers : List Trigger}
    {new : Board → List (Nat × Fixture)} (adds : Adds w u w.registrations.length triggers new)
    (strips : Strips u w' w.registrations.length) (b : Board) : w'.board b = w.board b := by
  have before : (w.board b).filter
      (fun x => decide (u.owner? x.2 ≠ some w.registrations.length)) = w.board b := by
    refine List.filter_eq_self.mpr fun x member => decide_eq_true fun owner => ?_
    -- it would be marked by something that the next place holds on to
    rw [owner?, adds.serves b x member, ← owner?] at owner
    obtain ⟨s, ⟨r, found, -⟩, -⟩ := h.marked b x member _ owner
    rw [List.getElem?_eq_none (Nat.le_refl _)] at found
    cases found
  have gone : (new b).filter
      (fun x => decide (u.owner? x.2 ≠ some w.registrations.length)) = [] :=
    List.filter_eq_nil_iff.mpr fun x member => by simp [adds.owner? member]
  rw [strips.board, adds.board, List.filter_append, before, gone, List.append_nil]

/-- A rule registered **under a free id** and taken out again, whatever else was noted, leaves the
boards as they were. -/
theorem Tallied.board_unregister (h : Tallied w) {rule : Rule} {u : World}
    (registered : u.fittings = (w.register rule).fittings) (free : w.ruleIndex? rule.id = none)
    (there : w.engine.isSome = true) (b : Board) : (u.unregister rule.id).board b = w.board b := by
  -- nothing is replaced under a free id
  have steps : w.register rule = if rule.enabled then w.enrol rule else w.note .ruleDisabled := by
    have still : w.unregister rule.id = w := by rw [unregister, free]
    rw [register, free, still]
    rfl
  have index : u.ruleIndex? rule.id = (w.register rule).ruleIndex? rule.id :=
    congrArg (fun engine : Option (Keyed Nat) => engine.bind (·.lookup rule.id))
      (congrArg Fittings.engine registered)
  rw [steps] at registered index
  rw [unregister, index]
  split_ifs at registered ⊢ with enabled
  · rw [ruleIndex?_enrol there, if_pos rfl]
    obtain ⟨tallied, new, adds⟩ := h.enrol rule
    let unlisted : World := { u with engine := u.engine.map (Keyed.remove rule.id) }
    have rack : unlisted.rack = (w.enrol rule).rack := congrArg Fittings.toRack registered
    have books : Tallied unlisted := (tallied.of_fittings registered).congr rfl rfl rfl
    exact h.board_strips (adds.congr rack) (books.dispose _).2 b
  · -- a rule that is not enabled was never put in
    rw [show (w.note .ruleDisabled).ruleIndex? rule.id = none from free]
    exact board_congr (congrArg Fittings.toRack registered) b

/-- So do the operations, whether the engine is there or not. -/
theorem Tallied.board_perform (h : Tallied w) (rule : Rule)
    (free : w.ruleIndex? rule.id = none) (b : Board) :
    ((w.perform (.register (some rule))).perform (.unregister rule.id)).board b = w.board b := by
  cases there : w.engine.isSome with
  | false =>
    have first : w.perform (.register (some rule)) = w.respond .noEngine := by
      simp [perform, withEngine, there]
    have second : (w.respond .noEngine).perform (.unregister rule.id)
        = (w.respond .noEngine).respond .noEngine := by
      simp [perform, withEngine, there, respond]
    rw [first, second]
    rfl
  | true =>
    have first : w.perform (.register (some rule))
        = (w.register rule).respond (.ruleId rule.id) := by
      simp [perform, withEngine, there]
    have still : ((w.register rule).respond (.ruleId rule.id)).engine.isSome = true := by
      show (w.register rule).engine.isSome = true
      rw [isSome_engine_register, there]
    rw [first, perform, withEngine, if_pos still]
    exact h.board_unregister (u := (w.register rule).respond (.ruleId rule.id)) rfl free there b

/-! ## 2. When timers are due -/

/-- What is kept when something is taken off is kept **when a rule is disposed of**, unless the rules and
the log show in it. -/
theorem dispose_induct {P : World → Prop} (retract : ∀ v s, P v → P (v.retract s))
    (unseen : ∀ (v : World) registrations log, P v → P { v with registrations, log }) (h : P w)
    (index : Nat) : P (w.dispose index) := by
  have each (subscriptions : List Subscription) (v : World) (held : P v) :
      P (subscriptions.foldl World.retract v) := by
    induction subscriptions generalizing v with
    | nil => exact held
    | cons s rest ih => exact ih _ (retract v s held)
  unfold World.dispose
  split
  · exact h
  · next r _ =>
    have marked (f : Registration → Registration) : P (w.modifyRegistration index f) :=
      unseen w _ w.log h
    dsimp only
    split
    · exact marked _
    · exact unseen _ _ _ (each r.subscriptions _ (marked _))

/-- A view of the world that **only grows**: it stays when something is taken off or a rule is disposed
of, and what is wired comes after what was there. -/
structure Accrues {α : Type} (view : World → List α) : Prop where
  retract : ∀ w s, view (w.retract s) = view w
  wire : ∀ w index rule trigger, view w <+: view (w.wire index rule trigger).1
  /-- The rules and the log do not show in it. -/
  unseen : ∀ (w : World) registrations engine log,
    view { w with registrations, engine, log } = view w

section

variable {α : Type} {view : World → List α}

/-- **Disposing of a rule** leaves a view that only grows. -/
theorem Accrues.dispose (h : Accrues view) (w : World) (index : Nat) :
    view (w.dispose index) = view w :=
  dispose_induct (P := fun v => view v = view w) (fun v s same => (h.retract v s).trans same)
    (fun v _ _ same => (h.unseen v _ _ _).trans same) rfl index

/-- **Unregistering a rule** leaves a view that only grows. -/
theorem Accrues.unregister (h : Accrues view) (w : World) (id : String) :
    view (w.unregister id) = view w := by
  unfold World.unregister
  split
  · rfl
  · exact (h.dispose _ _).trans (h.unseen w w.registrations _ w.log)

/-- What a rule put in is wired to comes **after what was there**. -/
theorem Accrues.enrol (h : Accrues view) (w : World) (rule : Rule) : view w <+: view (w.enrol rule) := by
  have wired (v : World) (index : Nat) (triggers : List Trigger) :
      view v <+: view (v.wireAll index rule.id triggers).1 := by
    induction triggers generalizing v with
    | nil => exact List.prefix_rfl
    | cons trigger rest ih => exact (h.wire v index rule.id trigger).trans (ih _)
  have seated : view (w.seated rule) = view w := h.unseen w _ w.engine w.log
  have put : view (w.enrol rule)
      = view ((w.seated rule).wireAll w.registrations.length rule.id rule.triggers).1 :=
    h.unseen ((w.seated rule).wireAll w.registrations.length rule.id rule.triggers).1 _ _ _
  rw [put, ← seated]
  exact wired (w.seated rule) w.registrations.length rule.triggers

/-- Registering a rule **leaves what was there** as it was. -/
theorem Accrues.register (h : Accrues view) (w : World) (rule : Rule) :
    view w <+: view (w.register rule) := by
  have kept : view w = view (w.unregister rule.id) := (h.unregister w rule.id).symm
  have noted (v : World) (n : Note) : view (v.note n) = view v := h.unseen v v.registrations v.engine _
  unfold World.register
  dsimp only
  split_ifs
  · rw [kept, ← noted _ .ruleReplaced]
    exact h.enrol _ rule
  · rw [kept]
    exact h.enrol _ rule
  · rw [noted, noted, ← kept]
  · rw [noted, ← kept]

end

/-- What the timers are, **active or not**, is such a view. -/
theorem accrues_timers {α : Type} {g : Timer → α} (idle : ∀ t, g { t with active := false } = g t) :
    Accrues fun w => w.timers.map g where
  retract w s := by
    cases s with
    | event | threshold => rfl
    | timer index =>
      simp only [World.retract, cancelTimer]
      split
      · exact map_modify_eq w.timers index fun t _ => idle t
      · rfl
    | pattern place =>
      simp only [World.retract, disposeWatcher]
      split <;> rfl
  wire w index rule trigger := by
    cases trigger with
    | schedule ms =>
      simp only [World.wire, addTimer, List.map_append]
      split <;> exact List.prefix_append _ _
    | event | threshold | pattern | unknown => exact List.prefix_rfl
  unseen _ _ _ _ := rfl

/-- When the timers, active or not, are **due**. -/
def deadlines (w : World) : List Nat :=
  w.timers.map (·.deadline)

/-- When timers are due is a view that **only grows**. -/
theorem accrues_deadlines : Accrues deadlines :=
  accrues_timers fun _ => rfl

/-- A rule that comes and goes leaves **the deadlines that were there**. -/
theorem deadlines_perform (w : World) (rule : Rule) :
    w.deadlines <+: ((w.perform (.register (some rule))).perform (.unregister rule.id)).deadlines := by
  have first : w.deadlines <+: (w.perform (.register (some rule))).deadlines := by
    simp only [perform, withEngine]
    split
    · exact accrues_deadlines.register w rule
    · exact List.prefix_rfl
  generalize w.perform (.register (some rule)) = v at first
  simp only [perform, withEngine]
  split
  · show w.deadlines <+: (v.unregister rule.id).deadlines
    rw [accrues_deadlines.unregister]
    exact first
  · exact first

/-- The timer that **stands on the clock**, with the deadlines of all timers. -/
def timerOn? (deadlines : List Nat) : Nat × Fixture → Option Timer
  | (place, .timer interval target) =>
    deadlines[place]?.map fun deadline => { interval, deadline, target }
  | (_, .subscriber _ _) | (_, .listener _) | (_, .reader _) => none

/-- The active timers are those **on the clock**. -/
theorem filter_timers (w : World) :
    w.timers.filter (·.active) = (w.board .clock).filterMap (timerOn? w.deadlines) := by
  have placed : w.timers = w.timers.zipIdx.map (·.1) := (List.zipIdx_map_fst 0 _).symm
  conv_lhs => rw [placed]
  rw [board, List.filterMap_filterMap, List.filter_map, ← List.filterMap_eq_map, List.filterMap_filter]
  refine List.filterMap_congr fun t member => ?_
  have found : w.timers[t.2]? = some t.1 := List.mk_mem_zipIdx_iff_getElem?.mp member
  obtain ⟨⟨interval, deadline, target, active⟩, place⟩ := t
  cases active <;> simp [deadlines, timerOn?, found]

/-- The same clock and **at least the same deadlines** make the same timers. -/
theorem filter_timers_congr (clock : w'.board .clock = w.board .clock)
    (deadlines : w.deadlines <+: w'.deadlines) :
    w'.timers.filter (·.active) = w.timers.filter (·.active) := by
  have still (place deadline : Nat) (due : w.deadlines[place]? = some deadline) :
      w'.deadlines[place]? = some deadline := by
    obtain ⟨before, rfl⟩ := List.getElem?_eq_some_iff.mp due
    exact List.prefix_iff_getElem?.mp deadlines place before
  rw [filter_timers w', clock, filter_timers w]
  refine List.filterMap_congr fun x member => ?_
  obtain ⟨t, there, shown⟩ := List.mem_filterMap.mp member
  have found : w.timers[t.2]? = some t.1 := List.mk_mem_zipIdx_iff_getElem?.mp there
  have due : w.deadlines[t.2]? = some t.1.deadline := by simp [World.deadlines, found]
  split at shown
  · obtain rfl := Option.some.inj shown
    rw [timerOn?, timerOn?, due, still _ _ due]
  · cases shown

/-! ## 3. Everything -/

/-- A rule registered **under a free id** and taken out again leaves no trace. -/
theorem Tallied.restores (h : Tallied w) (rule : Rule) (free : w.ruleIndex? rule.id = none) :
    Restores w ((w.perform (.register (some rule))).perform (.unregister rule.id)) := by
  have board := h.board_perform rule free
  have deadlines := deadlines_perform w rule
  generalize (w.perform (.register (some rule))).perform (.unregister rule.id) = v at board deadlines
  have subscribers : v.bus.subscribers = w.bus.subscribers :=
    List.map_injective_iff.mpr subscribers_injective (board .bus)
  have numbers : v.store.numberListeners = w.store.numberListeners :=
    List.map_injective_iff.mpr listeners_injective (board .numbers)
  have texts : v.store.textListeners = w.store.textListeners :=
    List.map_injective_iff.mpr readers_injective (board .texts)
  exact ⟨subscribers, by rw [Bus.channels, subscribers, Bus.channels], numbers, texts,
    filter_timers_congr (board .clock) deadlines⟩

end World

open World

/-- **What is subscribed is what the registered rules ask for.** In every reachable world the bus has
one handler for each trigger of a registered rule that hears a name, the store has one listener for
each threshold, and there is one active timer for each schedule with an interval, besides those that
are there for callbacks; the registered rules are the enabled ones that the engine lists; everything is
in the order in which it was made. What is there for callbacks changes only where something is done
from outside, and a rule that is registered under a free id and taken out again leaves no trace. -/
theorem subscriptions_are_those_of_rules (exec : Executor) (wallClock : Timestamp)
    (moves : List Move) (w : World) (reached : w = (World.empty wallClock).after exec moves) :
    w.Equipped
      ∧ (∀ m, w.worksOutside m = false → ∀ b, (w.move exec m).outsiders b = w.outsiders b)
      ∧ ∀ rule, w.ruleIndex? rule.id = none →
        Restores w ((w.perform (.register (some rule))).perform (.unregister rule.id)) := by
  have accounts : World.Accounts w := reached ▸ (accounts_empty wallClock).after exec moves
  have listed : World.Listed w := reached ▸ (listed_empty wallClock).after exec moves
  exact ⟨accounts.equipped listed, fun m => (accounts.move exec m).2,
    accounts.toTallied.restores⟩

/-- One handler turns the night light on, and it alone is there after another rule came and went. -/
theorem subscriptions_are_those_of_rules_light :
    let w := (World.empty .first).after noEffects
      (Move.played (.operation (.register (some (nightLight .single)))) 1)
    let lamp : Rule := { id := "lamp", triggers := [.event "dusk", .schedule 5, .pattern ["a", "b"] 9] }
    (w.bus.handlers "motion").filterMap (fun handler => w.serves? (.subscriber "motion" handler))
        = [(0, .event "motion")]
      ∧ ((w.perform (.register (some lamp))).perform (.unregister "lamp")).bus.channels = ["motion"] := by
  intro w lamp
  obtain ⟨equipped, -, restores⟩ := subscriptions_are_those_of_rules noEffects .first
    (Move.played (.operation (.register (some (nightLight .single)))) 1) w rfl
  refine ⟨(equipped.bus "motion").trans (by cbv), (restores lamp (by cbv)).channels.trans (by cbv)⟩

end RuleDispatch
