import RuleDispatch.Proofs.Subscriptions.Account

/-! # Watchers hear an event once

A pattern may have a name more than once, but its watcher subscribes to the name only once and never
moves. So whoever is called with an event, no watcher is called with it twice.

* `World.Once` — no watcher is subscribed twice under one name.
* `World.Once.work`, `World.Once.after` — every piece of work keeps it so, and so does every history.
* `World.Once.handlers` — a watcher is listed once among the handlers of a name. -/

namespace RuleDispatch

/-- A watcher is subscribed **at most once under a name**. -/
def Watcher.HearsOnce (x : Watcher) : Prop :=
  (x.subscriptions.map Prod.fst).Nodup

namespace World

variable {w w' : World}

/-- **No watcher is subscribed twice** under one name. -/
def Once (w : World) : Prop :=
  ∀ x ∈ w.watchers, x.HearsOnce

/-! ## 1. What is done with watchers -/

/-- This depends on **the watchers only**. -/
theorem Once.of_watchers (h : Once w) (same : w'.watchers = w.watchers) : Once w' := by
  rw [Once, same]
  exact h

/-- What a watcher has seen does not matter. -/
theorem Once.congr (h : Once w) (same : w'.rack.watchers = w.rack.watchers) : Once w' := by
  intro x member
  have there : x.unseen ∈ w.rack.watchers := same ▸ List.mem_map_of_mem member
  obtain ⟨old, held, shown⟩ := List.mem_map.mp there
  have subscriptions : old.subscriptions = x.subscriptions :=
    show old.unseen.subscriptions = x.unseen.subscriptions from congrArg Watcher.subscriptions shown
  rw [Watcher.HearsOnce, ← subscriptions]
  exact h old held

/-- Cancelling a timer leaves the watchers alone, and so does adding one. -/
theorem watchers_cancelTimer (w : World) (index : Nat) : (w.cancelTimer index).watchers = w.watchers := by
  unfold cancelTimer
  split <;> rfl

/-- **Putting in a timer** leaves the watchers. -/
theorem watchers_addTimer (w : World) (interval : Nat) (target : Target) :
    (w.addTimer interval target).watchers = w.watchers := by
  unfold addTimer
  split <;> rfl

/-- **Disposing of a watcher** takes subscriptions away only. -/
theorem Once.disposeWatcher (h : Once w) (index : Nat) : Once (w.disposeWatcher index) := by
  unfold World.disposeWatcher
  split
  · exact h
  · intro x member
    obtain ⟨place, found⟩ := List.mem_iff_getElem?.mp member
    rw [unsubscribeAll, List.getElem?_modify] at found
    obtain ⟨old, there, rfl⟩ := Option.map_eq_some_iff.mp found
    by_cases here : index = place
    · simp [here, Watcher.HearsOnce]
    · simpa [here] using h old (List.mem_of_getElem? there)

/-- **Taking a subscription back** takes subscriptions away only. -/
theorem Once.retract (h : Once w) (s : Subscription) : Once (w.retract s) := by
  cases s with
  | event name id => exact h
  | timer index => exact h.of_watchers (watchers_cancelTimer w index)
  | threshold id => exact h
  | pattern place => exact h.disposeWatcher place

/-- **A new watcher** subscribes to every name of its pattern once. -/
theorem Once.addWatcher (h : Once w) (sequence : List String) (withinMs : UInt64) (target : Target) :
    Once (w.addWatcher sequence withinMs target) := by
  intro x member
  rcases List.mem_append.mp member with old | new
  · exact h x old
  · rw [List.mem_singleton.mp new, Watcher.HearsOnce, numbered, List.zipIdx_map_fst]
    exact nodup_eraseDups sequence

/-- **Wiring a trigger** subscribes a new watcher at most. -/
theorem Once.wire (h : Once w) (index : Nat) (rule : String) (trigger : Trigger) :
    Once (w.wire index rule trigger).1 := by
  cases trigger with
  | event | threshold | unknown => exact h
  | schedule ms => exact h.of_watchers (watchers_addTimer w _ _)
  | pattern sequence withinMs => exact h.addWatcher sequence withinMs _

/-- **Wiring triggers** subscribes new watchers at most. -/
theorem Once.wireAll (h : Once w) (index : Nat) (rule : String) (triggers : List Trigger) :
    Once (w.wireAll index rule triggers).1 := by
  induction triggers generalizing w with
  | nil => exact h
  | cons trigger rest ih => exact ih (h.wire index rule trigger)

/-- Taking back **what a rule installed** disposes of watchers at most. -/
theorem Once.dispose (h : Once w) (index : Nat) : Once (w.dispose index) := by
  have each (v : World) (subscriptions : List Subscription) (once : Once v) :
      Once (subscriptions.foldl World.retract v) := by
    induction subscriptions generalizing v with
    | nil => exact once
    | cons s rest ih => exact ih _ (once.retract s)
  unfold World.dispose
  split
  · exact h
  · dsimp only
    split
    · exact h
    · exact each _ _ h

/-- **Disposing of rules** takes subscriptions away only. -/
theorem Once.disposeEach (h : Once w) (rules : Keyed Nat) : Once (w.disposeEach rules) := by
  unfold World.disposeEach
  induction rules generalizing w with
  | nil => exact h
  | cons rule rest ih => exact ih (h.dispose rule.2)

/-! ## 2. Work and histories -/

/-- **Every piece of work** leaves watchers subscribed once. -/
theorem Once.work (h : Once w) {outside : Bool} (work : Work outside w w') : Once w' := by
  cases work with
  | quiet same => exact h.congr (congrArg (fun f : Fittings => f.watchers) same)
  | subscribe | listenNumber | listenText | letGoWatcher | letGoTimer => exact h
  | watch _ label sequence withinMs place =>
    have watched := h.addWatcher sequence withinMs (.callback place)
    unfold watchAs
    dsimp only
    split
    -- the watcher that had the label is disposed of, with the new one in place
    · refine Once.disposeWatcher ?_ _
      exact watched
    · exact watched
  | timer _ label interval place =>
    have added := watchers_addTimer w interval (.callback place)
    unfold timerAs
    dsimp only
    split
    · exact (h.of_watchers added).of_watchers (watchers_cancelTimer _ _)
    · exact h.of_watchers added
  | retract labelled => exact h.retract _
  | unregister _ id =>
    unfold World.unregister
    split
    · exact h
    · refine Once.dispose ?_ _
      exact h
  | @enrol _ rule enabled free there =>
    have seated : Once (w.seated rule) := h
    exact seated.wireAll w.registrations.length rule.id rule.triggers
  | disposeAll =>
    refine Once.disposeEach ?_ _
    exact h
  | dropEngine =>
    refine Once.disposeEach ?_ _
    exact h

/-- **Every history** leaves watchers subscribed once. -/
theorem Once.after (h : Once w) (exec : Executor) (moves : List Move) : Once (w.after exec moves) := by
  refine after_induct (fun v m once => ?_) h moves
  have works := works_move exec v m
  generalize v.move exec m = later at works
  induction works with
  | refl => exact once
  | tail _ last ih => exact ih.work last

/-- In an empty world **nobody is subscribed**. -/
theorem once_empty (wallClock : Timestamp) : Once (empty wallClock) := by
  intro x member
  cases member

/-! ## 3. Who hears a name -/

/-- Among the **handlers of a name**, every watcher is listed once. -/
theorem Once.handlers (h : Once w) (accounts : Accounts w) (name : String) :
    (w.bus.handlers name).Pairwise fun first later =>
      ∀ place, first = .watcher place → later ≠ .watcher place := by
  have ordered : w.bus.subscribers.Pairwise fun s t => s.id < t.id := by
    have board := accounts.ordered .bus
    rw [World.board, List.pairwise_map] at board
    exact board
  refine List.pairwise_map.mpr (List.Pairwise.imp_of_mem ?_ (ordered.filter _))
  intro s t first later less place watches again
  obtain ⟨there, named⟩ := List.mem_filter.mp first
  obtain ⟨there', named'⟩ := List.mem_filter.mp later
  obtain ⟨x, found, known⟩ := (accounts.heard s there place).mp watches
  obtain ⟨x', found', known'⟩ := (accounts.heard t there' place).mp again
  obtain rfl : x = x' := Option.some.inj (found.symm.trans found')
  -- both are the one subscription that the watcher has under the name
  have same : (s.name, s.id) = (t.name, t.id) :=
    List.inj_on_of_nodup_map (h x (List.mem_of_getElem? found)) known known'
      ((of_decide_eq_true named).trans (of_decide_eq_true named').symm)
  exact absurd (Prod.mk.inj same).2 (Nat.ne_of_lt less)

end World

end RuleDispatch
