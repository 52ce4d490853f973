import RuleDispatch.Proofs.Guises.Basic

/-! # The engine in another guise

The engine looks at the store only through the conditions of the rule that is proposed for firing, and at
nothing else that a guise changes. So it fires, wires, registers and disposes of rules in the same way in
every guise in which the rules read the same.

* `World.under_fire` — a rule proposed for firing.
* `World.under_wireAll`, `World.under_dispose` — what rules install, and its taking back.
* `World.under_register`, `World.under_unregister` — rules put in and taken out. -/

namespace RuleDispatch.World

variable (g : Guise) (w : World)

/-! ## 1. Rules fired -/

/-- **Making a run yield** is the same in every guise. -/
theorem under_preempt (rule : String) (run : Option Nat) :
    (w.preempt rule run).under g = (w.under g).preempt rule run := by
  cases run with
  | none => rfl
  | some id =>
    unfold preempt
    rw [under_cancelRun, under_note g _ rfl]

/-- **Making a run yield** starts no run. -/
theorem nextRun_preempt (rule : String) (run : Option Nat) :
    (w.preempt rule run).nextRun = w.nextRun := by
  cases run with
  | none => rfl
  | some id =>
    unfold preempt cancelRun wake
    dsimp only
    split
    · split <;> rfl
    · rfl

/-- **Starting a run of a rule** is the same in every guise that spares the run. -/
theorem under_startRun (index : Nat) (r : Registration) (spares : g.Spares w.nextRun) :
    (w.startRun index r).under g = (w.under g).startRun index r := by
  unfold startRun
  dsimp only
  rw [under_spawn, under_note g _ rfl, under_modifyRegistration, ← under_preempt]
  · rfl
  · show g.Spares (w.preempt _ _).nextRun
    rw [nextRun_preempt]
    exact spares

/-- **Firing a rule** is the same in every guise in which the rules read the same. -/
theorem under_fire (index : Nat) (spares : g.Spares w.nextRun) (reads : w.ReadsAlike g) :
    (w.fire index).under g = (w.under g).fire index := by
  unfold fire
  rw [registrations_under]
  cases found : w.registrations[index]? with
  | none => rfl
  | some r =>
    dsimp only
    by_cases disposed : r.disposed = true
    · rw [if_pos disposed, if_pos disposed]
    · rw [if_neg disposed, if_neg disposed,
        reads r (List.mem_of_getElem? found) (Bool.eq_false_iff.mpr disposed)]
      split_ifs
      · exact under_note g w rfl
      · exact under_note g w rfl
      · exact under_startRun g w index r spares

/-! ## 2. Timers and watchers -/

/-- **Putting in a timer** is the same in every guise. -/
theorem under_addTimer (interval : Nat) (target : Target) :
    (w.addTimer interval target).under g = (w.under g).addTimer interval target := by
  have noted := under_note g w (n := .intervalZero) rfl
  unfold addTimer
  dsimp only
  split_ifs
  · rw [← noted]
    rfl
  · rfl

/-- **Cancelling a timer** is the same in every guise. -/
theorem under_cancelTimer (index : Nat) :
    (w.cancelTimer index).under g = (w.under g).cancelTimer index := by
  unfold cancelTimer
  by_cases active : w.timerActive index = true
  · rw [if_pos active, if_pos (show (w.under g).timerActive index = true from active),
      under_note g _ rfl]
    rfl
  · rw [if_neg active, if_neg (show ¬ (w.under g).timerActive index = true from active)]

/-- A **new watcher** has not seen anything yet, so it does not change. -/
theorem under_addWatcher (sequence : List String) (withinMs : UInt64) (target : Target) :
    (w.addWatcher sequence withinMs target).under g
      = (w.under g).addWatcher sequence withinMs target := by
  have fresh : Watcher.under g
      { matcher := .fresh sequence withinMs, target
        subscriptions := numbered w.bus.nextId sequence.eraseDups }
        = { matcher := .fresh sequence withinMs, target
            subscriptions := numbered w.bus.nextId sequence.eraseDups } := by
    rw [Watcher.under, g.matcher_fresh]
  simp only [addWatcher, under, List.map_append, List.map_singleton, fresh, List.length_map]

/-- **Disposing of a watcher** is the same in every guise. -/
theorem under_disposeWatcher (index : Nat) :
    (w.disposeWatcher index).under g = (w.under g).disposeWatcher index := by
  unfold disposeWatcher
  rw [watchers_under, List.getElem?_map]
  cases w.watchers[index]? with
  | none => rfl
  | some watcher =>
    have closed := under_modifyWatcher g w index
      (f := fun x => { x with disposed := true, subscriptions := [] })
      (k := fun x => { x with disposed := true, subscriptions := [] }) fun _ => rfl
    exact congrArg (·.unsubscribeAll watcher.subscriptions) closed

/-! ## 3. What rules install -/

/-- **Wiring a trigger** is the same in every guise. -/
theorem under_wire (index : Nat) (rule : String) (trigger : Trigger) :
    ((w.wire index rule trigger).1.under g, (w.wire index rule trigger).2)
      = (w.under g).wire index rule trigger := by
  cases trigger with
  | event | threshold => rfl
  | schedule ms => exact Prod.ext (under_addTimer g w _ _) rfl
  | pattern sequence withinMs =>
    exact Prod.ext (under_addWatcher g w sequence withinMs _)
      (congrArg (fun place => some (Subscription.pattern place)) (List.length_map _).symm)
  | unknown => exact Prod.ext (under_note g w rfl) rfl

/-- **Wiring triggers** is the same in every guise. -/
theorem under_wireAll (index : Nat) (rule : String) (triggers : List Trigger) :
    ((w.wireAll index rule triggers).1.under g, (w.wireAll index rule triggers).2)
      = (w.under g).wireAll index rule triggers := by
  induction triggers generalizing w with
  | nil => rfl
  | cons trigger rest ih =>
    have first := under_wire g w index rule trigger
    have later := ih (w.wire index rule trigger).1
    simp only [wireAll, ← first, ← later]

/-- **Taking a subscription back** is the same in every guise. -/
theorem under_retract (s : Subscription) : (w.retract s).under g = (w.under g).retract s := by
  cases s with
  | event | threshold => rfl
  | timer index => exact under_cancelTimer g w index
  | pattern watcher => exact under_disposeWatcher g w watcher

/-- **Taking subscriptions back** is the same in every guise. -/
theorem under_foldl_retract (subscriptions : List Subscription) :
    (subscriptions.foldl retract w).under g = subscriptions.foldl retract (w.under g) := by
  induction subscriptions generalizing w with
  | nil => rfl
  | cons s rest ih => rw [List.foldl_cons, ih, under_retract, List.foldl_cons]

/-- **Disposing of a rule** is the same in every guise. -/
theorem under_dispose (index : Nat) : (w.dispose index).under g = (w.under g).dispose index := by
  unfold dispose
  rw [registrations_under]
  cases w.registrations[index]? with
  | none => rfl
  | some r =>
    dsimp only
    split_ifs
    · rfl
    · rw [under_note g _ rfl, under_foldl_retract]
      rfl

/-! ## 4. Rules put in and taken out -/

/-- **Disposing of rules** is the same in every guise. -/
theorem under_disposeEach (rules : Keyed Nat) :
    (w.disposeEach rules).under g = (w.under g).disposeEach rules := by
  unfold disposeEach
  induction rules generalizing w with
  | nil => rfl
  | cons rule rest ih => rw [List.foldl_cons, ih, under_dispose, List.foldl_cons]

/-- **Shutting down** is the same in every guise. -/
theorem under_disposeAll : w.disposeAll.under g = (w.under g).disposeAll :=
  under_disposeEach g _ _

/-- **Dropping the engine** is the same in every guise. -/
theorem under_dropEngine : w.dropEngine.under g = (w.under g).dropEngine :=
  under_disposeEach g _ _

/-- **Unregistering a rule** is the same in every guise. -/
theorem under_unregister (id : String) :
    (w.unregister id).under g = (w.under g).unregister id := by
  have same : (w.under g).ruleIndex? id = w.ruleIndex? id := rfl
  unfold unregister
  rw [same]
  cases w.ruleIndex? id with
  | none => rfl
  | some index => exact under_dispose g _ index

/-- **Putting a rule in** is the same in every guise. -/
theorem under_enrol (rule : Rule) : (w.enrol rule).under g = (w.under g).enrol rule := by
  let seated : World := { w with registrations := w.registrations ++ [({ rule } : Registration)] }
  let settled (u : World × List Subscription) : World :=
    { (u.1.modifyRegistration w.registrations.length fun r => { r with subscriptions := u.2 }).note
        (.ruleRegistered u.2.length) with
      engine := u.1.engine.map (Keyed.put rule.id w.registrations.length) }
  have later (u : World × List Subscription) : (settled u).under g = settled (u.1.under g, u.2) := by
    have noted := g.log_cons u.1.now (.note (.ruleRegistered u.2.length)) u.1.log rfl
    simp only [settled, under, modifyRegistration, note, record, noted]
  calc (w.enrol rule).under g
      = (settled (seated.wireAll w.registrations.length rule.id rule.triggers)).under g := rfl
    _ = settled ((seated.under g).wireAll w.registrations.length rule.id rule.triggers) := by
      rw [later, under_wireAll]
    _ = (w.under g).enrol rule := rfl

/-- **Registering a rule** is the same in every guise. -/
theorem under_register (rule : Rule) :
    (w.register rule).under g = (w.under g).register rule := by
  have known : (w.under g).ruleIndex? rule.id = w.ruleIndex? rule.id := rfl
  unfold register
  dsimp only
  rw [known, ← under_unregister]
  split_ifs
  · rw [under_enrol, under_note g _ rfl]
  · exact under_enrol g _ rule
  · rw [under_note g _ rfl, under_note g _ rfl]
  · exact under_note g _ rfl

/-- **Registering rules** is the same in every guise. -/
theorem under_registerAll (rules : List Rule) :
    (w.registerAll rules).under g = (w.under g).registerAll rules := by
  unfold registerAll
  induction rules generalizing w with
  | nil => rfl
  | cons rule rest ih => rw [List.foldl_cons, ih, under_register, List.foldl_cons]

/-- **Recording entries that are left out** is the same in every guise. -/
theorem under_foldl_skipped (skipped : List Skipped) :
    (skipped.foldl (fun w s => w.record (.skipped s)) w).under g
      = skipped.foldl (fun w s => w.record (.skipped s)) (w.under g) := by
  induction skipped generalizing w with
  | nil => rfl
  | cons s rest ih => rw [List.foldl_cons, ih, under_record g w rfl, List.foldl_cons]

/-! ## 5. Handles -/

/-- **A watcher under a label** is the same in every guise. -/
theorem under_watchAs (label : String) (sequence : List String) (withinMs : UInt64)
    (target : Target) :
    (w.watchAs label sequence withinMs target).under g
      = (w.under g).watchAs label sequence withinMs target := by
  have added := under_addWatcher g w sequence withinMs target
  have place : (w.under g).watchers.length = w.watchers.length := List.length_map _
  unfold watchAs
  dsimp only
  rw [labels_under, place, ← added]
  cases w.labels.watchers.lookup label with
  | none => rfl
  | some index => exact under_disposeWatcher g _ index

end RuleDispatch.World
