import RuleDispatch.Proofs.Disposal.Wiring
import RuleDispatch.Proofs.Fittings

/-! # Every move keeps the wiring sound

The wiring is part of the fittings. Every piece of work on these subscribes callbacks, takes
subscriptions back, or puts rules in and takes them out, all of which keeps the wiring sound.

* `World.wiring` — the wiring of a world.
* `World.rewires_work` — every piece of work keeps it sound.
* `World.rewires_move`, `World.rewires_after` — so does every move, and every history. -/

namespace RuleDispatch

namespace World

open Wiring (Rewires)

/-- The wiring **of a world**. -/
def wiring (w : World) : Wiring where
  bus := w.bus
  targets := w.watchers.map (·.target)
  labelled := w.labels.subscriptions
  rules := w.registrations.map (·.rule)

/-- What leaves the fittings alone leaves the wiring alone. -/
theorem wiring_congr {w w' : World} (same : w'.fittings = w.fittings) : w'.wiring = w.wiring := by
  have read (v : World) : v.wiring
      = ⟨v.fittings.bus, v.fittings.watchers.map (·.target), v.fittings.labels.subscriptions,
          v.fittings.registrations.map (·.rule)⟩ := by
    simp only [wiring, fittings, rack, List.map_map]
    rfl
  rw [read w', same, ← read w]

@[simp] theorem wiring_respond (w : World) (answer : Answer) :
    (w.respond answer).wiring = w.wiring := rfl

/-- **Putting in a timer** leaves the wiring. -/
@[simp] theorem wiring_addTimer (w : World) (interval : Nat) (target : Target) :
    (w.addTimer interval target).wiring = w.wiring := by
  unfold addTimer
  split <;> rfl

/-- **Cancelling a timer** leaves the wiring. -/
@[simp] theorem wiring_cancelTimer (w : World) (index : Nat) :
    (w.cancelTimer index).wiring = w.wiring := by
  unfold cancelTimer
  split <;> rfl

/-- **A timer with a label** leaves the wiring. -/
@[simp] theorem wiring_timerAs (w : World) (label : String) (interval : Nat) (target : Target) :
    (w.timerAs label interval target).wiring = w.wiring := by
  unfold timerAs
  dsimp only
  rw [wiring_respond]
  split
  · rw [wiring_cancelTimer]
    exact wiring_addTimer w interval target
  · exact wiring_addTimer w interval target

/-- Changing a registration leaves the wiring alone **if the rule stays**. -/
theorem wiring_modifyRegistration (w : World) (index : Nat) {f : Registration → Registration}
    (h : ∀ r, (f r).rule = r.rule) : (w.modifyRegistration index f).wiring = w.wiring := by
  simp only [wiring, modifyRegistration, map_modify_eq w.registrations index fun r _ => h r]

/-! ## 1. Rules put in and taken out -/

/-- What **leaves the wiring** keeps it sound. -/
theorem rewires_of_eq {w w' : World} (same : w'.wiring = w.wiring) : Rewires w.wiring w'.wiring :=
  same ▸ Rewires.refl _

/-- Taking a subscription back takes it **out of the list**. -/
theorem sublist_unsubscribe {α : Type} (b : Bus α) (name : String) (id : Nat) :
    (b.unsubscribe name id).subscribers.Sublist b.subscribers :=
  List.filter_sublist

/-- **Unsubscribing** keeps the wiring sound. -/
theorem rewires_unsubscribeAll (w : World) (subscriptions : List (String × Nat)) :
    Rewires w.wiring (w.unsubscribeAll subscriptions).wiring := by
  have less (b : Bus Handler) :
      (subscriptions.foldl (fun bus s => bus.unsubscribe s.1 s.2) b).subscribers.Sublist
        b.subscribers := by
    induction subscriptions generalizing b with
    | nil => exact List.Sublist.refl _
    | cons s rest ih => exact (ih _).trans (sublist_unsubscribe b s.1 s.2)
  exact @Wiring.rewires_of_sublist w.wiring _ (less w.bus)

/-- **Disposing of a watcher** takes its subscriptions back. -/
theorem rewires_disposeWatcher (w : World) (index : Nat) :
    Rewires w.wiring (w.disposeWatcher index).wiring := by
  unfold disposeWatcher
  split
  · exact .refl _
  · have targets := map_modify_eq (g := (·.target)) w.watchers index
      (f := fun x => { x with disposed := true, subscriptions := [] }) fun _ _ => rfl
    refine Rewires.trans (rewires_of_eq ?_) (rewires_unsubscribeAll _ _)
    simp only [wiring, targets]

/-- **Taking a subscription back** keeps the wiring sound. -/
theorem rewires_retract (w : World) (s : Subscription) : Rewires w.wiring (w.retract s).wiring := by
  cases s with
  | event name id => exact @Wiring.rewires_of_sublist w.wiring _ (sublist_unsubscribe w.bus name id)
  | timer index => exact rewires_of_eq (wiring_cancelTimer w index)
  | threshold id => exact .refl _
  | pattern watcher => exact rewires_disposeWatcher w watcher

/-- **Disposing of a rule** takes what it installed back. -/
theorem rewires_dispose (w : World) (index : Nat) : Rewires w.wiring (w.dispose index).wiring := by
  have each (v : World) (subscriptions : List Subscription) :
      Rewires v.wiring (subscriptions.foldl retract v).wiring := by
    induction subscriptions generalizing v with
    | nil => exact .refl _
    | cons s rest ih => exact (rewires_retract v s).trans (ih _)
  unfold dispose
  split
  · exact .refl _
  · next r _ =>
    have marked := rewires_of_eq (wiring_modifyRegistration w index
      (f := fun r => { r with disposed := true, subscriptions := [] }) fun _ => rfl)
    dsimp only
    split_ifs
    · exact marked
    · exact marked.trans (each _ r.subscriptions)

/-- **Disposing of rules** keeps the wiring sound. -/
theorem rewires_disposeEach (w : World) (rules : Keyed Nat) :
    Rewires w.wiring (w.disposeEach rules).wiring := by
  unfold disposeEach
  induction rules generalizing w with
  | nil => exact .refl _
  | cons rule rest ih => exact (rewires_dispose w rule.2).trans (ih _)

/-- **Unregistering a rule** keeps the wiring sound. -/
theorem rewires_unregister (w : World) (id : String) :
    Rewires w.wiring (w.unregister id).wiring := by
  unfold unregister
  split
  · exact .refl _
  · next index _ => exact rewires_dispose { w with engine := w.engine.map (Keyed.remove id) } index

/-- What a trigger needs is **installed in the wiring**. -/
theorem wiring_wire (w : World) (index : Nat) (rule : String) (trigger : Trigger) :
    (w.wire index rule trigger).1.wiring = w.wiring.install index trigger := by
  cases trigger with
  | event name => rfl
  | threshold entity bounds => rfl
  | schedule intervalMs => exact wiring_addTimer w _ _
  | pattern sequence withinMs =>
    simp [wire, wiring, addWatcher, Wiring.install, Wiring.watch]
  | unknown => rfl

/-- **Wiring triggers** installs them one after another. -/
theorem wiring_wireAll (w : World) (index : Nat) (rule : String) (triggers : List Trigger) :
    (w.wireAll index rule triggers).1.wiring = triggers.foldl (Wiring.install index) w.wiring := by
  induction triggers generalizing w with
  | nil => rfl
  | cons trigger rest ih =>
    rw [List.foldl_cons, ← wiring_wire w index rule]
    exact ih _

/-- **Putting a rule in** seats it in the wiring. -/
theorem wiring_enrol (w : World) (rule : Rule) : (w.enrol rule).wiring = w.wiring.seat rule := by
  let seated : World := { w with registrations := w.registrations ++ [({ rule } : Registration)] }
  have stored (v : World) (subscriptions : List Subscription) :
      (v.modifyRegistration w.registrations.length fun r => { r with subscriptions }).wiring
        = v.wiring :=
    wiring_modifyRegistration v _ fun _ => rfl
  have first : seated.wiring = { w.wiring with rules := w.wiring.rules ++ [rule] } := by
    simp [seated, wiring]
  have length : w.wiring.rules.length = w.registrations.length := List.length_map _
  calc (w.enrol rule).wiring
      = ((seated.wireAll w.registrations.length rule.id rule.triggers).1.modifyRegistration
          w.registrations.length fun r => { r with subscriptions :=
            (seated.wireAll w.registrations.length rule.id rule.triggers).2 }).wiring := rfl
    _ = w.wiring.seat rule := by
      rw [stored, wiring_wireAll, first, Wiring.seat, length]

/-! ## 2. Work and moves -/

/-- A **new watcher** under a label calls a callback. -/
theorem rewires_watchAs (w : World) (label : String) (sequence : List String) (withinMs : UInt64)
    (place : Nat) : Rewires w.wiring (w.watchAs label sequence withinMs (.callback place)).wiring := by
  have first : (w.addWatcher sequence withinMs (.callback place)).wiring
      = w.wiring.watch sequence (.callback place) := by
    simp [addWatcher, wiring, Wiring.watch]
  have watched : Rewires w.wiring (w.addWatcher sequence withinMs (.callback place)).wiring := by
    rw [first]
    exact Wiring.rewires_watch_callback w.wiring sequence place
  have disposed (v : World) (watchers : Keyed Nat) (index : Nat) :
      Rewires v.wiring
        (disposeWatcher { v with labels := { v.labels with watchers } } index).wiring :=
    rewires_disposeWatcher { v with labels := { v.labels with watchers } } index
  unfold watchAs
  dsimp only
  split
  · exact watched.trans (disposed _ _ _)
  · exact watched

/-- **Every piece of work** keeps the wiring sound. -/
theorem rewires_work {outside : Bool} {w w' : World} (work : Work outside w w') :
    Rewires w.wiring w'.wiring := by
  cases work with
  | quiet same => exact rewires_of_eq (wiring_congr same)
  | @subscribe w label name handler lends =>
    refine @Wiring.rewires_subscribe_callback w.wiring name label w.bus.nextId handler fun sound => ?_
    rcases lends with callback | ⟨held, member, rfl⟩
    · exact callback
    · exact sound.labelled held member
  | listenNumber | listenText | letGoWatcher | letGoTimer => exact .refl _
  | watch _ label sequence withinMs place => exact rewires_watchAs w label sequence withinMs place
  | timer _ label interval place => exact rewires_of_eq (wiring_timerAs w label interval _)
  | @retract w s labelled => exact rewires_retract w s
  | unregister _ id => exact rewires_unregister w id
  | @enrol w rule enabled free there =>
    rw [wiring_enrol]
    exact Wiring.rewires_seat w.wiring rule
  | disposeAll =>
    exact rewires_disposeEach { w with engine := w.engine.map fun _ => [] } (w.engine.getD [])
  | dropEngine => exact rewires_disposeEach { w with engine := none } (w.engine.getD [])

/-- **Every piece of work** keeps the wiring sound. -/
theorem rewires_works {outside : Bool} {w w' : World} (works : Works outside w w') :
    Rewires w.wiring w'.wiring := by
  induction works with
  | refl => exact .refl _
  | tail _ last ih => exact ih.trans (rewires_work last)

/-- **Every move** keeps the wiring sound. -/
theorem rewires_move (exec : Executor) (w : World) (m : Move) :
    Rewires w.wiring (w.move exec m).wiring :=
  rewires_works (works_move exec w m)

/-- So does every history. -/
theorem rewires_after (exec : Executor) (w : World) (moves : List Move) :
    Rewires w.wiring (w.after exec moves).wiring := by
  induction moves generalizing w with
  | nil => exact .refl _
  | cons m moves ih => exact (rewires_move exec w m).trans (ih _)

/-- Where nothing is wired yet, nothing is wired wrongly. -/
theorem sound_wiring_empty (wallClock : Timestamp) : (empty wallClock).wiring.Sound where
  placed _ member := by cases member
  labelled _ member := by cases member
  aimed _ _ := Nat.zero_le _

end World

end RuleDispatch
