import RuleDispatch.Proofs.Dispatch.Edits

/-! # Where edits come from

Few operations write a value, and few put rules in; all other edits only move subscriptions and listeners
about. So what holds of every such edit, of what an operation writes, and of the thresholds of the rules
that it puts in, holds of all edits that it makes.

* `Operation.writes`, `Operation.rules` — what an operation writes itself, and the rules that it puts in.
* `Edit.Moving` — what holds of every edit that only moves something about.
* `Edits.all_perform` — what holds of all edits of an operation. -/

namespace RuleDispatch

/-- The edits with which an operation **writes values** itself. -/
def Operation.writes : Operation → List Edit
  | .setNumber key value => [.setNumber key value]
  | .setText key value => [.setText key value]
  | .line text => Edits.line text
  | .subscribe _ _ _ | .subscribeAgain _ _ _ | .unsubscribe _ _ | .emit _ _ _ | .subscribers _
  | .get _ | .listenNumber _ _ | .listenText _ _ | .unlisten _ | .listeners | .watch _ _ _ _
  | .watchDispose _ | .watchState _ | .watchDrop _ | .timer _ _ _ | .timerCancel _ | .timerActive _
  | .timerDrop _ | .run _ _ | .cancel _ | .isCancelled _ | .console _ | .describe _ | .register _
  | .load _ | .unregister _ | .trigger _ | .ruleIds | .isRunning _ | .disposeAll | .dropEngine => []

/-- The rules that an operation **puts in**, if it puts in any. -/
def Operation.rules : Operation → List Rule
  | .register (some rule) => [rule]
  | .load document => ((Batch.read document).toOption.map Batch.rules).getD []
  | .subscribe _ _ _ | .subscribeAgain _ _ _ | .unsubscribe _ _ | .emit _ _ _ | .subscribers _
  | .setNumber _ _ | .setText _ _ | .get _ | .listenNumber _ _ | .listenText _ _ | .unlisten _
  | .listeners | .watch _ _ _ _ | .watchDispose _ | .watchState _ | .watchDrop _ | .timer _ _ _
  | .timerCancel _ | .timerActive _ | .timerDrop _ | .run _ _ | .cancel _ | .isCancelled _ | .line _
  | .console _ | .describe _ | .register none | .unregister _ | .trigger _ | .ruleIds | .isRunning _
  | .disposeAll | .dropEngine => []

/-- Something that holds of **every edit that only moves** subscriptions and the listeners of callbacks
about. -/
structure Edit.Moving (P : Edit → Prop) : Prop where
  subscribe : ∀ name handler, P (.subscribe name handler)
  unsubscribe : ∀ name id, P (.unsubscribe name id)
  listenNumber : ∀ callback, P (.listenNumber (.callback callback))
  listenText : ∀ callback, P (.listenText callback)
  unlisten : ∀ id, P (.unlisten id)

/-- Something that holds of the listeners for **all thresholds of a rule**. -/
def Rule.Wires (P : Edit → Prop) (rule : Rule) : Prop :=
  ∀ place entity bounds, Trigger.threshold entity bounds ∈ rule.triggers →
    P (.listenNumber (.threshold place entity bounds))

namespace Edits

/-- Something holds **of all** of some edits. -/
def All (P : Edit → Prop) (es : List Edit) : Prop :=
  ∀ e ∈ es, P e

variable {P : Edit → Prop} {es more : List Edit}

/-- **No edits** are of any kind. -/
theorem all_nil : All P [] := nofun

/-- Edits of a kind, **one list after another**, are of the kind. -/
theorem All.append (h : All P es) (h' : All P more) : All P (es ++ more) := fun e member =>
  (List.mem_append.mp member).elim (h e) (h' e)

/-- **One edit more** of a kind. -/
theorem All.cons {e : Edit} (h : P e) (h' : All P es) : All P (e :: es) :=
  List.forall_mem_cons.mpr ⟨h, h'⟩

/-- Edits that are made **if a label holds something** are of a kind if they always are. -/
theorem all_elim {α : Type} {edits : α → List Edit} (h : ∀ a, All P (edits a)) (held : Option α) :
    All P (held.elim [] edits) := by
  cases held with
  | none => exact all_nil
  | some a => exact h a

/-- Edits that are made **under a condition** are of a kind if they always are. -/
theorem all_ite {there : Bool} (h : All P es) : All P (if there then es else []) := by
  split_ifs
  · exact h
  · exact all_nil

/-- What is done in turn makes edits of a kind **if each act does**. -/
theorem all_inTurn {α : Type} (act : World → α → World) {edits : World → α → List Edit}
    (as : List α) (each : ∀ w, ∀ a ∈ as, All P (edits w a)) (w : World) :
    All P (inTurn act edits w as) := by
  induction as generalizing w with
  | nil => exact all_nil
  | cons a rest ih =>
    exact (each w a List.mem_cons_self).append
      (ih (fun w a member => each w a (List.mem_cons_of_mem _ member)) (act w a))

/-! ## Taking out and putting in -/

/-- A watcher that **takes its subscriptions back** makes moving edits only. -/
theorem all_withdraw (moving : Edit.Moving P) (watchers : List Watcher) (place : Nat) :
    All P (withdraw watchers place) := by
  refine all_elim (fun x e member => ?_) _
  obtain ⟨s, -, rfl⟩ := List.mem_map.mp member
  exact moving.unsubscribe s.1 s.2

/-- A watcher that **subscribes** makes moving edits only. -/
theorem all_watch (moving : Edit.Moving P) (sequence : List String) (place : Nat) :
    All P (watch sequence place) := by
  intro e member
  obtain ⟨name, -, rfl⟩ := List.mem_map.mp member
  exact moving.subscribe name (.watcher place)

/-- **Taking subscriptions back** makes moving edits only. -/
theorem all_retract (moving : Edit.Moving P) (watchers : List Watcher)
    (subscriptions : List Subscription) : All P (retract watchers subscriptions) := by
  induction subscriptions generalizing watchers with
  | nil => exact all_nil
  | cons s rest ih =>
    cases s with
    | event name id => exact .cons (moving.unsubscribe name id) (ih watchers)
    | threshold id => exact .cons (moving.unlisten id) (ih watchers)
    | timer index => exact ih watchers
    | pattern place => exact (all_withdraw moving watchers place).append (ih _)

/-- **Wiring triggers** makes moving edits, and those of the thresholds. -/
theorem all_install (moving : Edit.Moving P) (place watchers : Nat) (triggers : List Trigger)
    (thresholds : ∀ entity bounds, Trigger.threshold entity bounds ∈ triggers →
      P (.listenNumber (.threshold place entity bounds))) :
    All P (install place watchers triggers) := by
  induction triggers generalizing watchers with
  | nil => exact all_nil
  | cons trigger rest ih =>
    have ih (watchers : Nat) := ih watchers fun entity bounds member =>
      thresholds entity bounds (List.mem_cons_of_mem _ member)
    cases trigger with
    | event name => exact .cons (moving.subscribe name _) (ih watchers)
    | threshold entity bounds =>
      exact .cons (thresholds entity bounds List.mem_cons_self) (ih watchers)
    | pattern sequence withinMs => exact (all_watch moving sequence watchers).append (ih _)
    | schedule | unknown => exact ih watchers

/-- **Disposing of a rule** makes moving edits only. -/
theorem all_dispose (moving : Edit.Moving P) (w : World) (place : Nat) : All P (dispose w place) :=
  all_elim (fun (r : Registration) => all_retract moving w.watchers r.subscriptions) _

/-- **Unregistering a rule** makes moving edits only. -/
theorem all_unregister (moving : Edit.Moving P) (w : World) (id : String) :
    All P (unregister w id) :=
  all_elim (all_dispose moving w) _

/-- **Registering a rule** makes edits of a kind if its triggers do. -/
theorem all_register (moving : Edit.Moving P) (w : World) {rule : Rule} (wires : rule.Wires P) :
    All P (register w rule) :=
  (all_unregister moving w rule.id).append
    (all_ite (all_install moving _ _ rule.triggers (wires _)))

/-- **Loading a document** makes edits of a kind if the triggers of its rules do. -/
theorem all_load (moving : Edit.Moving P) (w : World) {document : String}
    (wires : ∀ rule ∈ (Operation.load document).rules, rule.Wires P) : All P (load w document) := by
  unfold load
  cases read : Batch.read document with
  | error fault => exact all_nil
  | ok batch =>
    have rules : (Operation.load document).rules = batch.rules := by
      rw [Operation.rules, read]
      rfl
    rw [rules] at wires
    exact all_inTurn _ _ (fun w rule member => all_register moving w (wires rule member)) _

/-- **Disposing of rules** makes moving edits only. -/
theorem all_disposeEach (moving : Edit.Moving P) (w : World) (engine : Option (Keyed Nat)) :
    All P (disposeEach w engine) :=
  all_inTurn _ _ (fun w entry _ => all_dispose moving w entry.2) _

/-! ## All edits of an operation -/

/-- **What holds of all edits of an operation**: what holds of those that only move something about, of
what it writes, and of the thresholds of the rules that it puts in. -/
theorem all_perform (moving : Edit.Moving P) (w : World) (op : Operation)
    (writes : All P op.writes) (wires : ∀ rule ∈ op.rules, rule.Wires P) :
    All P (perform w op) := by
  cases op with
  | setNumber | setText | line => exact writes
  | subscribe label name script => exact .cons (moving.subscribe name _) all_nil
  | listenNumber => exact .cons (moving.listenNumber _) all_nil
  | listenText => exact .cons (moving.listenText _) all_nil
  | subscribeAgain => exact all_elim (fun _ => .cons (moving.subscribe _ _) all_nil) _
  | unsubscribe => exact all_elim (fun _ => .cons (moving.unsubscribe _ _) all_nil) _
  | unlisten => exact all_elim (fun _ => .cons (moving.unlisten _) all_nil) _
  | watch label sequence withinMs script =>
    exact (all_watch moving sequence _).append (all_elim (all_withdraw moving _) _)
  | watchDispose | watchDrop => exact all_elim (all_withdraw moving _) _
  | register rule =>
    cases rule with
    | none => exact all_nil
    | some rule => exact all_ite (all_register moving w (wires rule List.mem_cons_self))
  | load document => exact all_ite (all_load moving w wires)
  | unregister id => exact all_ite (all_unregister moving w id)
  | disposeAll => exact all_ite (all_disposeEach moving w _)
  | dropEngine => exact all_ite (all_disposeEach moving w _)
  | emit | subscribers | get | listeners | watchState | timer | timerCancel | timerActive | timerDrop
  | run | cancel | isCancelled | console | describe | trigger | ruleIds | isRunning =>
    exact all_nil

end Edits

end RuleDispatch
