import RuleDispatch.Proofs.Backdrops.Basic

/-! # The engine against another backdrop

The engine never looks at what is to be done later or was recorded before, nor at what a run has left to
do. So it fires, wires, registers and disposes of rules in the same way against every backdrop that spares the
run that it starts.

* `World.against_fire` — a rule proposed for firing.
* `World.against_dispose`, `World.against_register` — rules put in and taken out.
* `World.against_watchAs`, `World.against_timerAs`, `World.against_load` — what operations ask for. -/

namespace RuleDispatch.World

variable (s : Backdrop) (w : World)

/-! ## 1. Rules fired -/

/-- **A run that has to give way** does so against every backdrop. -/
theorem against_preempt (rule : String) (run : Option Nat) :
    (w.preempt rule run).against s = (w.against s).preempt rule run := by
  cases run with
  | none => rfl
  | some id => exact against_cancelRun s (w.note (.runCancelled rule)) id

/-- Giving way **starts no run**. -/
theorem preempt_nextRun (rule : String) (run : Option Nat) :
    (w.preempt rule run).nextRun = w.nextRun := by
  cases run with
  | none => rfl
  | some id =>
    unfold preempt cancelRun wake
    dsimp only
    split_ifs <;> rfl

/-- **Starting a run of a rule** is the same against a backdrop that spares the run. -/
theorem against_startRun (index : Nat) (r : Registration) (spares : s.Spares w.nextRun) :
    (w.startRun index r).against s = (w.against s).startRun index r := by
  unfold startRun
  dsimp only
  rw [against_spawn, ← against_preempt]
  · rfl
  · show s.Spares (w.preempt _ _).nextRun
    rw [preempt_nextRun]
    exact spares

/-- **Firing a rule** is the same against every backdrop that spares the run that it may start. -/
theorem against_fire (index : Nat) (spares : s.Spares w.nextRun) :
    (w.fire index).against s = (w.against s).fire index := by
  unfold fire
  rw [show (w.against s).registrations = w.registrations from rfl,
    show (w.against s).store = w.store from rfl]
  cases w.registrations[index]? with
  | none => rfl
  | some r =>
    dsimp only
    split_ifs
    · rfl
    · rfl
    · rfl
    · exact against_startRun s w index r spares

/-! ## 2. Timers and watchers -/

/-- **Putting in a timer** is the same against every backdrop. -/
theorem against_addTimer (interval : Nat) (target : Target) :
    (w.addTimer interval target).against s = (w.against s).addTimer interval target := by
  unfold addTimer
  split_ifs <;> rfl

/-- **Cancelling a timer** is the same against every backdrop. -/
theorem against_cancelTimer (index : Nat) :
    (w.cancelTimer index).against s = (w.against s).cancelTimer index := by
  unfold cancelTimer
  rw [show (w.against s).timerActive index = w.timerActive index from rfl]
  split_ifs <;> rfl

/-- **Disposing of a watcher** is the same against every backdrop. -/
theorem against_disposeWatcher (index : Nat) :
    (w.disposeWatcher index).against s = (w.against s).disposeWatcher index := by
  unfold disposeWatcher
  rw [show (w.against s).watchers = w.watchers from rfl]
  cases w.watchers[index]? <;> rfl

/-! ## 3. What rules install -/

/-- **Wiring a trigger** is the same against every backdrop, and gives the same subscription. -/
theorem against_wire (index : Nat) (rule : String) (trigger : Trigger) :
    ((w.wire index rule trigger).1.against s, (w.wire index rule trigger).2)
      = (w.against s).wire index rule trigger := by
  cases trigger with
  | event | threshold | pattern | unknown => rfl
  | schedule ms => exact Prod.ext (against_addTimer s w _ _) rfl

/-- **Wiring several triggers** is the same against every backdrop, and gives the same subscriptions. -/
theorem against_wireAll (index : Nat) (rule : String) (triggers : List Trigger) :
    ((w.wireAll index rule triggers).1.against s, (w.wireAll index rule triggers).2)
      = (w.against s).wireAll index rule triggers := by
  induction triggers generalizing w with
  | nil => rfl
  | cons trigger rest ih =>
    have first := against_wire s w index rule trigger
    have later := ih (w.wire index rule trigger).1
    simp only [wireAll, ← first, ← later]

/-- **Taking a subscription back** is the same against every backdrop. -/
theorem against_retract (subscription : Subscription) :
    (w.retract subscription).against s = (w.against s).retract subscription := by
  cases subscription with
  | event | threshold => rfl
  | timer index => exact against_cancelTimer s w index
  | pattern watcher => exact against_disposeWatcher s w watcher

/-- **Disposing of a rule** is the same against every backdrop. -/
theorem against_dispose (index : Nat) : (w.dispose index).against s = (w.against s).dispose index := by
  unfold dispose
  rw [show (w.against s).registrations = w.registrations from rfl]
  cases w.registrations[index]? with
  | none => rfl
  | some r =>
    dsimp only
    split_ifs
    · rfl
    · rw [against_note, against_foldl s _ (against_retract s)]
      rfl

/-! ## 4. Rules put in and taken out -/

/-- **Disposing of several rules** is the same against every backdrop. -/
theorem against_disposeEach (rules : Keyed Nat) :
    (w.disposeEach rules).against s = (w.against s).disposeEach rules :=
  against_foldl s w (f := fun w (entry : String × Nat) => w.dispose entry.2)
    (fun w entry => against_dispose s w entry.2) rules

/-- **Unregistering** is the same against every backdrop. -/
theorem against_unregister (id : String) : (w.unregister id).against s = (w.against s).unregister id := by
  unfold unregister
  rw [show (w.against s).ruleIndex? id = w.ruleIndex? id from rfl]
  cases w.ruleIndex? id with
  | none => rfl
  | some index => exact against_dispose s { w with engine := w.engine.map (Keyed.remove id) } index

/-- **Putting a rule in** is the same against every backdrop. -/
theorem against_enrol (rule : Rule) : (w.enrol rule).against s = (w.against s).enrol rule := by
  let seated : World := { w with registrations := w.registrations ++ [({ rule } : Registration)] }
  let settled (u : World × List Subscription) : World :=
    { (u.1.modifyRegistration w.registrations.length fun r => { r with subscriptions := u.2 }).note
        (.ruleRegistered u.2.length) with
      engine := u.1.engine.map (Keyed.put rule.id w.registrations.length) }
  have wired := congrArg settled
    (against_wireAll s seated w.registrations.length rule.id rule.triggers)
  exact wired

/-- **Registering a rule** is the same against every backdrop. -/
theorem against_register (rule : Rule) : (w.register rule).against s = (w.against s).register rule := by
  unfold register
  dsimp only
  rw [show (w.against s).ruleIndex? rule.id = w.ruleIndex? rule.id from rfl, ← against_unregister]
  split_ifs
  · rw [against_enrol, against_note]
  · exact against_enrol s _ rule
  · rfl
  · rfl

/-! ## 5. Handles and documents -/

/-- **A watcher under a label** is the same against every backdrop. -/
theorem against_watchAs (label : String) (sequence : List String) (withinMs : UInt64) (target : Target) :
    (w.watchAs label sequence withinMs target).against s
      = (w.against s).watchAs label sequence withinMs target := by
  unfold watchAs
  dsimp only
  rw [show (w.against s).labels = w.labels from rfl]
  cases w.labels.watchers.lookup label with
  | none => rfl
  | some index => exact against_disposeWatcher s _ index

/-- **A timer under a label** is answered in the same way against every backdrop. -/
theorem against_timerAs (label : String) (interval : Nat) (target : Target) :
    (w.timerAs label interval target).against s.answered
      = (w.against s).timerAs label interval target := by
  have added := against_addTimer s w interval target
  unfold timerAs
  dsimp only
  rw [← added, show (w.against s).labels = w.labels from rfl]
  cases w.labels.timers.lookup label with
  | none => rfl
  | some index =>
    exact congrArg (fun u : World => u.respond (.flag (u.timerActive w.timers.length)))
      (against_cancelTimer s _ index)

/-- **The rules of a document** are registered in the same way against every backdrop. -/
theorem against_load (document : String) :
    (w.load document).against s.answered = (w.against s).load document := by
  unfold load
  cases Batch.read document with
  | error fault => rfl
  | ok batch =>
    have skipped := against_foldl s w (f := fun w (entry : Skipped) => w.record (.skipped entry))
      (fun _ _ => rfl) batch.skipped
    dsimp only
    rw [against_respond, registerAll, against_foldl s _ (against_register s), skipped]
    rfl

end RuleDispatch.World
