import Mathlib
import RuleDispatch.World.Step

/-! # The ledger of a world

Most of what the world does leaves the runs, the slots and the rules alone: it moves subscriptions,
listeners, watchers and timers, and it records. The ledger is the part of the world that such work
does not touch; what does touch it is said here once for each function.

* `World.ledger` — the clock, the rules with their slots, the runs and what is to be done.
* `ledger_…` — what one function does to the ledger. -/

namespace RuleDispatch

/-- A registration **without what it installed**. -/
def Registration.bare (r : Registration) : Registration :=
  { r with subscriptions := [] }

@[simp] theorem Registration.rule_bare (r : Registration) : r.bare.rule = r.rule := rfl

@[simp] theorem Registration.slot_bare (r : Registration) : r.bare.slot = r.slot := rfl

@[simp] theorem Registration.disposed_bare (r : Registration) : r.bare.disposed = r.disposed := rfl

/-- The **ledger**: what the runs, the slots and the rules hang on. -/
structure Ledger where
  now : Nat
  engine : Option (Keyed Nat)
  entries : List Registration
  runs : List Run
  nextRun : Nat
  calls : Nat
  ready : List Task
  stack : List Frame

/-- The run **cancelled**, if it has this number. -/
def Run.cancelIf (id : Nat) (r : Run) : Run :=
  if r.id = id then { r with cancelled := true } else r

/-- Cancelling leaves a run **its number**. -/
@[simp] theorem Run.id_cancelIf (id : Nat) (r : Run) : (r.cancelIf id).id = r.id := by
  unfold cancelIf
  split <;> rfl

/-- Cancelling leaves a run **its owner**. -/
@[simp] theorem Run.owner_cancelIf (id : Nat) (r : Run) : (r.cancelIf id).owner = r.owner := by
  unfold cancelIf
  split <;> rfl

namespace World

/-- The ledger **of a world**. -/
def ledger (w : World) : Ledger where
  now := w.now
  engine := w.engine
  entries := w.registrations.map Registration.bare
  runs := w.runs
  nextRun := w.nextRun
  calls := w.calls
  ready := w.ready
  stack := w.stack

/-- The registration **in a place**, without what it installed. -/
def held? (w : World) (index : Nat) : Option Registration :=
  (w.registrations[index]?).map Registration.bare

/-- What the ledger holds in a place is **its entry there**. -/
theorem held?_eq (w : World) (index : Nat) : w.held? index = w.ledger.entries[index]? := by
  simp [held?, ledger]

/-- What the ledger holds of a registration is **all but its subscriptions**. -/
theorem held?_of_registration {w : World} {index : Nat} {r : Registration}
    (h : w.registrations[index]? = some r) : w.held? index = some r.bare := by
  rw [held?, h, Option.map_some]

/-! ## 1. What leaves the ledger alone -/

@[simp] theorem ledger_record (w : World) (entry : Entry) : (w.record entry).ledger = w.ledger := rfl

@[simp] theorem ledger_note (w : World) (n : Note) : (w.note n).ledger = w.ledger := rfl

@[simp] theorem ledger_respond (w : World) (answer : Answer) :
    (w.respond answer).ledger = w.ledger := rfl

@[simp] theorem ledger_push (w : World) (frames : List Frame) :
    (w.push frames).ledger = { w.ledger with stack := frames ++ w.ledger.stack } := rfl

/-- **Putting in a timer** leaves the ledger. -/
@[simp] theorem ledger_addTimer (w : World) (interval : Nat) (target : Target) :
    (w.addTimer interval target).ledger = w.ledger := by
  unfold addTimer
  split <;> rfl

/-- **Cancelling a timer** leaves the ledger. -/
@[simp] theorem ledger_cancelTimer (w : World) (index : Nat) :
    (w.cancelTimer index).ledger = w.ledger := by
  unfold cancelTimer
  split <;> rfl

/-- **Disposing of a watcher** leaves the ledger. -/
@[simp] theorem ledger_disposeWatcher (w : World) (index : Nat) :
    (w.disposeWatcher index).ledger = w.ledger := by
  unfold disposeWatcher
  split <;> rfl

/-- **Wiring a trigger** leaves the ledger. -/
@[simp] theorem ledger_wire (w : World) (index : Nat) (rule : String) (trigger : Trigger) :
    (w.wire index rule trigger).1.ledger = w.ledger := by
  cases trigger <;> simp [wire] <;> rfl

/-- **Wiring triggers** leaves the ledger. -/
@[simp] theorem ledger_wireAll (w : World) (index : Nat) (rule : String)
    (triggers : List Trigger) : (w.wireAll index rule triggers).1.ledger = w.ledger := by
  induction triggers generalizing w with
  | nil => rfl
  | cons trigger rest ih => simp [wireAll, ih]

/-- **Taking a subscription back** leaves the ledger. -/
@[simp] theorem ledger_retract (w : World) (s : Subscription) :
    (w.retract s).ledger = w.ledger := by
  cases s <;> simp [retract] <;> rfl

/-- **Taking subscriptions back** leaves the ledger. -/
@[simp] theorem ledger_foldl_retract (w : World) (subscriptions : List Subscription) :
    (subscriptions.foldl retract w).ledger = w.ledger := by
  induction subscriptions generalizing w with
  | nil => rfl
  | cons s rest ih => rw [List.foldl_cons, ih, ledger_retract]

/-- **A watcher with a label** leaves the ledger. -/
@[simp] theorem ledger_watchAs (w : World) (label : String) (sequence : List String)
    (withinMs : UInt64) (target : Target) :
    (w.watchAs label sequence withinMs target).ledger = w.ledger := by
  unfold watchAs
  dsimp only
  split
  · rw [ledger_disposeWatcher]
    rfl
  · rfl

/-- **A timer with a label** leaves the ledger. -/
@[simp] theorem ledger_timerAs (w : World) (label : String) (interval : Nat) (target : Target) :
    (w.timerAs label interval target).ledger = w.ledger := by
  unfold timerAs
  dsimp only
  rw [ledger_respond]
  split
  · rw [ledger_cancelTimer]
    exact ledger_addTimer w interval target
  · exact ledger_addTimer w interval target

/-- Changing a registration changes **its place in the ledger**. -/
theorem ledger_modifyRegistration (w : World) (index : Nat) {f g : Registration → Registration}
    (h : ∀ r, (f r).bare = g r.bare) :
    (w.modifyRegistration index f).ledger
      = { w.ledger with entries := w.ledger.entries.modify index g } := by
  have same : (w.registrations.modify index f).map Registration.bare
      = (w.registrations.map Registration.bare).modify index g := by
    refine List.ext_getElem? fun place => ?_
    rw [List.getElem?_map, List.getElem?_modify, List.getElem?_modify, List.getElem?_map]
    cases w.registrations[place]? with
    | none => rfl
    | some r => by_cases here : index = place <;> simp [here, h]
  simp only [ledger, modifyRegistration, same]

/-! ## 2. Rules put in and taken out -/

/-- A registration marked as disposed of. -/
def markDisposed (r : Registration) : Registration :=
  { r with disposed := true }

/-- **Disposing of a rule** marks it, whatever it had installed. -/
theorem ledger_dispose (w : World) (index : Nat) :
    (w.dispose index).ledger
      = { w.ledger with entries := w.ledger.entries.modify index markDisposed } := by
  have marked : (w.modifyRegistration index fun r =>
      { r with disposed := true, subscriptions := [] }).ledger
        = { w.ledger with entries := w.ledger.entries.modify index markDisposed } :=
    ledger_modifyRegistration w index fun _ => rfl
  unfold dispose
  split
  · next absent =>
    have outside : w.ledger.entries[index]? = none := by rw [← held?_eq, held?, absent]; rfl
    rw [List.modify_eq_self (List.getElem?_eq_none_iff.mp outside)]
  · dsimp only
    split
    · exact marked
    · rw [ledger_note, ledger_foldl_retract, marked]

/-- Places marked as disposed of, one after another. -/
def markAll (entries : List Registration) (rules : Keyed Nat) : List Registration :=
  rules.foldl (fun entries rule => entries.modify rule.2 markDisposed) entries

/-- Disposing of rules in order marks each of them. -/
theorem ledger_disposeEach (w : World) (rules : Keyed Nat) :
    (w.disposeEach rules).ledger = { w.ledger with entries := markAll w.ledger.entries rules } := by
  unfold disposeEach markAll
  induction rules generalizing w with
  | nil => rfl
  | cons rule rest ih => rw [List.foldl_cons, ih, ledger_dispose, List.foldl_cons]

/-- Taking a rule out **marks its place and forgets its id**. -/
theorem ledger_unregister (w : World) (id : String) :
    (w.unregister id).ledger = match w.ruleIndex? id with
      | none => w.ledger
      | some index =>
        { w.ledger with
          engine := w.engine.map (Keyed.remove id)
          entries := w.ledger.entries.modify index markDisposed } := by
  unfold unregister
  cases w.ruleIndex? id with
  | none => rfl
  | some index => exact ledger_dispose _ index

/-- Putting a rule in **adds a place** with an idle slot. -/
theorem ledger_enrol (w : World) (rule : Rule) :
    (w.enrol rule).ledger =
      { w.ledger with
        engine := w.engine.map (Keyed.put rule.id w.registrations.length)
        entries := w.ledger.entries ++ [{ rule }] } := by
  let index := w.registrations.length
  let seated : World := { w with registrations := w.registrations ++ [({ rule } : Registration)] }
  have wired : (seated.wireAll index rule.id rule.triggers).1.ledger
      = { w.ledger with entries := w.ledger.entries ++ [{ rule }] } := by
    rw [ledger_wireAll]
    simp [seated, ledger, Registration.bare]
  have stored (v : World) (subscriptions : List Subscription) :
      (v.modifyRegistration index fun r => { r with subscriptions }).ledger = v.ledger := by
    refine (ledger_modifyRegistration v index (f := fun r => { r with subscriptions }) (g := id)
      fun _ => rfl).trans ?_
    rw [List.modify_id]
  have engine : (seated.wireAll index rule.id rule.triggers).1.engine = w.engine :=
    congrArg Ledger.engine wired
  calc (w.enrol rule).ledger
      = { ((seated.wireAll index rule.id rule.triggers).1.modifyRegistration index fun r =>
            { r with subscriptions := (seated.wireAll index rule.id rule.triggers).2 }).ledger with
          engine := (seated.wireAll index rule.id rule.triggers).1.engine.map
            (Keyed.put rule.id index) } := rfl
    _ = _ := by rw [stored, wired, engine]

/-- Disposing of all rules **marks every registered place** and forgets the ids. -/
theorem ledger_disposeAll (w : World) :
    w.disposeAll.ledger =
      { w.ledger with
        engine := w.engine.map fun _ => []
        entries := markAll w.ledger.entries (w.engine.getD []) } :=
  ledger_disposeEach _ _

/-- Dropping the engine marks every registered place, and there is no engine any more. -/
theorem ledger_dropEngine (w : World) :
    w.dropEngine.ledger =
      { w.ledger with
        engine := none
        entries := markAll w.ledger.entries (w.engine.getD []) } :=
  ledger_disposeEach _ _

/-! ## 3. Runs started and cancelled -/

/-- Waking a task only adds to those that are ready. -/
theorem ready_isPrefix_wake (w : World) (task : Task) : w.ready <+: (w.wake task).ready := by
  unfold wake
  split
  · exact List.prefix_refl _
  · exact List.prefix_append _ _

/-- **Cancelling a run** marks it, and may wake it. -/
theorem ledger_cancelRun (w : World) (id : Nat) :
    (w.cancelRun id).ledger =
      { w.ledger with
        runs := w.runs.map (Run.cancelIf id)
        ready := (w.cancelRun id).ready } := by
  unfold cancelRun wake
  dsimp only
  split
  · split <;> rfl
  · rfl

/-- **Cancelling a run** keeps the order of what is ready: more may come last. -/
theorem ready_isPrefix_cancelRun (w : World) (id : Nat) : w.ready <+: (w.cancelRun id).ready := by
  unfold cancelRun
  dsimp only
  split
  · exact ready_isPrefix_wake (w.modifyRun id fun r => { r with cancelled := true }) (.run id)
  · exact List.prefix_refl _

/-- The runs after the one that has to give way to a new one is cancelled. -/
def yielding (runs : List Run) : Option Nat → List Run
  | some id => runs.map (Run.cancelIf id)
  | none => runs

/-- **Making a run yield** marks the run, and changes nothing else. -/
theorem ledger_preempt (w : World) (rule : String) (run : Option Nat) :
    (w.preempt rule run).ledger =
      { w.ledger with
        runs := yielding w.runs run
        ready := (w.preempt rule run).ready } := by
  cases run with
  | none => rfl
  | some id => exact ledger_cancelRun (w.note (.runCancelled rule)) id

/-- **Starting a run of a rule**: the run that has to give way is cancelled, the slot takes note of
the new one, and the new one is ready for its first stride. -/
theorem ledger_startRun (w : World) (index : Nat) (r : Registration) :
    (w.startRun index r).ledger =
      { w.ledger with
        entries := w.ledger.entries.modify index fun held =>
          { held with slot := r.slot.begin w.nextRun }
        runs := yielding w.runs (r.slot.preempts r.rule.mode) ++
          [{ id := w.nextRun, owner := .rule index (r.slot.generation + 1)
             progress := .start r.rule.actions }]
        nextRun := w.nextRun + 1
        ready := (w.preempt r.rule.id (r.slot.preempts r.rule.mode)).ready ++ [.run w.nextRun] } := by
  let yielded := w.preempt r.rule.id (r.slot.preempts r.rule.mode)
  have first : yielded.ledger = { w.ledger with
      runs := yielding w.runs (r.slot.preempts r.rule.mode), ready := yielded.ready } :=
    ledger_preempt w r.rule.id _
  have next : yielded.nextRun = w.nextRun := congrArg Ledger.nextRun first
  have runs : yielded.runs = yielding w.runs (r.slot.preempts r.rule.mode) :=
    congrArg Ledger.runs first
  have held : (yielded.modifyRegistration index fun held =>
      { held with slot := r.slot.begin yielded.nextRun }).ledger
        = { yielded.ledger with
            entries := yielded.ledger.entries.modify index fun held =>
              { held with slot := r.slot.begin yielded.nextRun } } :=
    ledger_modifyRegistration yielded index fun _ => rfl
  calc (w.startRun index r).ledger
      = { (yielded.modifyRegistration index fun held =>
            { held with slot := r.slot.begin yielded.nextRun }).ledger with
          runs := yielded.runs ++
            [{ id := yielded.nextRun, owner := .rule index (r.slot.generation + 1)
               progress := .start r.rule.actions }]
          nextRun := yielded.nextRun + 1
          ready := yielded.ready ++ [.run yielded.nextRun] } := rfl
    _ = _ := by rw [held, first, next, runs]

/-! ## 4. Strides, service calls and turns -/

/-- The places after a run of some owner is over: the slot of a rule is told. -/
def released (entries : List Registration) : Owner → List Registration
  | .rule index generation =>
    entries.modify index fun held => { held with slot := held.slot.finish generation }
  | .label _ => entries

/-- **Releasing a slot** releases its entry in the ledger. -/
theorem ledger_release (w : World) (index generation : Nat) :
    (w.release index generation).ledger
      = { w.ledger with entries := released w.ledger.entries (.rule index generation) } :=
  ledger_modifyRegistration w index fun _ => rfl

/-- **The end of a run** takes it out and tells its slot. -/
theorem ledger_finishRun (w : World) (r : Run) :
    (w.finishRun r).ledger =
      { w.ledger with
        runs := w.runs.filter (·.id ≠ r.id)
        entries := released w.ledger.entries r.owner } := by
  unfold finishRun
  cases owner : r.owner with
  | rule index generation => exact ledger_release _ index generation
  | label label => rfl

/-- **A panic** takes the run out and tells its slot, too. -/
theorem ledger_panicRun (w : World) (r : Run) :
    (w.panicRun r).ledger =
      { w.ledger with
        runs := w.runs.filter (·.id ≠ r.id)
        entries := released w.ledger.entries r.owner } := by
  unfold panicRun
  cases owner : r.owner with
  | rule index generation => exact ledger_release _ index generation
  | label label => rfl

/-- Tasks whose moment has come are only added to those that are ready. -/
theorem ledger_foldl_wake (w : World) (tasks : List Task) :
    (tasks.foldl wake w).ledger = { w.ledger with ready := (tasks.foldl wake w).ready } := by
  induction tasks generalizing w with
  | nil => rfl
  | cons task rest ih =>
    rw [List.foldl_cons, ih]
    unfold wake
    split <;> rfl

/-- **Waking what is due** makes tasks ready, and does nothing else. -/
theorem ledger_wakeDue (w : World) :
    w.wakeDue.ledger = { w.ledger with ready := w.wakeDue.ready } :=
  ledger_foldl_wake w w.due

end World

end RuleDispatch
