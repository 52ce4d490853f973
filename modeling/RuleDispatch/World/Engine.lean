import RuleDispatch.World.Runs

/-! # The engine

A registered rule has installed one subscription for each of its triggers; each of them fires the
rule. Firing looks at the conditions, asks the run slot, and starts a run; the run takes its first
step later. Disposing of a rule takes its subscriptions back and lets its runs go on.

* `World.fire` — a rule proposed for firing.
* `World.wire` — the subscription for a trigger.
* `World.dispose` — a rule's subscriptions taken back.
* `World.register`, `World.unregister`, `World.disposeAll` — rules put in and taken out. -/

namespace RuleDispatch.World

/-! ## 1. Firing -/

/-- The run that has to give way to a new one **cancelled**, if there is one. -/
def preempt (w : World) (rule : String) : Option Nat → World
  | some run => (w.note (.runCancelled rule)).cancelRun run
  | none => w

/-- A run of a rule **started**. -/
def startRun (w : World) (index : Nat) (r : Registration) : World :=
  let w := w.preempt r.rule.id (r.slot.preempts r.rule.mode)
  let slot := r.slot.begin w.nextRun
  let w := w.modifyRegistration index fun r => { r with slot }
  (w.note (.ruleFired r.rule.id)).spawn (.rule index slot.generation) r.rule.actions false

/-- A rule **proposed for firing**. Nothing happens when it is disposed of; otherwise its conditions
are looked at, and then its run slot. -/
def fire (w : World) (index : Nat) : World :=
  match w.registrations[index]? with
  | none => w
  | some r =>
    if r.disposed then w
    else if !allHold w.store.reading r.rule.conditions then w.note (.conditionsNotMet r.rule.id)
    else if !r.slot.accepts r.rule.mode then w.note (.firingDropped r.rule.id)
    else w.startRun index r

/-! ## 2. Timers and watchers -/

/-- A **new timer**; its place is the number of timers before. One without an interval is never
active. -/
def addTimer (w : World) (interval : Nat) (target : Target) : World :=
  let w := if interval = 0 then w.note .intervalZero else w
  { w with
    timers := w.timers ++ [{ interval, deadline := w.now + interval, target, active := interval ≠ 0 }] }

/-- Whether a timer is active. -/
def timerActive (w : World) (index : Nat) : Bool :=
  ((w.timers[index]?).map (·.active)).getD false

/-- The world with a timer **cancelled**. -/
def cancelTimer (w : World) (index : Nat) : World :=
  if w.timerActive index then
    { w with timers := w.timers.modify index fun t => { t with active := false } }.note .timerCancelled
  else w

/-- The numbers of the next subscriptions under some names. -/
def numbered (first : Nat) (names : List String) : List (String × Nat) :=
  names.zipIdx first

/-- A **new watcher**; its place is the number of watchers before. It subscribes once to every name
of its pattern. -/
def addWatcher (w : World) (sequence : List String) (withinMs : UInt64) (target : Target) : World :=
  let place := w.watchers.length
  let names := sequence.eraseDups
  { w with
    watchers := w.watchers ++ [{
      matcher := .fresh sequence withinMs
      target
      subscriptions := numbered w.bus.nextId names }]
    bus := names.foldl (fun bus name => bus.subscribe name (.watcher place)) w.bus }

/-- Subscriptions taken back from the bus. -/
def unsubscribeAll (w : World) (subscriptions : List (String × Nat)) : World :=
  { w with bus := subscriptions.foldl (fun bus s => bus.unsubscribe s.1 s.2) w.bus }

/-- Whether a watcher is disposed of. -/
def watcherDisposed (w : World) (index : Nat) : Bool :=
  ((w.watchers[index]?).map (·.disposed)).getD true

/-- The world with a watcher **disposed of**. -/
def disposeWatcher (w : World) (index : Nat) : World :=
  match w.watchers[index]? with
  | none => w
  | some watcher =>
    { w with
      watchers := w.watchers.modify index fun x => { x with disposed := true, subscriptions := [] }
    }.unsubscribeAll watcher.subscriptions

/-! ## 3. Subscriptions of rules -/

/-- The world with **what a trigger needs installed** for the rule in a place, and what it was. -/
def wire (w : World) (index : Nat) (rule : String) : Trigger → World × Option Subscription
  | .event name =>
    ({ w with bus := w.bus.subscribe name (.target (.rule index)) },
      some (.event name w.bus.nextId))
  | .threshold entity bounds =>
    ({ w with store := w.store.listenNumber (.threshold index entity bounds) },
      some (.threshold w.store.nextId))
  | .schedule intervalMs =>
    (w.addTimer intervalMs.toNat (.rule index), some (.timer w.timers.length))
  | .pattern sequence withinMs =>
    (w.addWatcher sequence withinMs (.rule index), some (.pattern w.watchers.length))
  | .unknown => (w.note (.triggerUnknown rule), none)

/-- All triggers of a rule **wired** in order. -/
def wireAll (w : World) (index : Nat) (rule : String) : List Trigger → World × List Subscription
  | [] => (w, [])
  | trigger :: rest =>
    let (w, installed) := w.wire index rule trigger
    let (w, later) := w.wireAll index rule rest
    (w, installed.toList ++ later)

/-- What a rule installed **taken back**. -/
def retract (w : World) : Subscription → World
  | .event name id => { w with bus := w.bus.unsubscribe name id }
  | .timer index => w.cancelTimer index
  | .threshold id => { w with store := w.store.unlisten id }
  | .pattern watcher => w.disposeWatcher watcher

/-- A rule **disposed of**: it never fires again, and what it installed is taken back. Doing so once
more changes nothing. -/
def dispose (w : World) (index : Nat) : World :=
  match w.registrations[index]? with
  | none => w
  | some r =>
    let w := w.modifyRegistration index fun r => { r with disposed := true, subscriptions := [] }
    if r.subscriptions = [] then w
    else (r.subscriptions.foldl retract w).note (.ruleDisposed r.rule.id)

/-! ## 4. Rules put in and taken out -/

/-- The place of a registered rule. -/
def ruleIndex? (w : World) (id : String) : Option Nat :=
  w.engine.bind (·.lookup id)

/-- A rule **taken out**, if it is registered. -/
def unregister (w : World) (id : String) : World :=
  match w.ruleIndex? id with
  | none => w
  | some index => { w with engine := w.engine.map (Keyed.remove id) }.dispose index

/-- A rule **put in**, wired in a new place. -/
def enrol (w : World) (rule : Rule) : World :=
  let index := w.registrations.length
  let w := { w with registrations := w.registrations ++ [({ rule } : Registration)] }
  let (w, subscriptions) := w.wireAll index rule.id rule.triggers
  let w := w.modifyRegistration index fun r => { r with subscriptions }
  { w.note (.ruleRegistered subscriptions.length) with
    engine := w.engine.map (Keyed.put rule.id index) }

/-- A rule **registered**: it replaces the one with its id, and is put in if it is enabled. -/
def register (w : World) (rule : Rule) : World :=
  let known := (w.ruleIndex? rule.id).isSome
  let w := w.unregister rule.id
  let w := if known then w.note .ruleReplaced else w
  if rule.enabled then w.enrol rule else w.note .ruleDisabled

/-- Rules registered in order. -/
def registerAll (w : World) (rules : List Rule) : World :=
  rules.foldl register w

/-- Rules disposed of in order. -/
def disposeEach (w : World) (rules : Keyed Nat) : World :=
  rules.foldl (fun w entry => w.dispose entry.2) w

/-- **All rules** taken out. -/
def disposeAll (w : World) : World :=
  { w with engine := w.engine.map fun _ => [] }.disposeEach (w.engine.getD [])

/-- All rules taken out, and the engine with them. -/
def dropEngine (w : World) : World :=
  { w with engine := none }.disposeEach (w.engine.getD [])

/-- The ids of the registered rules **in order**. -/
def ruleIds (w : World) : List String :=
  ((w.engine.getD []).map (·.1)).mergeSort fun a b => a ≤ b

/-- Whether a run of a registered rule goes on. -/
def isRunning (w : World) (id : String) : Bool :=
  match (w.ruleIndex? id).bind (w.registrations[·]?) with
  | some r => r.slot.isRunning
  | none => false

end RuleDispatch.World
