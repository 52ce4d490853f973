import RuleDispatch.Console.Lines
import RuleDispatch.World.Describe
import RuleDispatch.World.Dispatch

/-! # Operations carried out

* `World.perform` — one operation. What it starts at once is done before the operation is over; the
  runs that it starts take their first step later. -/

namespace RuleDispatch.World

/-! ## 1. Handles by label -/

/-- A new callback; its place is the number of callbacks before. -/
def addCallback (w : World) (label : String) (script : Script Operation) : World :=
  { w with callbacks := w.callbacks ++ [⟨label, script⟩] }

/-- A handler subscribed under a name and a label. -/
def subscribeAs (w : World) (label name : String) (handler : Handler) : World :=
  { w with
    bus := w.bus.subscribe name handler
    labels := { w.labels with
      subscriptions := w.labels.subscriptions.put label (name, w.bus.nextId, handler) } }

/-- A new watcher under a label. The one that had the label is disposed of afterwards. -/
def watchAs (w : World) (label : String) (sequence : List String) (withinMs : UInt64)
    (target : Target) : World :=
  let old := w.labels.watchers.lookup label
  let place := w.watchers.length
  let w := w.addWatcher sequence withinMs target
  let w := { w with labels := { w.labels with watchers := w.labels.watchers.put label place } }
  match old with
  | some index => w.disposeWatcher index
  | none => w

/-- A new timer under a label. The one that had the label is cancelled afterwards. -/
def timerAs (w : World) (label : String) (interval : Nat) (target : Target) : World :=
  let old := w.labels.timers.lookup label
  let place := w.timers.length
  let w := w.addTimer interval target
  let w := { w with labels := { w.labels with timers := w.labels.timers.put label place } }
  let w := match old with
    | some index => w.cancelTimer index
    | none => w
  w.respond (.flag (w.timerActive place))

/-- The world with the runs of a label **cancelled**, those to come included. -/
def cancelLabel (w : World) (label : String) : World :=
  let w := { w with labels := { w.labels with cancelled := label :: w.labels.cancelled } }
  (w.runs.filter (·.owner = .label label)).foldl (fun w r => w.cancelRun r.id) w

/-- Whether the runs of a label are cancelled. -/
def labelCancelled (w : World) (label : String) : Bool :=
  label ∈ w.labels.cancelled

/-! ## 2. The engine, if it is there -/

/-- Something asked of the engine. -/
def withEngine (w : World) (act : World → World) : World :=
  if w.engine.isSome then act w else w.respond .noEngine

/-- The rules of a document registered, the entries left out recorded first. -/
def load (w : World) (document : String) : World :=
  match Batch.read document with
  | .error fault => w.respond (.noDocument (fault.message document.toList))
  | .ok batch =>
    let w := batch.skipped.foldl (fun w s => w.record (.skipped s)) w
    (w.registerAll batch.rules).respond (.ruleIds (batch.rules.map (·.id)))

/-! ## 3. One operation -/

/-- **One operation** carried out. -/
def perform (w : World) : Operation → World
  | .subscribe label name script =>
    let place := w.callbacks.length
    ((w.addCallback label script).subscribeAs label name (.target (.callback place))).respond .done
  | .subscribeAgain label source name =>
    match w.labels.subscriptions.lookup source with
    | some (_, _, handler) => (w.subscribeAs label name handler).respond .done
    | none => w.respond .noSuchLabel
  | .unsubscribe label other =>
    match w.labels.subscriptions.lookup label with
    | some (name, id, _) =>
      let name := other.getD name
      { w with bus := w.bus.unsubscribe name id }.respond (.flag (w.bus.holds name id))
    | none => w.respond .noSuchLabel
  | .emit name time data =>
    (w.push [.respond .done]).emit ⟨name, time.getD (.ofMillis w.now), data⟩
  | .subscribers name => w.respond (.count (w.bus.count name))
  | .setNumber key value => (w.push [.respond .done]).writeNumber key value
  | .setText key value => (w.push [.respond .done]).writeText key value
  | .get key => w.respond (.entity (w.store.number? key) (w.store.text? key))
  | .listenNumber label script =>
    let place := w.callbacks.length
    let id := w.store.nextId
    let w := w.addCallback label script
    { w with
      store := w.store.listenNumber (.callback place)
      labels := { w.labels with listeners := w.labels.listeners.put label id } }.respond .done
  | .listenText label script =>
    let place := w.callbacks.length
    let id := w.store.nextId
    let w := w.addCallback label script
    { w with
      store := w.store.listenText place
      labels := { w.labels with listeners := w.labels.listeners.put label id } }.respond .done
  | .unlisten label =>
    match w.labels.listeners.lookup label with
    | some id => { w with store := w.store.unlisten id }.respond (.flag (w.store.listens id))
    | none => w.respond .noSuchLabel
  | .listeners => w.respond (.count w.store.listenerCount)
  | .watch label sequence withinMs script =>
    let place := w.callbacks.length
    ((w.addCallback label script).watchAs label sequence withinMs (.callback place)).respond .done
  | .watchDispose label =>
    match w.labels.watchers.lookup label with
    | some index =>
      let w := w.disposeWatcher index
      w.respond (.watcher (w.watcherDisposed index))
    | none => w.respond .noSuchLabel
  | .watchState label =>
    match w.labels.watchers.lookup label with
    | some index => w.respond (.watcher (w.watcherDisposed index))
    | none => w.respond .noSuchLabel
  | .watchDrop label =>
    match w.labels.watchers.lookup label with
    | some index =>
      let w := { w with labels := { w.labels with watchers := w.labels.watchers.remove label } }
      (w.disposeWatcher index).respond (.flag true)
    | none => w.respond (.flag false)
  | .timer label ms script =>
    let place := w.callbacks.length
    (w.addCallback label script).timerAs label ms.toNat (.callback place)
  | .timerCancel label =>
    match w.labels.timers.lookup label with
    | some index =>
      let w := w.cancelTimer index
      w.respond (.flag (w.timerActive index))
    | none => w.respond .noSuchLabel
  | .timerActive label =>
    match w.labels.timers.lookup label with
    | some index => w.respond (.flag (w.timerActive index))
    | none => w.respond .noSuchLabel
  | .timerDrop label =>
    match w.labels.timers.lookup label with
    | some index =>
      let w := { w with labels := { w.labels with timers := w.labels.timers.remove label } }
      (w.cancelTimer index).respond (.flag true)
    | none => w.respond (.flag false)
  | .run label actions =>
    match actions with
    | some actions => (w.spawn (.label label) actions (w.labelCancelled label)).respond .done
    | none => w.respond .noActions
  | .cancel label =>
    let w := w.cancelLabel label
    w.respond (.flag (w.labelCancelled label))
  | .isCancelled label => w.respond (.flag (w.labelCancelled label))
  | .line text => w.readLine text
  | .console bytes => w.push [.lines (Console.readLines bytes) []]
  | .describe part =>
    match w.describe part with
    | some text => w.respond (.description text)
    | none => w.respond .noEngine
  | .register rule =>
    w.withEngine fun w =>
      match rule with
      | some rule => (w.register rule).respond (.ruleId rule.id)
      | none => w.respond .noRule
  | .load document => w.withEngine fun w => w.load document
  | .unregister id =>
    w.withEngine fun w => (w.unregister id).respond (.flag (w.ruleIndex? id).isSome)
  | .trigger id =>
    w.withEngine fun w =>
      match w.ruleIndex? id with
      | some index => (w.fire index).respond (.flag true)
      | none => w.respond (.flag false)
  | .ruleIds => w.withEngine fun w => w.respond (.ruleIds w.ruleIds)
  | .isRunning id => w.withEngine fun w => w.respond (.flag (w.isRunning id))
  | .disposeAll => w.withEngine fun w => w.disposeAll.respond .done
  | .dropEngine => w.withEngine fun w => w.dropEngine.respond .done

end RuleDispatch.World
