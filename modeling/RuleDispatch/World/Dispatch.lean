import RuleDispatch.Console.Command
import RuleDispatch.World.Engine

/-! # Dispatch in the world

How an event, a write or a tick reaches what is called back. Who is called is read off once; the
calls are made one after another, and whatever a call does is done before the next one.

* `World.emit`, `World.writeNumber`, `World.writeText` — the beginning: a snapshot of who is called.
* `World.handle`, `World.hearNumber`, `World.hearText`, `World.tick` — one call.
* `World.applyCommand`, `World.readLine` — a command of the console. -/

namespace RuleDispatch.World

/-! ## 1. Calls -/

/-- What a callback does when it is called: each of its operations, the answer recorded. -/
def scriptFrames (ops : List Operation) : List Frame :=
  ops.flatMap fun op => [.perform op, .record]

/-- A callback **called**; `entry` is its record. -/
def runCallback (w : World) (index : Nat) (entry : String → Entry) : World :=
  match w.callbacks[index]? with
  | none => w
  | some c =>
    let (ops, script) := c.script.call
    let w := w.record (entry c.label)
    { w with callbacks := w.callbacks.modify index fun c => { c with script } }.push
      (scriptFrames ops)

/-- A target **called**: a callback runs, a rule fires. -/
def callTarget (w : World) (entry : String → Entry) : Target → World
  | .callback index => w.runCallback index entry
  | .rule index => w.fire index

/-- A watcher's answer to an event: its target is called when the pattern is **complete**, unless it
was disposed of in the meantime. -/
def settleWatcher (w : World) (watcher : Watcher) (name : String) : Outcome → World
  | .completed => if watcher.disposed then w else w.callTarget .complete watcher.target
  | .expired => w.note (.patternExpired name)
  | _ => w

/-- An event **shown to a watcher**. -/
def observe (w : World) (event : Event) (index : Nat) : World :=
  match w.watchers[index]? with
  | none => w
  | some watcher =>
    let (outcome, matcher) := watcher.matcher.observe event.name event.timestamp
    let w := { w with watchers := w.watchers.modify index fun x => { x with matcher } }
    w.settleWatcher watcher event.name outcome

/-- A handler **called with an event**. -/
def handle (w : World) (event : Event) : Handler → World
  | .target target => w.callTarget (fun label => .event label event) target
  | .watcher index => w.observe event index

/-- A listener **told of a number**. A threshold fires its rule when the number is that of its
entity and lies inside its bounds. -/
def hearNumber (w : World) (key : String) (value : Float) : NumberListener → World
  | .callback index =>
    w.runCallback index fun label => .number label key value (w.store.number? key)
  | .threshold rule entity bounds =>
    if key = entity && bounds.contains value then w.fire rule else w

/-- A callback **told of a text**. -/
def hearText (w : World) (key value : String) (index : Nat) : World :=
  w.runCallback index fun label => .text label key value (w.store.text? key)

/-- A timer **whose turn it is**: it ticks if it is active and due, is due again from then on, and
then has another turn in case that is now. -/
def tick (w : World) (index : Nat) : World :=
  match w.timers[index]? with
  | none => w
  | some t =>
    if !t.active || w.now < t.deadline then w
    else
      let next := t.nextDeadline w.now
      let w := { w with timers := w.timers.modify index fun t => { t with deadline := next } }
      (w.push [.resume (.timer index)]).callTarget .tick t.target

/-! ## 2. Snapshots -/

/-- An event **emitted**: those who hear its name now are to be called. -/
def emit (w : World) (event : Event) : World :=
  w.push [.deliver event (w.bus.handlers event.name)]

/-- A number **written**: those who listen now are to be told. -/
def writeNumber (w : World) (key : String) (value : Float) : World :=
  { w with store := w.store.setNumber key value }.push
    [.tellNumber key value w.store.hearNumbers]

/-- A text **written**: those who listen now are to be told. -/
def writeText (w : World) (key value : String) : World :=
  { w with store := w.store.setText key value }.push [.tellText key value w.store.hearTexts]

/-! ## 3. The console -/

/-- What the console shows of an entity. -/
def showEntity (w : World) (key : String) : String :=
  let number := Decimal.Layout.plain.text (w.store.number key)
  let text := Text.quoteShown (w.store.text key)
  s!"{key}: numeric={number} string={text}"

/-- A **command carried out**, before `frames`. An event is stamped with the time of the wall
clock. -/
def applyCommand (w : World) (frames : List Frame) : Command → World
  | .emit name data => (w.push frames).emit ⟨name, w.wallClock, data⟩
  | .setNumber key value => (w.push frames).writeNumber key value
  | .setText key value => (w.push frames).writeText key value
  | .get _ => w.push frames

/-- What a command shows. -/
def outputOf (w : World) : Command → Option String
  | .get key => some (w.showEntity key)
  | _ => none

/-- A single line of the console, carried out and answered. -/
def readLine (w : World) (line : String) : World :=
  match Command.read line with
  | .ok command => w.applyCommand [.respond (.shown (w.outputOf command))] command
  | .error e => w.respond (.noCommand e.message)

/-- The lines of the console **one after another**. Blank lines are passed over, lines that are no
command are noted, and a line that is no text ends the input. -/
def readLines (w : World) (shown : List String) : List (Option String) → World
  | [] => (w.note .consoleClosed).respond (.console shown false)
  | none :: _ => w.respond (.console shown true)
  | some line :: rest =>
    match Command.read line with
    | .ok command => w.applyCommand [.lines rest (shown ++ (w.outputOf command).toList)] command
    | .error .empty => w.push [.lines rest shown]
    | .error e => (w.note (.lineIgnored line e.message)).push [.lines rest shown]

end RuleDispatch.World
