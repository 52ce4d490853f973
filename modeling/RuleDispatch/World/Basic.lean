import RuleDispatch.Bus
import RuleDispatch.Pattern
import RuleDispatch.RunSlot
import RuleDispatch.Store
import RuleDispatch.World.Log
import RuleDispatch.World.Operation

/-! # The world

All there is at one moment: the clock, the bus, the store, the registered rules, the timers and
watchers, the runs that go on, and what is being done right now. What is being done is a stack of
frames, so that callbacks can do anything and one step of the world is always a small one.

Nothing happens at the same time as anything else. Runs and timers wait for their moment; when it
comes they queue up, and each goes on until it has to wait again.

* `Target`, `Handler`, `NumberListener` — what is called back.
* `Watcher`, `Timer`, `Registration`, `Run` — the things that live in the world.
* `Reply`, `Executor` — how service calls are answered.
* `Frame`, `World` — what is being done, and the whole. -/

namespace RuleDispatch

/-! ## 1. What is called back -/

/-- Who is **called** in the end: a callback, or a rule. Both are meant by their place in the
world. -/
inductive Target where
  | callback (index : Nat)
  | rule (index : Nat)
deriving DecidableEq, Repr

/-- What **hears an event**: a target, or a watcher. -/
inductive Handler where
  | target (target : Target)
  | watcher (index : Nat)
deriving DecidableEq, Repr

/-- What **hears of a number**: a callback, or the threshold of a rule. -/
inductive NumberListener where
  | callback (index : Nat)
  | threshold (rule : Nat) (entity : String) (bounds : Bounds)

/-- A **callback**: its label, and what it does on its next calls. -/
structure Callback where
  label : String
  script : Script Operation

/-! ## 2. What lives in the world -/

/-- A **watcher** waits for a pattern. -/
structure Watcher where
  matcher : Matcher
  target : Target
  subscriptions : List (String × Nat) := []
  disposed : Bool := false

/-- A **timer** ticks at a fixed interval; the next tick is due at `deadline`. -/
structure Timer where
  interval : Nat
  deadline : Nat
  target : Target
  active : Bool := true
deriving DecidableEq, Repr

/-- By how many milliseconds a tick may be late and still keep to the schedule. -/
def Timer.tolerance : Nat :=
  5

/-- When a timer that ticks at `now` is **due again**: an interval after it was due, or, when it is
too late for that, an interval from now. -/
def Timer.nextDeadline (t : Timer) (now : Nat) : Nat :=
  if t.deadline + tolerance < now then now + t.interval else t.deadline + t.interval

/-- What a rule **installed** for one of its triggers. -/
inductive Subscription where
  | event (name : String) (id : Nat)
  | timer (index : Nat)
  | threshold (id : Nat)
  | pattern (watcher : Nat)
deriving DecidableEq, Repr

/-- A **registered rule** with its runs and what it installed. It stays in the world when it is
disposed of, since runs of it may go on. -/
structure Registration where
  rule : Rule
  slot : RunSlot := {}
  subscriptions : List Subscription := []
  disposed : Bool := false

/-! ## 3. Service calls -/

/-- How a service call **ends**. -/
inductive CallResult where
  | done
  | failed (reason : String)
  | panicked
deriving DecidableEq, Repr

/-- What a service call **does** before it ends. -/
inductive Effect where
  /-- An operation, its answer recorded or not. -/
  | act (op : Operation) (recorded : Bool)
  /-- A pause of so many milliseconds. -/
  | pause (ms : Nat)

/-- The **reply** to a service call: what it does, and how it ends. -/
structure Reply where
  effects : List Effect := []
  result : CallResult := .done

/-- What **answers service calls**. It knows how many calls came before, so that it may answer the
same call differently each time. -/
abbrev Executor := Nat → String → Json → Reply

/-- A service call **under way**. -/
structure Call where
  service : String
  effects : List Effect
  result : CallResult

/-! ## 4. Runs -/

/-- On whose **behalf** a run goes on: that of a rule, as its run of some generation, or that of a
label. -/
inductive Owner where
  | rule (index generation : Nat)
  | label (label : String)
deriving DecidableEq, Repr

/-- What a run **waits for**. -/
inductive Phase where
  /-- For its turn only. -/
  | ready
  /-- For a moment, or to be cancelled. -/
  | waiting (deadline ms : Nat)
  /-- For a moment in the middle of a service call. -/
  | calling (deadline : Nat) (call : Call)

/-- A **run** that goes on. -/
structure Run where
  id : Nat
  owner : Owner
  progress : Progress
  phase : Phase := .ready
  cancelled : Bool := false

/-- The moment for which a run waits. -/
def Run.deadline? (r : Run) : Option Nat :=
  match r.phase with
  | .ready => none
  | .waiting deadline _ => some deadline
  | .calling deadline _ => some deadline

/-- What can **take its turn**: a run, or a timer. -/
inductive Task where
  | run (id : Nat)
  | timer (index : Nat)
deriving DecidableEq, Repr

/-! ## 5. The whole -/

/-- One thing **to be done**. -/
inductive Frame where
  /-- Carry out an operation. -/
  | perform (op : Operation)
  /-- Set the answer. -/
  | respond (answer : Answer)
  /-- Record the answer. -/
  | record
  /-- Hand an event to the handlers that are left. -/
  | deliver (event : Event) (handlers : List Handler)
  /-- Tell the listeners that are left of a number. -/
  | tellNumber (key : String) (value : Float) (listeners : List NumberListener)
  /-- Tell the callbacks that are left of a text. -/
  | tellText (key value : String) (listeners : List Nat)
  /-- Carry out the lines of the console that are left; `shown` holds what was shown. -/
  | lines (rest : List (Option String)) (shown : List String)
  /-- Go on with a run. -/
  | execute (run : Nat)
  /-- Go on with a service call of a run. -/
  | serve (run : Nat) (call : Call)
  /-- Give a task its turn. -/
  | resume (task : Task)
  /-- Give every task that is ready its turn, until none is. -/
  | drain
  /-- Let time pass up to a moment. -/
  | advanceTo (time : Nat)
  /-- Let time pass at once. -/
  | leap (ms : Nat)

/-- Handles by the **labels** last given to them. -/
structure Labels where
  /-- Subscriptions: the name, the number and the handler. -/
  subscriptions : Keyed (String × Nat × Handler) := []
  listeners : Keyed Nat := []
  watchers : Keyed Nat := []
  timers : Keyed Nat := []
  /-- The labels whose runs are cancelled. -/
  cancelled : List String := []

/-- The **world**. -/
structure World where
  /-- Milliseconds since the beginning. -/
  now : Nat := 0
  /-- The moment that console events are stamped with. -/
  wallClock : Timestamp
  bus : Bus Handler := {}
  store : Store NumberListener Nat := {}
  callbacks : List Callback := []
  watchers : List Watcher := []
  timers : List Timer := []
  registrations : List Registration := []
  /-- The registered rules and their places, `none` once the engine is gone. -/
  engine : Option (Keyed Nat) := some []
  /-- The runs that go on, oldest first. -/
  runs : List Run := []
  nextRun : Nat := 0
  /-- How many service calls were made. -/
  calls : Nat := 0
  /-- The tasks whose turn it is, in order. -/
  ready : List Task := []
  labels : Labels := {}
  /-- What is being done, the innermost first. -/
  stack : List Frame := []
  /-- The answer to the operation carried out last. -/
  answer : Answer := .done
  /-- What was recorded, with the time, the latest first. -/
  log : List (Nat × Entry) := []

namespace World

/-- The world with one more record. -/
def record (w : World) (entry : Entry) : World :=
  { w with log := (w.now, entry) :: w.log }

/-- The world with one more note. -/
def note (w : World) (n : Note) : World :=
  w.record (.note n)

/-- The world with things to be done **before all else**. -/
def push (w : World) (frames : List Frame) : World :=
  { w with stack := frames ++ w.stack }

/-- The world with an answer. -/
def respond (w : World) (answer : Answer) : World :=
  { w with answer }

/-- The run with a number, if it goes on. -/
def run? (w : World) (id : Nat) : Option Run :=
  w.runs.find? (·.id = id)

/-- The world with a run changed. -/
def modifyRun (w : World) (id : Nat) (f : Run → Run) : World :=
  { w with runs := w.runs.map fun r => if r.id = id then f r else r }

/-- The world without a run. -/
def removeRun (w : World) (id : Nat) : World :=
  { w with runs := w.runs.filter (·.id ≠ id) }

/-- The world with a registration changed. -/
def modifyRegistration (w : World) (index : Nat) (f : Registration → Registration) : World :=
  { w with registrations := w.registrations.modify index f }

/-- The world with a task **queued up**, unless it is already. -/
def wake (w : World) (task : Task) : World :=
  if task ∈ w.ready then w else { w with ready := w.ready ++ [task] }

/-- Nothing is being done. -/
def isIdle (w : World) : Bool :=
  w.stack.isEmpty

/-! ## 6. What the small changes leave alone -/

@[simp] theorem stack_push (w : World) (frames : List Frame) :
    (w.push frames).stack = frames ++ w.stack := rfl

@[simp] theorem stack_record (w : World) (entry : Entry) : (w.record entry).stack = w.stack := rfl

@[simp] theorem stack_note (w : World) (n : Note) : (w.note n).stack = w.stack := rfl

@[simp] theorem stack_respond (w : World) (answer : Answer) : (w.respond answer).stack = w.stack := rfl

@[simp] theorem bus_push (w : World) (frames : List Frame) : (w.push frames).bus = w.bus := rfl

@[simp] theorem bus_record (w : World) (entry : Entry) : (w.record entry).bus = w.bus := rfl

@[simp] theorem store_push (w : World) (frames : List Frame) : (w.push frames).store = w.store := rfl

@[simp] theorem store_record (w : World) (entry : Entry) : (w.record entry).store = w.store := rfl

end World

end RuleDispatch
