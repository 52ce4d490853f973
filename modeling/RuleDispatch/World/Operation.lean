import RuleDispatch.Rule.Basic
import RuleDispatch.Time.Timestamp

/-! # Operations

What can be asked of the world: of its bus, its store, its rules, its timers and its console. An
operation that creates a handle gives it a label; later operations mean the handle last given that
label. An operation that installs a callback says what the callback does when it is called: the same
further operations on each of its first calls, and nothing on later ones.

* `Script` — what a callback does, call by call.
* `Operation` — the operations.
* `Stimulus` — an operation, or a move of the clock. -/

namespace RuleDispatch

/-- What a callback does, **call by call**: these operations on each of its next `times` calls, and
nothing after that. -/
structure Script (Op : Type) where
  operations : List Op
  times : Nat

namespace Script

variable {Op : Type}

/-- What is done **on the next call**, and what is left for the calls after it. -/
def call (s : Script Op) : List Op × Script Op :=
  match s.times with
  | 0 => ([], s)
  | times + 1 => (s.operations, { s with times })

/-- What is done **on a call** after so many others. -/
def onCall (s : Script Op) (before : Nat) : List Op :=
  if before < s.times then s.operations else []

@[simp] theorem fst_call (s : Script Op) : s.call.1 = s.onCall 0 := by
  cases h : s.times <;> simp [call, onCall, h]

@[simp] theorem onCall_snd_call (s : Script Op) (before : Nat) :
    s.call.2.onCall before = s.onCall (before + 1) := by
  cases h : s.times <;> simp [call, onCall, h]

end Script

/-- A part of the world that can be shown to a person. -/
inductive Part where
  | bus
  | store
  | engine
deriving DecidableEq, Repr

/-- An **operation** on the world. -/
inductive Operation where
  /-- Subscribe a callback to an event. -/
  | subscribe (label name : String) (script : Script Operation)
  /-- Subscribe the handler of another subscription once more. -/
  | subscribeAgain (label source name : String)
  /-- Take a subscription back, under its own or another name. -/
  | unsubscribe (label : String) (name : Option String)
  /-- Emit an event, stamped with the present moment if no other is given. -/
  | emit (name : String) (time : Option Timestamp) (data : Json)
  /-- Count the subscriptions of a name. -/
  | subscribers (name : String)
  /-- Write a number. -/
  | setNumber (key : String) (value : Float)
  /-- Write a text. -/
  | setText (key value : String)
  /-- Read what is stored of an entity. -/
  | get (key : String)
  /-- Have a callback listen to numbers. -/
  | listenNumber (label : String) (script : Script Operation)
  /-- Have a callback listen to texts. -/
  | listenText (label : String) (script : Script Operation)
  /-- Take a listener out. -/
  | unlisten (label : String)
  /-- Count the listeners. -/
  | listeners
  /-- Have a callback called when a pattern is complete. -/
  | watch (label : String) (sequence : List String) (withinMs : UInt64)
    (script : Script Operation)
  /-- Dispose of a watcher. -/
  | watchDispose (label : String)
  /-- Tell whether a watcher is disposed of. -/
  | watchState (label : String)
  /-- Dispose of a watcher and forget its label. -/
  | watchDrop (label : String)
  /-- Have a callback called at a fixed interval. -/
  | timer (label : String) (ms : UInt64) (script : Script Operation)
  /-- Cancel a timer. -/
  | timerCancel (label : String)
  /-- Tell whether a timer is active. -/
  | timerActive (label : String)
  /-- Cancel a timer and forget its label. -/
  | timerDrop (label : String)
  /-- Run actions outside any rule; `none` for a description of no actions. -/
  | run (label : String) (actions : Option (List Action))
  /-- Cancel the runs of a label, those still to come included. -/
  | cancel (label : String)
  /-- Tell whether the runs of a label are cancelled. -/
  | isCancelled (label : String)
  /-- Carry out one line of the console. -/
  | line (text : String)
  /-- Carry out console input. -/
  | console (bytes : List UInt8)
  /-- Show a part of the world. -/
  | describe (part : Part)
  /-- Register a rule; `none` for a description of no rule. -/
  | register (rule : Option Rule)
  /-- Register the rules of a document. -/
  | load (document : String)
  /-- Unregister a rule. -/
  | unregister (id : String)
  /-- Fire a rule by hand. -/
  | trigger (id : String)
  /-- List the registered rules. -/
  | ruleIds
  /-- Tell whether a run of a rule goes on. -/
  | isRunning (id : String)
  /-- Dispose of all rules. -/
  | disposeAll
  /-- Dispose of all rules and of the engine. -/
  | dropEngine

/-- What comes from outside: an **operation**, or a move of the clock. -/
inductive Stimulus where
  /-- Carry out an operation; nothing that is ready is run. -/
  | operation (op : Operation)
  /-- Let so many milliseconds pass, stopping at every instant at which something is due. -/
  | advance (ms : Nat)
  /-- Let so many milliseconds pass at once, and then wake everything that is due. -/
  | jump (ms : Nat)

end RuleDispatch
