import RuleDispatch.Proofs.Fittings

/-! # Edits of the bus and of the store

Whatever the world does to its bus and to its store comes down to a few elementary edits: a handler
subscribed or taken back, a listener added or taken out, a value written. Which edits an operation
makes can be read off before it is carried out; the bus and the store after a history are those of
before with all edits made on the way, in the order in which they were made.

* `Edit`, `Bus.edit`, `Store.edit` — the elementary edits.
* `Edits.perform` — the edits of one operation, those of rules put in and taken out included.
* `World.edits`, `World.editsDone` — the edits of the next step, and of a history.
* `World.edited_after` — every history only edits. -/

namespace RuleDispatch

/-! ## 1. Elementary edits -/

/-- An **edit**: one elementary change of the bus or of the store. -/
inductive Edit where
  /-- A handler is subscribed under a name. -/
  | subscribe (name : String) (handler : Handler)
  /-- A subscription is taken back. -/
  | unsubscribe (name : String) (id : Nat)
  /-- A listener to numbers is added. -/
  | listenNumber (listener : NumberListener)
  /-- A listener to texts is added. -/
  | listenText (callback : Nat)
  /-- A listener is taken out. -/
  | unlisten (id : Nat)
  /-- A number is written. -/
  | setNumber (key : String) (value : Float)
  /-- A text is written. -/
  | setText (key value : String)

/-- The bus **after an edit**. -/
def Bus.edit (b : Bus Handler) : Edit → Bus Handler
  | .subscribe name handler => b.subscribe name handler
  | .unsubscribe name id => b.unsubscribe name id
  | .listenNumber _ | .listenText _ | .unlisten _ | .setNumber _ _ | .setText _ _ => b

/-- The store **after an edit**. -/
def Store.edit (s : Store NumberListener Nat) : Edit → Store NumberListener Nat
  | .listenNumber listener => s.listenNumber listener
  | .listenText callback => s.listenText callback
  | .unlisten id => s.unlisten id
  | .setNumber key value => s.setNumber key value
  | .setText key value => s.setText key value
  | .subscribe _ _ | .unsubscribe _ _ => s

/-- One world **edited** into another: its bus and its store are those of before with the edits
made in order. -/
structure Edited (w w' : World) (es : List Edit) : Prop where
  bus : w'.bus = es.foldl Bus.edit w.bus
  store : w'.store = es.foldl Store.edit w.store

namespace Edited

variable {u v w : World} {es more : List Edit}

/-- Edits made **one after another**. -/
theorem trans (first : Edited u v es) (later : Edited v w more) : Edited u w (es ++ more) where
  bus := by rw [List.foldl_append, ← first.bus, later.bus]
  store := by rw [List.foldl_append, ← first.store, later.store]

end Edited

/-! ## 2. The edits of an operation -/

namespace Edits

/-- Things done **one after another**, each in the world that the ones before it left. -/
def inTurn {α : Type} (act : World → α → World) (edits : World → α → List Edit) :
    World → List α → List Edit
  | _, [] => []
  | w, a :: rest => edits w a ++ inTurn act edits (act w a) rest

/-- A watcher **disposed of** takes its subscriptions back. -/
def withdraw (watchers : List Watcher) (place : Nat) : List Edit :=
  (watchers[place]?).elim [] fun x => x.subscriptions.map fun s => .unsubscribe s.1 s.2

/-- A watcher **installed** in a place subscribes once to every name of its pattern. -/
def watch (sequence : List String) (place : Nat) : List Edit :=
  sequence.eraseDups.map fun name => .subscribe name (.watcher place)

/-- What a rule installed, **taken back in order**. A watcher that is disposed of has nothing left to
take back. -/
def retract : List Watcher → List Subscription → List Edit
  | _, [] => []
  | watchers, .event name id :: rest => .unsubscribe name id :: retract watchers rest
  | watchers, .threshold id :: rest => .unlisten id :: retract watchers rest
  | watchers, .timer _ :: rest => retract watchers rest
  | watchers, .pattern place :: rest =>
    withdraw watchers place
      ++ retract (watchers.modify place fun x => { x with disposed := true, subscriptions := [] })
          rest

/-- What the triggers of the rule in a place need, **installed in order**; so many watchers are
there before. -/
def install (index : Nat) : Nat → List Trigger → List Edit
  | _, [] => []
  | watchers, .event name :: rest =>
    .subscribe name (.target (.rule index)) :: install index watchers rest
  | watchers, .threshold entity bounds :: rest =>
    .listenNumber (.threshold index entity bounds) :: install index watchers rest
  | watchers, .pattern sequence _ :: rest =>
    watch sequence watchers ++ install index (watchers + 1) rest
  | watchers, .schedule _ :: rest | watchers, .unknown :: rest => install index watchers rest

/-- The rule in a place **disposed of**. -/
def dispose (w : World) (index : Nat) : List Edit :=
  (w.registrations[index]?).elim [] fun r => retract w.watchers r.subscriptions

/-- The rule with an id **taken out**. -/
def unregister (w : World) (id : String) : List Edit :=
  (w.ruleIndex? id).elim [] (dispose w)

/-- A rule **put in**, in the next place. -/
def enrol (w : World) (rule : Rule) : List Edit :=
  install w.registrations.length w.watchers.length rule.triggers

/-- A rule **registered**: the one with its id is taken out first. -/
def register (w : World) (rule : Rule) : List Edit :=
  unregister w rule.id ++ if rule.enabled then enrol (w.unregister rule.id) rule else []

/-- The rules of a document registered. -/
def load (w : World) (document : String) : List Edit :=
  match Batch.read document with
  | .error _ => []
  | .ok batch =>
    inTurn World.register register (batch.skipped.foldl (fun w s => w.record (.skipped s)) w)
      batch.rules

/-- All rules of a world disposed of; the engine is another one by then. -/
def disposeEach (w : World) (engine : Option (Keyed Nat)) : List Edit :=
  inTurn (fun w entry => w.dispose entry.2) (fun w entry => dispose w entry.2)
    { w with engine } (w.engine.getD [])

/-- A command of the console. -/
def command : Command → List Edit
  | .setNumber key value => [.setNumber key value]
  | .setText key value => [.setText key value]
  | .emit _ _ | .get _ => []

/-- A line of the console; one that is no command edits nothing. -/
def line (text : String) : List Edit :=
  match Command.read text with
  | .ok c => command c
  | .error _ => []

/-- The first of several lines of the console. -/
def lines : List (Option String) → List Edit
  | some text :: _ => line text
  | none :: _ | [] => []

/-- The edits of **one operation**. -/
def perform (w : World) : Operation → List Edit
  | .subscribe _ name _ => [.subscribe name (.target (.callback w.callbacks.length))]
  | .subscribeAgain _ source name =>
    (w.labels.subscriptions.lookup source).elim [] fun held => [.subscribe name held.2.2]
  | .unsubscribe label other =>
    (w.labels.subscriptions.lookup label).elim [] fun held =>
      [.unsubscribe (other.getD held.1) held.2.1]
  | .setNumber key value => [.setNumber key value]
  | .setText key value => [.setText key value]
  | .listenNumber _ _ => [.listenNumber (.callback w.callbacks.length)]
  | .listenText _ _ => [.listenText w.callbacks.length]
  | .unlisten label => (w.labels.listeners.lookup label).elim [] fun id => [.unlisten id]
  | .watch label sequence withinMs script =>
    let added := (w.addCallback label script).addWatcher sequence withinMs
      (.callback w.callbacks.length)
    watch sequence w.watchers.length
      ++ (w.labels.watchers.lookup label).elim [] (withdraw added.watchers)
  | .watchDispose label | .watchDrop label =>
    (w.labels.watchers.lookup label).elim [] (withdraw w.watchers)
  | .line text => line text
  | .register (some rule) => if w.engine.isSome then register w rule else []
  | .load document => if w.engine.isSome then load w document else []
  | .unregister id => if w.engine.isSome then unregister w id else []
  | .disposeAll => if w.engine.isSome then disposeEach w (w.engine.map fun _ => []) else []
  | .dropEngine => if w.engine.isSome then disposeEach w none else []
  | .emit _ _ _ | .subscribers _ | .get _ | .listeners | .watchState _ | .timer _ _ _
  | .timerCancel _ | .timerActive _ | .timerDrop _ | .run _ _ | .cancel _ | .isCancelled _
  | .console _ | .describe _ | .register none | .trigger _ | .ruleIds | .isRunning _ => []

end Edits

namespace World

/-- The edits of **the next step**: those of an operation, or of a line of the console. -/
def edits (w : World) : List Edit :=
  match w.stack with
  | .perform op :: rest => Edits.perform { w with stack := rest } op
  | .lines lines _ :: _ => Edits.lines lines
  | _ => []

/-- The edits made **in a history**, in order. -/
def editsDone (exec : Executor) (w : World) (moves : List Move) : List Edit :=
  (shown exec (fun v => some v.edits) w moves).flatten

/-! ## 3. What leaves the bus and the store alone -/

/-- The **bus and the store** of a world. -/
def shelves (w : World) : Bus Handler × Store NumberListener Nat :=
  (w.bus, w.store)

/-- **Waking a task** leaves the shelves. -/
@[simp] theorem shelves_wake (w : World) (task : Task) : (w.wake task).shelves = w.shelves := by
  unfold wake
  split <;> rfl

/-- **Waking what is due** leaves the shelves. -/
@[simp] theorem shelves_wakeDue (w : World) : w.wakeDue.shelves = w.shelves := by
  unfold wakeDue
  generalize w.due = tasks
  induction tasks generalizing w with
  | nil => rfl
  | cons task rest ih => rw [List.foldl_cons, ih, shelves_wake]

/-- **Cancelling a run** leaves the shelves. -/
@[simp] theorem shelves_cancelRun (w : World) (id : Nat) :
    (w.cancelRun id).shelves = w.shelves := by
  unfold cancelRun
  dsimp only
  split
  · exact shelves_wake _ _
  · rfl

/-- **Cancelling a labelled run** leaves the shelves. -/
theorem shelves_cancelLabel (w : World) (label : String) :
    (w.cancelLabel label).shelves = w.shelves := by
  have each (v : World) (runs : List Run) :
      (runs.foldl (fun w r => w.cancelRun r.id) v).shelves = v.shelves := by
    induction runs generalizing v with
    | nil => rfl
    | cons r rest ih => rw [List.foldl_cons, ih, shelves_cancelRun]
  exact each { w with labels := { w.labels with cancelled := label :: w.labels.cancelled } } _

/-- **Firing a rule** leaves the shelves. -/
@[simp] theorem shelves_fire (w : World) (index : Nat) : (w.fire index).shelves = w.shelves := by
  unfold fire
  split
  · rfl
  · next r _ =>
    split_ifs
    · rfl
    · rfl
    · rfl
    · show (w.preempt r.rule.id _).shelves = _
      unfold preempt
      split
      · exact shelves_cancelRun _ _
      · rfl

/-- **Putting in a timer** leaves the shelves. -/
@[simp] theorem shelves_addTimer (w : World) (interval : Nat) (target : Target) :
    (w.addTimer interval target).shelves = w.shelves := by
  unfold addTimer
  split <;> rfl

/-- **Cancelling a timer** leaves the shelves. -/
@[simp] theorem shelves_cancelTimer (w : World) (index : Nat) :
    (w.cancelTimer index).shelves = w.shelves := by
  unfold cancelTimer
  split <;> rfl

/-- **A timer with a label** leaves the shelves, also where another one had the label. -/
theorem shelves_timerAs (w : World) (label : String) (interval : Nat) (target : Target) :
    (w.timerAs label interval target).shelves = w.shelves := by
  have added := shelves_addTimer w interval target
  unfold timerAs
  dsimp only
  split
  · exact (shelves_cancelTimer _ _).trans added
  · exact added

/-- **Calling a callback** leaves the shelves: what it does comes later. -/
@[simp] theorem shelves_runCallback (w : World) (index : Nat) (entry : String → Entry) :
    (w.runCallback index entry).shelves = w.shelves := by
  unfold runCallback
  split <;> rfl

/-- **Calling a target** leaves the shelves. -/
@[simp] theorem shelves_callTarget (w : World) (entry : String → Entry) (target : Target) :
    (w.callTarget entry target).shelves = w.shelves := by
  cases target with
  | callback index => exact shelves_runCallback w index entry
  | rule index => exact shelves_fire w index

/-- **No call edits anything** by itself; what a callback does is done afterwards. -/
theorem shelves_handle (w : World) (event : Event) (handler : Handler) :
    (w.handle event handler).shelves = w.shelves := by
  cases handler with
  | target target => exact shelves_callTarget w _ target
  | watcher index =>
    simp only [handle, observe]
    split
    · rfl
    · unfold settleWatcher
      split
      · split_ifs
        · rfl
        · exact shelves_callTarget _ _ _
      · rfl
      · rfl

/-- **Telling a listener of a number** leaves the shelves. -/
theorem shelves_hearNumber (w : World) (key : String) (value : Float) (listener : NumberListener) :
    (w.hearNumber key value listener).shelves = w.shelves := by
  cases listener with
  | callback index => exact shelves_runCallback w index _
  | threshold rule entity bounds =>
    unfold hearNumber
    dsimp only
    split_ifs
    · exact shelves_fire w rule
    · rfl

/-- **A tick of a timer** leaves the shelves. -/
theorem shelves_tick (w : World) (index : Nat) : (w.tick index).shelves = w.shelves := by
  unfold tick
  split
  · rfl
  · dsimp only
    split_ifs
    · rfl
    · exact shelves_callTarget _ _ _

/-- So do **strides, service calls and turns**. -/
theorem shelves_execute (exec : Executor) (w : World) (id : Nat) :
    (w.execute exec id).shelves = w.shelves := by
  unfold execute
  split
  · rfl
  · next r _ =>
    dsimp only
    cases (r.progress.next r.cancelled).1 with
    | nothing | call | stop => rfl
    | wait ms =>
      show (waitFor _ _ _).shelves = _
      unfold waitFor
      split <;> rfl
    | finish =>
      show (finishRun _ _).shelves = _
      unfold finishRun
      dsimp only
      split <;> rfl

/-- **A step of a service call** leaves the shelves: what the service does comes later. -/
theorem shelves_serve (w : World) (id : Nat) (call : Call) :
    (w.serve id call).shelves = w.shelves := by
  unfold serve
  split
  · unfold endCall
    split
    · rfl
    · rfl
    · split
      · rfl
      · unfold panicRun
        dsimp only
        split <;> rfl
  · rfl
  · dsimp only
    split <;> rfl

/-- **Waking a run up** leaves the shelves. -/
theorem shelves_resumeRun (w : World) (id : Nat) : (w.resumeRun id).shelves = w.shelves := by
  unfold resumeRun
  split
  · rfl
  · split
    · rfl
    · split_ifs <;> rfl
    · split_ifs <;> rfl

/-- So do the **moves of the clock**. -/
theorem shelves_advanceTo (w : World) (time : Nat) : (w.advanceTo time).shelves = w.shelves := by
  unfold advanceTo
  split
  · split
    · exact shelves_wakeDue _
    · rfl
  · rfl

/-- **Draining** what is ready leaves the shelves. -/
theorem shelves_drain (w : World) : w.drain.shelves = w.shelves := by
  unfold drain
  split <;> rfl

end World

namespace Edited

variable {u v w : World} {es : List Edit}

/-- **Leaving the bus and the store alone** makes no edit. -/
theorem of_shelves (same : v.shelves = u.shelves) : Edited u v [] :=
  ⟨congrArg Prod.fst same, congrArg Prod.snd same⟩

/-- Nothing but the bus and the store counts. -/
theorem congr (h : Edited u v es) (same : w.shelves = v.shelves) : Edited u w es :=
  ⟨(congrArg Prod.fst same).trans h.bus, (congrArg Prod.snd same).trans h.store⟩

end Edited

namespace World

/-! ## 4. What the engine edits -/

/-- Edits of the bus leave the store alone. -/
theorem store_foldl_edit {es : List Edit} (onBus : ∀ e ∈ es, ∀ s, Store.edit s e = s)
    (s : Store NumberListener Nat) : es.foldl Store.edit s = s := by
  induction es with
  | nil => rfl
  | cons e rest ih =>
    rw [List.foldl_cons, onBus e List.mem_cons_self]
    exact ih fun other member => onBus other (List.mem_cons_of_mem _ member)

/-- What makes its edits each time makes **the edits of all times**, one after another. -/
theorem edited_inTurn {α : Type} (act : World → α → World) (edits : World → α → List Edit)
    (each : ∀ w a, Edited w (act w a) (edits w a)) (w : World) (as : List α) :
    Edited w (as.foldl act w) (Edits.inTurn act edits w as) := by
  induction as generalizing w with
  | nil => exact .of_shelves rfl
  | cons a rest ih => exact (each w a).trans (ih (act w a))

/-- **Disposing of a watcher** takes its subscriptions off the bus. -/
theorem edited_disposeWatcher (w : World) (place : Nat) :
    Edited w (w.disposeWatcher place) (Edits.withdraw w.watchers place) := by
  unfold disposeWatcher Edits.withdraw
  cases w.watchers[place]? with
  | none => exact .of_shelves rfl
  | some x =>
    refine ⟨?_, (store_foldl_edit (fun e member => ?_) _).symm⟩
    · rw [Option.elim_some, List.foldl_map]
      rfl
    · obtain ⟨s, -, rfl⟩ := List.mem_map.mp member
      exact fun _ => rfl

/-- **Putting in a watcher** subscribes it to each name of its sequence. -/
theorem edited_addWatcher (w : World) (sequence : List String) (withinMs : UInt64)
    (target : Target) :
    Edited w (w.addWatcher sequence withinMs target) (Edits.watch sequence w.watchers.length) := by
  refine ⟨?_, (store_foldl_edit (fun e member => ?_) _).symm⟩
  · rw [Edits.watch, List.foldl_map]
    rfl
  · obtain ⟨name, -, rfl⟩ := List.mem_map.mp member
    exact fun _ => rfl

/-- What is taken back does not matter to **which watchers there are** but for those disposed of. -/
theorem watchers_retract_eq (w : World) (s : Subscription) :
    (w.retract s).watchers = match s with
      | .pattern place => w.watchers.modify place fun x =>
          { x with disposed := true, subscriptions := [] }
      | _ => w.watchers := by
  cases s with
  | event name id => rfl
  | threshold id => rfl
  | timer index =>
    show (w.cancelTimer index).watchers = w.watchers
    unfold cancelTimer
    split <;> rfl
  | pattern place =>
    show (w.disposeWatcher place).watchers = _
    unfold disposeWatcher
    split
    · next absent =>
      dsimp only
      rw [List.modify_eq_self (List.getElem?_eq_none_iff.mp absent)]
    · rfl

/-- **Taking subscriptions back** makes the edits of each of them in turn. -/
theorem edited_foldl_retract (w : World) (subscriptions : List Subscription) :
    Edited w (subscriptions.foldl retract w) (Edits.retract w.watchers subscriptions) := by
  induction subscriptions generalizing w with
  | nil => exact .of_shelves rfl
  | cons s rest ih =>
    have later := ih (w.retract s)
    rw [watchers_retract_eq] at later
    cases s with
    | event name id =>
      have first : Edited w (w.retract (.event name id)) [.unsubscribe name id] := ⟨rfl, rfl⟩
      exact first.trans later
    | threshold id =>
      have first : Edited w (w.retract (.threshold id)) [.unlisten id] := ⟨rfl, rfl⟩
      exact first.trans later
    | timer index =>
      have first : Edited w (w.cancelTimer index) [] := .of_shelves (shelves_cancelTimer w index)
      exact first.trans later
    | pattern place => exact (edited_disposeWatcher w place).trans later

/-- **Disposing of a rule** takes back what it subscribed. -/
theorem edited_dispose (w : World) (index : Nat) :
    Edited w (w.dispose index) (Edits.dispose w index) := by
  unfold dispose Edits.dispose
  cases w.registrations[index]? with
  | none => exact .of_shelves rfl
  | some r =>
    rw [Option.elim_some]
    dsimp only
    split_ifs with none
    · rw [none]
      exact .of_shelves rfl
    · have taken := edited_foldl_retract (w.modifyRegistration index fun r =>
        { r with disposed := true, subscriptions := [] }) r.subscriptions
      exact ⟨taken.bus, taken.store⟩

/-- **Unregistering a rule** makes the edits of disposing of it, if it is listed. -/
theorem edited_unregister (w : World) (id : String) :
    Edited w (w.unregister id) (Edits.unregister w id) := by
  unfold unregister Edits.unregister
  cases w.ruleIndex? id with
  | none => exact .of_shelves rfl
  | some index =>
    have unlisted := edited_dispose { w with engine := w.engine.map (Keyed.remove id) } index
    exact ⟨unlisted.bus, unlisted.store⟩

/-- **Wiring triggers** makes the edits of putting them in, one after another. -/
theorem edited_wireAll (w : World) (index : Nat) (rule : String) (triggers : List Trigger) :
    Edited w (w.wireAll index rule triggers).1
      (Edits.install index w.watchers.length triggers) := by
  induction triggers generalizing w with
  | nil => exact .of_shelves rfl
  | cons trigger rest ih =>
    have later := ih (w.wire index rule trigger).1
    cases trigger with
    | event name =>
      have first : Edited w (w.wire index rule (.event name)).1
          [.subscribe name (.target (.rule index))] := ⟨rfl, rfl⟩
      exact first.trans later
    | threshold entity bounds =>
      have first : Edited w (w.wire index rule (.threshold entity bounds)).1
          [.listenNumber (.threshold index entity bounds)] := ⟨rfl, rfl⟩
      exact first.trans later
    | schedule intervalMs =>
      -- a timer takes no place among the watchers, so the others are numbered as before
      have watchers : (w.addTimer intervalMs.toNat (.rule index)).watchers = w.watchers := by
        unfold addTimer
        split <;> rfl
      rw [wire, watchers] at later
      exact (Edited.of_shelves (shelves_addTimer w _ _)).trans later
    | pattern sequence withinMs =>
      -- the watchers of later triggers come one place later
      have length : (w.addWatcher sequence withinMs (.rule index)).watchers.length
          = w.watchers.length + 1 := List.length_append
      rw [wire, length] at later
      exact (edited_addWatcher w sequence withinMs (.rule index)).trans later
    | unknown => exact ⟨later.bus, later.store⟩

/-- **Enrolling a rule** makes the edits of its triggers. -/
theorem edited_enrol (w : World) (rule : Rule) :
    Edited w (w.enrol rule) (Edits.enrol w rule) := by
  have wired := edited_wireAll
    { w with registrations := w.registrations ++ [({ rule } : Registration)] }
    w.registrations.length rule.id rule.triggers
  exact ⟨wired.bus, wired.store⟩

/-- **Registering a rule** makes the edits of disposing of the one before it, and then its own. -/
theorem edited_register (w : World) (rule : Rule) :
    Edited w (w.register rule) (Edits.register w rule) := by
  have first := edited_unregister w rule.id
  unfold register Edits.register
  by_cases known : (w.ruleIndex? rule.id).isSome = true
  · have put := edited_enrol ((w.unregister rule.id).note .ruleReplaced) rule
    by_cases enabled : rule.enabled = true
    · simp only [known, enabled, if_true]
      exact first.trans ⟨put.bus, put.store⟩
    · simp only [known, enabled, if_true, Bool.false_eq_true, if_false]
      exact first.trans (.of_shelves rfl)
  · by_cases enabled : rule.enabled = true
    · simp only [known, enabled, if_true, Bool.false_eq_true, if_false]
      exact first.trans (edited_enrol (w.unregister rule.id) rule)
    · simp only [known, enabled, Bool.false_eq_true, if_false]
      exact first.trans (.of_shelves rfl)

/-- **Loading a document** makes the edits of its rules. -/
theorem edited_load (w : World) (document : String) :
    Edited w (w.load document) (Edits.load w document) := by
  unfold load Edits.load
  cases Batch.read document with
  | error fault => exact .of_shelves rfl
  | ok batch =>
    have each (v : World) (entries : List Skipped) :
        (entries.foldl (fun w s => w.record (.skipped s)) v).shelves = v.shelves := by
      induction entries generalizing v with
      | nil => rfl
      | cons entry rest ih => exact ih (v.record (.skipped entry))
    have told := Edited.of_shelves (each w batch.skipped)
    have registered := edited_inTurn register Edits.register edited_register
      (batch.skipped.foldl (fun w s => w.record (.skipped s)) w) batch.rules
    exact told.trans (registered.congr rfl)

/-- **Disposing of rules** makes the edits of disposing of each in turn. -/
theorem edited_disposeEach (w : World) (engine : Option (Keyed Nat)) :
    Edited w ({ w with engine }.disposeEach (w.engine.getD [])) (Edits.disposeEach w engine) := by
  have each := edited_inTurn (fun w (entry : String × Nat) => w.dispose entry.2)
    (fun w entry => Edits.dispose w entry.2) (fun w entry => edited_dispose w entry.2)
    { w with engine } (w.engine.getD [])
  exact ⟨each.bus, each.store⟩

/-! ## 5. What operations edit -/

/-- **Obeying a command** edits what it writes, and nothing else. -/
theorem edited_applyCommand (w : World) (frames : List Frame) (command : Command) :
    Edited w (w.applyCommand frames command) (Edits.command command) := by
  cases command <;> exact ⟨rfl, rfl⟩

/-- **Reading a line** makes the edits of its command. -/
theorem edited_readLine (w : World) (text : String) :
    Edited w (w.readLine text) (Edits.line text) := by
  unfold readLine Edits.line
  cases Command.read text with
  | ok command => exact edited_applyCommand w _ command
  | error e => exact .of_shelves rfl

/-- What is asked of the engine **edits nothing when it is gone**. -/
theorem edited_withEngine (w : World) (act : World → World) {es : List Edit}
    (h : Edited w (act w) es) :
    Edited w (w.withEngine act) (if w.engine.isSome then es else []) := by
  unfold withEngine
  split_ifs
  · exact h
  · exact .of_shelves rfl

/-- **Every operation** makes its edits. -/
theorem edited_perform (w : World) (op : Operation) :
    Edited w (w.perform op) (Edits.perform w op) := by
  cases op with
  | subscribe | emit | subscribers | setNumber | setText | get | listenNumber | listenText
  | listeners | isCancelled | console => exact ⟨rfl, rfl⟩
  -- both sides look under one label, so one case split settles them
  | subscribeAgain label source name =>
    simp only [perform, Edits.perform]
    split <;> next held => rw [held]; exact ⟨rfl, rfl⟩
  | unsubscribe label other =>
    simp only [perform, Edits.perform]
    split <;> next held => rw [held]; exact ⟨rfl, rfl⟩
  | unlisten label =>
    simp only [perform, Edits.perform]
    split <;> next held => rw [held]; exact ⟨rfl, rfl⟩
  | watch label sequence withinMs script =>
    simp only [perform, Edits.perform, watchAs]
    let added := (w.addCallback label script).addWatcher sequence withinMs
      (.callback w.callbacks.length)
    -- the new watcher is listed before the one that had the label is disposed of
    have first : Edited w added (Edits.watch sequence w.watchers.length) := by
      have new := edited_addWatcher (w.addCallback label script) sequence withinMs
        (.callback w.callbacks.length)
      exact ⟨new.bus, new.store⟩
    refine first.trans ?_
    have kept : (w.addCallback label script).labels.watchers.lookup label
        = w.labels.watchers.lookup label := rfl
    rw [kept]
    cases w.labels.watchers.lookup label with
    | none => exact .of_shelves rfl
    | some index =>
      have disposed := edited_disposeWatcher
        { added with labels := { added.labels with
          watchers := added.labels.watchers.put label w.watchers.length } } index
      exact ⟨disposed.bus, disposed.store⟩
  | watchDispose label =>
    simp only [perform, Edits.perform]
    split
    · next index held =>
      rw [held]
      exact (edited_disposeWatcher w index).congr rfl
    · next held =>
      rw [held]
      exact .of_shelves rfl
  | watchDrop label =>
    simp only [perform, Edits.perform]
    split
    · next index held =>
      rw [held]
      have disposed := edited_disposeWatcher
        { w with labels := { w.labels with watchers := w.labels.watchers.remove label } } index
      exact ⟨disposed.bus, disposed.store⟩
    · next held =>
      rw [held]
      exact .of_shelves rfl
  | watchState label =>
    simp only [perform, Edits.perform]
    split <;> exact .of_shelves rfl
  | timer label ms script =>
    exact .of_shelves (shelves_timerAs (w.addCallback label script) label ms.toNat _)
  | timerCancel label =>
    simp only [perform, Edits.perform]
    split
    · exact .of_shelves (shelves_cancelTimer w _)
    · exact .of_shelves rfl
  | timerActive label =>
    simp only [perform, Edits.perform]
    split <;> exact .of_shelves rfl
  | timerDrop label =>
    simp only [perform, Edits.perform]
    split
    · exact .of_shelves (shelves_cancelTimer _ _)
    · exact .of_shelves rfl
  | run label actions =>
    simp only [perform, Edits.perform]
    split <;> exact .of_shelves rfl
  | cancel label => exact .of_shelves (shelves_cancelLabel w label)
  | line text => exact edited_readLine w text
  | describe part =>
    simp only [perform, Edits.perform]
    split <;> exact .of_shelves rfl
  -- the engine makes its edits, or none when it is gone
  | register rule =>
    cases rule with
    | none =>
      simp only [perform, Edits.perform, withEngine]
      split_ifs <;> exact .of_shelves rfl
    | some rule =>
      have registered := edited_register w rule
      exact edited_withEngine w (fun w => (w.register rule).respond (.ruleId rule.id))
        ⟨registered.bus, registered.store⟩
  | load document => exact edited_withEngine w (·.load document) (edited_load w document)
  | unregister id =>
    have taken := edited_unregister w id
    exact edited_withEngine w
      (fun w => (w.unregister id).respond (.flag (w.ruleIndex? id).isSome))
      ⟨taken.bus, taken.store⟩
  | trigger id =>
    simp only [perform, Edits.perform, withEngine]
    split_ifs
    · split
      · exact .of_shelves (shelves_fire w _)
      · exact .of_shelves rfl
    · exact .of_shelves rfl
  | ruleIds =>
    simp only [perform, Edits.perform, withEngine]
    split_ifs <;> exact .of_shelves rfl
  | isRunning id =>
    simp only [perform, Edits.perform, withEngine]
    split_ifs <;> exact .of_shelves rfl
  | disposeAll =>
    have taken := edited_disposeEach w (w.engine.map fun _ => [])
    exact edited_withEngine w (fun w => w.disposeAll.respond .done) ⟨taken.bus, taken.store⟩
  | dropEngine =>
    have taken := edited_disposeEach w none
    exact edited_withEngine w (fun w => w.dropEngine.respond .done) ⟨taken.bus, taken.store⟩

/-! ## 6. Histories -/

/-- **Reading lines** makes the edits of the first one that asks for something. -/
theorem edited_readLines (w : World) (shown : List String) (lines : List (Option String)) :
    Edited w (w.readLines shown lines) (Edits.lines lines) := by
  unfold readLines Edits.lines
  split
  · exact .of_shelves rfl
  · exact .of_shelves rfl
  · next text rest =>
    dsimp only [Edits.line]
    cases Command.read text with
    | ok command => exact edited_applyCommand w _ command
    | error e => cases e <;> exact .of_shelves rfl

/-- **Every step** makes its edits. -/
theorem edited_step (exec : Executor) (w : World) : Edited w (w.step exec) w.edits := by
  cases stack : w.stack with
  | nil =>
    rw [step_idle exec w stack, edits, stack]
    exact .of_shelves rfl
  | cons frame rest =>
    let below : World := { w with stack := rest }
    have taken : w.step exec = below.act exec frame := by rw [step, stack]
    -- frames other than operations and lines make no edits
    have quiet (none : w.edits = []) (same : (below.act exec frame).shelves = below.shelves) :
        Edited w (w.step exec) w.edits := by
      rw [taken, none]
      exact .of_shelves same
    cases frame with
    | perform op =>
      have done := edited_perform below op
      rw [taken, edits, stack]
      exact ⟨done.bus, done.store⟩
    | lines lines shown =>
      have done := edited_readLines below shown lines
      rw [taken, edits, stack]
      exact ⟨done.bus, done.store⟩
    | respond answer => exact quiet (by rw [edits, stack]) rfl
    | record => exact quiet (by rw [edits, stack]) rfl
    | deliver event handlers =>
      refine quiet (by rw [edits, stack]) ?_
      cases handlers with
      | nil => rfl
      | cons handler rest => exact shelves_handle (below.push [.deliver event rest]) event handler
    | tellNumber key value listeners =>
      refine quiet (by rw [edits, stack]) ?_
      cases listeners with
      | nil => rfl
      | cons listener rest =>
        exact shelves_hearNumber (below.push [.tellNumber key value rest]) key value listener
    | tellText key value listeners =>
      refine quiet (by rw [edits, stack]) ?_
      cases listeners with
      | nil => rfl
      | cons listener rest =>
        exact shelves_runCallback (below.push [.tellText key value rest]) listener _
    | execute run => exact quiet (by rw [edits, stack]) (shelves_execute exec below run)
    | serve run call => exact quiet (by rw [edits, stack]) (shelves_serve below run call)
    | resume task =>
      refine quiet (by rw [edits, stack]) ?_
      cases task with
      | run id => exact shelves_resumeRun below id
      | timer index => exact shelves_tick below index
    | drain => exact quiet (by rw [edits, stack]) (shelves_drain below)
    | advanceTo time => exact quiet (by rw [edits, stack]) (shelves_advanceTo below time)
    | leap ms =>
      exact quiet (by rw [edits, stack]) (shelves_wakeDue { below with now := below.now + ms })

/-- **Every history only edits**: the bus and the store after it are those of before with all edits
of the way made in order. -/
theorem edited_after (exec : Executor) (w : World) (moves : List Move) :
    Edited w (w.after exec moves) (w.editsDone exec moves) := by
  induction moves generalizing w with
  | nil => exact .of_shelves rfl
  | cons m moves ih =>
    cases m with
    | step => exact (edited_step exec w).trans (ih (w.step exec))
    | receive s =>
      have taken : Edited w (w.receive s) [] := .of_shelves (by cases s <;> rfl)
      exact taken.trans (ih (w.receive s))

end World

end RuleDispatch
