import RuleDispatch.Proofs.Chores
import RuleDispatch.Proofs.History

/-! # The fittings of a world

The bus, the listeners, the watchers, the timers and who holds on to them are the fittings of a world.
Most of what the world does leaves them alone; this is said here once for each function. What does
touch them comes down to a few kinds of work: something is fitted or taken off from outside, and rules
are put in and taken out.

* `World.rack`, `World.fittings` — the part of a world that says who is called when.
* `fittings_…` — what leaves it alone.
* `World.Work`, `World.Works` — one piece of work on it, several in a row.
* `World.works_move` — every move is such work, from outside only if an operation asks for it. -/

namespace RuleDispatch

/-- Events do not change **how much time** a pattern has. -/
@[simp] theorem Matcher.withinMs_observe (m : Matcher) (name : String) (time : Timestamp) :
    (m.observe name time).2.withinMs = m.withinMs := by
  unfold observe
  split
  · rfl
  · grind

/-- A list without repetitions holds **nothing twice**. -/
theorem nodup_eraseDups (names : List String) : names.eraseDups.Nodup := by
  match names with
  | [] => exact .nil
  | name :: rest =>
    have shorter : (rest.filter fun other => !other == name).length < rest.length + 1 :=
      Nat.lt_succ_of_le (List.length_filter_le _ _)
    rw [List.eraseDups_cons, List.nodup_cons]
    exact ⟨by simp, nodup_eraseDups _⟩
termination_by names.length

/-- A watcher **before any event**. -/
def Watcher.unseen (x : Watcher) : Watcher :=
  { x with matcher := .fresh x.matcher.sequence x.matcher.withinMs }

/-- A timer, **whenever it is due**. -/
def Timer.undated (t : Timer) : Timer :=
  { t with deadline := 0 }

/-- A registration **without its runs**. -/
def Registration.unslotted (r : Registration) : Registration :=
  { r with slot := {} }

/-- The operations that work on the fittings **from outside**: they subscribe callbacks and take them
back. -/
def Operation.isOutside : Operation → Bool
  | .subscribe _ _ _ | .subscribeAgain _ _ _ | .unsubscribe _ _ | .listenNumber _ _
  | .listenText _ _ | .unlisten _ | .watch _ _ _ _ | .watchDispose _ | .watchDrop _ | .timer _ _ _
  | .timerCancel _ | .timerDrop _ => true
  | .emit _ _ _ | .subscribers _ | .setNumber _ _ | .setText _ _ | .get _ | .listeners
  | .watchState _ | .timerActive _ | .run _ _ | .cancel _ | .isCancelled _ | .line _ | .console _
  | .describe _ | .register _ | .load _ | .unregister _ | .trigger _ | .ruleIds | .isRunning _
  | .disposeAll | .dropEngine => false

/-- Whether a frame carries out one of these. -/
def Frame.isOutside : Frame → Bool
  | .perform op => op.isOutside
  | _ => false

/-- The **rack**: what is called back, wherever it is. -/
structure Rack where
  bus : Bus Handler
  numbers : List (Nat × NumberListener)
  texts : List (Nat × Nat)
  nextListener : Nat
  watchers : List Watcher
  timers : List Timer

/-- The **fittings**: the rack, the labels that hold on to what is there, and the rules. -/
structure Fittings extends Rack where
  labels : Labels
  registrations : List Registration
  engine : Option (Keyed Nat)

namespace World

/-- The rack **of a world**. -/
def rack (w : World) : Rack where
  bus := w.bus
  numbers := w.store.numberListeners
  texts := w.store.textListeners
  nextListener := w.store.nextId
  watchers := w.watchers.map Watcher.unseen
  timers := w.timers.map Timer.undated

/-- The fittings **of a world**. -/
def fittings (w : World) : Fittings where
  toRack := w.rack
  labels := { w.labels with cancelled := [] }
  registrations := w.registrations.map Registration.unslotted
  engine := w.engine

/-! ## 1. What leaves the fittings alone -/

@[simp] theorem fittings_record (w : World) (entry : Entry) :
    (w.record entry).fittings = w.fittings := rfl

@[simp] theorem fittings_note (w : World) (n : Note) : (w.note n).fittings = w.fittings := rfl

@[simp] theorem fittings_push (w : World) (frames : List Frame) :
    (w.push frames).fittings = w.fittings := rfl

/-- **Waking a task** leaves the fittings. -/
@[simp] theorem fittings_wake (w : World) (task : Task) : (w.wake task).fittings = w.fittings := by
  unfold wake
  split <;> rfl

/-- **Waking what is due** leaves the fittings. -/
@[simp] theorem fittings_wakeDue (w : World) : w.wakeDue.fittings = w.fittings := by
  unfold wakeDue
  generalize w.due = tasks
  induction tasks generalizing w with
  | nil => rfl
  | cons task rest ih => rw [List.foldl_cons, ih, fittings_wake]

@[simp] theorem fittings_modifyRun (w : World) (id : Nat) (f : Run → Run) :
    (w.modifyRun id f).fittings = w.fittings := rfl

/-- **Cancelling a run** leaves the fittings. -/
@[simp] theorem fittings_cancelRun (w : World) (id : Nat) :
    (w.cancelRun id).fittings = w.fittings := by
  unfold cancelRun
  dsimp only
  split
  · rw [fittings_wake, fittings_modifyRun]
  · rfl

/-- **Cancelling a labelled run** leaves the fittings. -/
theorem fittings_cancelLabel (w : World) (label : String) :
    (w.cancelLabel label).fittings = w.fittings := by
  have each (v : World) (runs : List Run) :
      (runs.foldl (fun w r => w.cancelRun r.id) v).fittings = v.fittings := by
    induction runs generalizing v with
    | nil => rfl
    | cons r rest ih => rw [List.foldl_cons, ih, fittings_cancelRun]
  exact each { w with labels := { w.labels with cancelled := label :: w.labels.cancelled } } _

@[simp] theorem fittings_spawn (w : World) (owner : Owner) (actions : List Action)
    (cancelled : Bool) : (w.spawn owner actions cancelled).fittings = w.fittings := rfl

/-- What a change of one thing among others **does not show** stays. -/
theorem map_modify_eq {α β : Type} (things : List α) (index : Nat) {f : α → α} {g : α → β}
    (h : ∀ a, things[index]? = some a → g (f a) = g a) :
    (things.modify index f).map g = things.map g := by
  refine List.ext_getElem? fun place => ?_
  rw [List.getElem?_map, List.getElem?_modify, List.getElem?_map]
  cases found : things[place]? with
  | none => rfl
  | some a =>
    by_cases here : index = place
    · simp [here, h a (here ▸ found)]
    · simp [here]

/-- Changing a registration leaves the fittings alone if **only its runs** change. -/
theorem fittings_modifyRegistration (w : World) (index : Nat) {f : Registration → Registration}
    (h : ∀ r, (f r).unslotted = r.unslotted) :
    (w.modifyRegistration index f).fittings = w.fittings := by
  simp only [fittings, rack, modifyRegistration, map_modify_eq w.registrations index fun r _ => h r]

/-- **Making a run yield** leaves the fittings. -/
@[simp] theorem fittings_preempt (w : World) (rule : String) (run : Option Nat) :
    (w.preempt rule run).fittings = w.fittings := by
  cases run with
  | none => rfl
  | some id => exact fittings_cancelRun _ id

/-- **Starting a run of a rule** leaves the fittings. -/
theorem fittings_startRun (w : World) (index : Nat) (r : Registration) :
    (w.startRun index r).fittings = w.fittings := by
  unfold startRun
  rw [fittings_spawn, fittings_note]
  refine (fittings_modifyRegistration _ index fun _ => ?_).trans (fittings_preempt w r.rule.id _)
  rfl

/-- **Firing a rule** leaves the fittings. -/
@[simp] theorem fittings_fire (w : World) (index : Nat) : (w.fire index).fittings = w.fittings := by
  unfold fire
  split
  · rfl
  · split_ifs
    · rfl
    · rfl
    · rfl
    · exact fittings_startRun w index _

/-- **Calling a callback** leaves the fittings: what it does comes later. -/
@[simp] theorem fittings_runCallback (w : World) (index : Nat) (entry : String → Entry) :
    (w.runCallback index entry).fittings = w.fittings := by
  unfold runCallback
  split <;> rfl

/-- **Calling a target** leaves the fittings. -/
@[simp] theorem fittings_callTarget (w : World) (entry : String → Entry) (target : Target) :
    (w.callTarget entry target).fittings = w.fittings := by
  cases target with
  | callback index => exact fittings_runCallback w index entry
  | rule index => exact fittings_fire w index

/-- **Settling what a watcher made of an event** leaves the fittings. -/
@[simp] theorem fittings_settleWatcher (w : World) (watcher : Watcher) (name : String)
    (outcome : Outcome) : (w.settleWatcher watcher name outcome).fittings = w.fittings := by
  cases outcome with
  | completed =>
    unfold settleWatcher
    dsimp only
    split_ifs
    · rfl
    · exact fittings_callTarget w _ _
  | advanced | restarted | reset | ignored | expired => rfl

/-- **Delivering an event** leaves the fittings. -/
@[simp] theorem fittings_handle (w : World) (event : Event) (handler : Handler) :
    (w.handle event handler).fittings = w.fittings := by
  cases handler with
  | target target => exact fittings_callTarget w _ target
  | watcher index =>
    simp only [handle, observe]
    split
    · rfl
    · next watcher found =>
      rw [fittings_settleWatcher]
      -- the matcher gets on, but looks for the same
      have unseen := map_modify_eq (g := Watcher.unseen) w.watchers index
        (f := fun x => { x with matcher := (watcher.matcher.observe event.name event.timestamp).2 })
        fun x there => by
          obtain rfl := Option.some.inj (found.symm.trans there)
          simp [Watcher.unseen]
      simp only [fittings, rack, unseen]

/-- **Telling a listener of a number** leaves the fittings. -/
@[simp] theorem fittings_hearNumber (w : World) (key : String) (value : Float)
    (listener : NumberListener) : (w.hearNumber key value listener).fittings = w.fittings := by
  cases listener with
  | callback index => exact fittings_runCallback w index _
  | threshold rule entity bounds =>
    unfold hearNumber
    dsimp only
    split_ifs
    · exact fittings_fire w rule
    · rfl

/-- **A tick of a timer** leaves the fittings. -/
@[simp] theorem fittings_tick (w : World) (index : Nat) : (w.tick index).fittings = w.fittings := by
  unfold tick
  split
  · rfl
  · next t _ =>
    dsimp only
    split_ifs
    · rfl
    · rw [fittings_callTarget, fittings_push]
      have undated := map_modify_eq (g := Timer.undated) w.timers index
        (f := fun other => { other with deadline := t.nextDeadline w.now }) fun _ _ => rfl
      simp only [fittings, rack, undated]

/-- **Obeying a command** leaves the fittings. -/
@[simp] theorem fittings_applyCommand (w : World) (frames : List Frame) (command : Command) :
    (w.applyCommand frames command).fittings = w.fittings := by
  cases command <;> rfl

/-- **Reading a line** leaves the fittings. -/
@[simp] theorem fittings_readLine (w : World) (line : String) :
    (w.readLine line).fittings = w.fittings := by
  unfold readLine
  split
  · exact fittings_applyCommand w _ _
  · rfl

/-- **Reading lines** leaves the fittings. -/
@[simp] theorem fittings_readLines (w : World) (shown : List String)
    (lines : List (Option String)) : (w.readLines shown lines).fittings = w.fittings := by
  unfold readLines
  split
  · rfl
  · rfl
  · split
    · exact fittings_applyCommand w _ _
    · rfl
    · rfl

/-- The **end of a run** leaves the fittings alone. -/
theorem fittings_release (w : World) (index generation : Nat) :
    (w.release index generation).fittings = w.fittings :=
  fittings_modifyRegistration w index fun _ => rfl

/-- **The end of a run** leaves the fittings. -/
@[simp] theorem fittings_finishRun (w : World) (r : Run) :
    (w.finishRun r).fittings = w.fittings := by
  unfold finishRun
  dsimp only
  split
  · rw [fittings_release]
    rfl
  · rfl

/-- **A panic of a run** leaves the fittings. -/
@[simp] theorem fittings_panicRun (w : World) (r : Run) : (w.panicRun r).fittings = w.fittings := by
  unfold panicRun
  dsimp only
  split
  · rw [fittings_release]
    rfl
  · rfl

/-- So do **strides, service calls and turns**. -/
theorem fittings_execute (exec : Executor) (w : World) (id : Nat) :
    (w.execute exec id).fittings = w.fittings := by
  unfold execute
  split
  · rfl
  · next r _ =>
    dsimp only
    generalize r.progress.next r.cancelled = taken
    obtain ⟨demand, progress⟩ := taken
    cases demand with
    | nothing | call | stop => rfl
    | wait ms =>
      show (waitFor _ _ _).fittings = _
      unfold waitFor
      split <;> rfl
    | finish => exact fittings_finishRun _ _

/-- **A step of a service call** leaves the fittings. -/
theorem fittings_serve (w : World) (id : Nat) (call : Call) :
    (w.serve id call).fittings = w.fittings := by
  unfold serve
  split
  · unfold endCall
    split
    · rfl
    · rfl
    · split
      · rfl
      · exact fittings_panicRun w _
  · rfl
  · dsimp only
    split <;> rfl

/-- **Waking a run up** leaves the fittings. -/
theorem fittings_resumeRun (w : World) (id : Nat) : (w.resumeRun id).fittings = w.fittings := by
  unfold resumeRun
  split
  · rfl
  · split
    · rfl
    · split_ifs <;> rfl
    · split_ifs <;> rfl

/-- So do the **moves of the clock**. -/
theorem fittings_advanceTo (w : World) (time : Nat) : (w.advanceTo time).fittings = w.fittings := by
  unfold advanceTo
  split
  · split
    · exact fittings_wakeDue _
    · rfl
  · rfl

/-- **Giving the ready their turns** leaves the fittings. -/
theorem fittings_drain (w : World) : w.drain.fittings = w.fittings := by
  unfold drain
  split <;> rfl

/-! ## 2. Work -/

/-- What a label of a world **holds on to**. A subscription may be taken back under any name. -/
def Labelled (w : World) : Subscription → Prop
  | .event _ id => ∃ held ∈ w.labels.subscriptions, held.2.2.1 = id
  | .threshold id => ∃ held ∈ w.labels.listeners, held.2 = id
  | .timer index => ∃ held ∈ w.labels.timers, held.2 = index
  | .pattern place => ∃ held ∈ w.labels.watchers, held.2 = place

/-- A handler that may be subscribed **from outside**: a callback, or the handler that a label holds. -/
def Lends (w : World) (handler : Handler) : Prop :=
  (∃ place, handler = .target (.callback place))
    ∨ ∃ held ∈ w.labels.subscriptions, held.2.2.2 = handler

/-- One **piece of work** on the fittings, from outside or for rules. -/
inductive Work : Bool → World → World → Prop where
  /-- They are left alone. -/
  | quiet {outside : Bool} {w w' : World} (same : w'.fittings = w.fittings) : Work outside w w'
  /-- A callback is subscribed. -/
  | subscribe {w : World} (label name : String) {handler : Handler} (lends : w.Lends handler) :
      Work true w (w.subscribeAs label name handler)
  /-- A callback listens to numbers. -/
  | listenNumber (w : World) (label : String) (place : Nat) :
      Work true w { w with
        store := w.store.listenNumber (.callback place)
        labels := { w.labels with listeners := w.labels.listeners.put label w.store.nextId } }
  /-- A callback listens to texts. -/
  | listenText (w : World) (label : String) (place : Nat) :
      Work true w { w with
        store := w.store.listenText place
        labels := { w.labels with listeners := w.labels.listeners.put label w.store.nextId } }
  /-- A callback waits for a pattern. -/
  | watch (w : World) (label : String) (sequence : List String) (withinMs : UInt64) (place : Nat) :
      Work true w (w.watchAs label sequence withinMs (.callback place))
  /-- A callback is called by a timer. -/
  | timer (w : World) (label : String) (interval place : Nat) :
      Work true w (w.timerAs label interval (.callback place))
  /-- What a label holds on to is taken off. -/
  | retract {w : World} {s : Subscription} (labelled : w.Labelled s) : Work true w (w.retract s)
  /-- A label lets go of its watcher, or of its timer. -/
  | letGoWatcher (w : World) (label : String) :
      Work true w { w with labels := { w.labels with watchers := w.labels.watchers.remove label } }
  | letGoTimer (w : World) (label : String) :
      Work true w { w with labels := { w.labels with timers := w.labels.timers.remove label } }
  /-- A rule is taken out. -/
  | unregister (w : World) (id : String) : Work false w (w.unregister id)
  /-- A rule is put in under an id that is free. -/
  | enrol {w : World} {rule : Rule} (enabled : rule.enabled = true)
      (free : w.ruleIndex? rule.id = none) (there : w.engine.isSome = true) :
      Work false w (w.enrol rule)
  /-- All rules are taken out. -/
  | disposeAll (w : World) : Work false w w.disposeAll
  /-- The engine is dropped. -/
  | dropEngine (w : World) : Work false w w.dropEngine

/-- **Several pieces of work** in a row. -/
abbrev Works (outside : Bool) : World → World → Prop :=
  Relation.ReflTransGen (Work outside)

/-- What leaves the fittings alone is no work. -/
theorem Works.quiet {outside : Bool} {w w' : World} (same : w'.fittings = w.fittings) :
    Works outside w w' :=
  .single (.quiet same)

/-- Work that is **answered** is still work. -/
theorem Works.respond {outside : Bool} {w w' : World} (h : Works outside w w') (answer : Answer) :
    Works outside w (w'.respond answer) :=
  h.tail (.quiet rfl)

/-! ## 3. Rules -/

/-- **Registering a rule** is work on behalf of rules, when the engine is there. -/
theorem works_register (w : World) (rule : Rule) (there : w.engine.isSome = true) :
    Works false w (w.register rule) := by
  have first : Works false w (w.unregister rule.id) := .single (.unregister w rule.id)
  have free := ruleIndex?_unregister w rule.id
  have still : (w.unregister rule.id).engine.isSome = true := by
    rw [isSome_engine_unregister, there]
  unfold register
  dsimp only
  split_ifs with enabled known
  · have noted : Works false w ((w.unregister rule.id).note .ruleReplaced) :=
      first.tail (.quiet rfl)
    exact noted.tail (.enrol enabled free still)
  · exact first.tail (.enrol enabled free still)
  · exact first.tail (.quiet rfl)
  · exact first.tail (.quiet rfl)

/-- **Registering rules** is work on behalf of rules, when the engine is there. -/
theorem works_registerAll (w : World) (rules : List Rule) (there : w.engine.isSome = true) :
    Works false w (w.registerAll rules) := by
  unfold registerAll
  induction rules generalizing w with
  | nil => exact .refl
  | cons rule rest ih =>
    exact (works_register w rule there).trans (ih _ (by rw [isSome_engine_register, there]))

/-- **Loading a document** is work on behalf of rules, when the engine is there. -/
theorem works_load (w : World) (document : String) (there : w.engine.isSome = true) :
    Works false w (w.load document) := by
  unfold load
  split
  · exact .quiet rfl
  · next batch _ =>
    let told := batch.skipped.foldl (fun w s => w.record (.skipped s)) w
    have same : told.fittings = w.fittings := by
      have each (v : World) (entries : List Skipped) :
          (entries.foldl (fun w s => w.record (.skipped s)) v).fittings = v.fittings := by
        induction entries generalizing v with
        | nil => rfl
        | cons entry rest ih => rw [List.foldl_cons, ih, fittings_record]
      exact each w batch.skipped
    have still : told.engine.isSome = true := by
      rw [show told.engine = w.engine from congrArg Fittings.engine same, there]
    exact Works.respond ((Works.quiet same).trans (works_registerAll told batch.rules still)) _

/-- What is asked of the engine is done when it is there. -/
theorem works_withEngine (w : World) {act : World → World}
    (h : w.engine.isSome = true → Works false w (act w)) : Works false w (w.withEngine act) := by
  unfold withEngine
  split_ifs with there
  · exact h there
  · exact .quiet rfl

/-! ## 4. Operations -/

/-- **Every operation** works on the fittings, from outside only if it is one of those that do. -/
theorem works_perform (w : World) (op : Operation) : Works op.isOutside w (w.perform op) := by
  cases op with
  | subscribe label name script =>
    have first : Works true w (w.addCallback label script) := .quiet rfl
    exact Works.respond (first.tail (.subscribe label name (.inl ⟨w.callbacks.length, rfl⟩))) _
  | subscribeAgain label source name =>
    simp only [perform]
    split
    · next held =>
      exact Works.respond
        (.single (.subscribe label name (.inr ⟨_, Keyed.mem_of_lookup held, rfl⟩))) _
    · exact .quiet rfl
  | unsubscribe label name =>
    simp only [perform]
    split
    · next held =>
      have labelled (name : String) : w.Labelled (.event name _) :=
        ⟨_, Keyed.mem_of_lookup held, rfl⟩
      exact Works.respond (.single (.retract (labelled _))) _
    · exact .quiet rfl
  | emit name time data => exact .quiet rfl
  | subscribers name => exact .quiet rfl
  | setNumber key value => exact .quiet rfl
  | setText key value => exact .quiet rfl
  | get key => exact .quiet rfl
  | listenNumber label script =>
    have first : Works true w (w.addCallback label script) := .quiet rfl
    exact Works.respond (first.tail (.listenNumber _ label w.callbacks.length)) _
  | listenText label script =>
    have first : Works true w (w.addCallback label script) := .quiet rfl
    exact Works.respond (first.tail (.listenText _ label w.callbacks.length)) _
  | unlisten label =>
    simp only [perform]
    split
    · next held =>
      have labelled : w.Labelled (.threshold _) := ⟨_, Keyed.mem_of_lookup held, rfl⟩
      exact Works.respond (.single (.retract labelled)) _
    · exact .quiet rfl
  | listeners => exact .quiet rfl
  | watch label sequence withinMs script =>
    have first : Works true w (w.addCallback label script) := .quiet rfl
    exact Works.respond (first.tail (.watch _ label sequence withinMs w.callbacks.length)) _
  | watchDispose label =>
    simp only [perform]
    split
    · next held =>
      have labelled : w.Labelled (.pattern _) := ⟨_, Keyed.mem_of_lookup held, rfl⟩
      exact Works.respond (.single (.retract labelled)) _
    · exact .quiet rfl
  | watchState label =>
    simp only [perform]
    split <;> exact .quiet rfl
  | watchDrop label =>
    simp only [perform]
    split
    · next index held =>
      have labelled : w.Labelled (.pattern index) := ⟨_, Keyed.mem_of_lookup held, rfl⟩
      have taken : Works true w (w.disposeWatcher index) := .single (.retract labelled)
      -- it does not matter that the label lets go first
      have swap : disposeWatcher
            { w with labels := { w.labels with watchers := w.labels.watchers.remove label } } index
          = { w.disposeWatcher index with
              labels := { (w.disposeWatcher index).labels with
                watchers := (w.disposeWatcher index).labels.watchers.remove label } } := by
        unfold disposeWatcher
        dsimp only
        split <;> rfl
      rw [swap]
      exact Works.respond (taken.tail (.letGoWatcher _ label)) _
    · exact .quiet rfl
  | timer label ms script =>
    have first : Works true w (w.addCallback label script) := .quiet rfl
    exact first.tail (.timer _ label ms.toNat w.callbacks.length)
  | timerCancel label =>
    simp only [perform]
    split
    · next held =>
      have labelled : w.Labelled (.timer _) := ⟨_, Keyed.mem_of_lookup held, rfl⟩
      exact Works.respond (.single (.retract labelled)) _
    · exact .quiet rfl
  | timerActive label =>
    simp only [perform]
    split <;> exact .quiet rfl
  | timerDrop label =>
    simp only [perform]
    split
    · next index held =>
      have labelled : w.Labelled (.timer index) := ⟨_, Keyed.mem_of_lookup held, rfl⟩
      have taken : Works true w (w.cancelTimer index) := .single (.retract labelled)
      have swap : cancelTimer
            { w with labels := { w.labels with timers := w.labels.timers.remove label } } index
          = { w.cancelTimer index with
              labels := { (w.cancelTimer index).labels with
                timers := (w.cancelTimer index).labels.timers.remove label } } := by
        unfold cancelTimer timerActive
        dsimp only
        split <;> rfl
      rw [swap]
      exact Works.respond (taken.tail (.letGoTimer _ label)) _
    · exact .quiet rfl
  | run label actions =>
    simp only [perform]
    split <;> exact .quiet rfl
  | cancel label => exact Works.quiet (fittings_cancelLabel w label)
  | isCancelled label => exact .quiet rfl
  | line text => exact .quiet (fittings_readLine w text)
  | console bytes => exact .quiet rfl
  | describe part =>
    simp only [perform]
    split <;> exact .quiet rfl
  | register rule =>
    simp only [perform]
    refine works_withEngine w fun there => ?_
    split
    · exact (works_register w _ there).respond _
    · exact .quiet rfl
  | load document =>
    simp only [perform]
    exact works_withEngine w fun there => works_load w document there
  | unregister id =>
    simp only [perform]
    exact works_withEngine w fun _ => Works.respond (.single (.unregister w id)) _
  | trigger id =>
    simp only [perform]
    refine works_withEngine w fun _ => ?_
    split
    · exact .quiet (fittings_fire w _)
    · exact .quiet rfl
  | ruleIds =>
    simp only [perform]
    exact works_withEngine w fun _ => .quiet rfl
  | isRunning id =>
    simp only [perform]
    exact works_withEngine w fun _ => .quiet rfl
  | disposeAll =>
    simp only [perform]
    exact works_withEngine w fun _ => Works.respond (.single (.disposeAll w)) _
  | dropEngine =>
    simp only [perform]
    exact works_withEngine w fun _ => Works.respond (.single (.dropEngine w)) _

/-! ## 5. Moves -/

/-- **Whatever is done** works on the fittings. -/
theorem works_act (exec : Executor) (w : World) (frame : Frame) :
    Works frame.isOutside w (w.act exec frame) := by
  cases frame with
  | perform op => exact works_perform w op
  | respond answer => exact .quiet rfl
  | record => exact .quiet rfl
  | deliver event handlers =>
    cases handlers with
    | nil => exact .refl
    | cons handler rest => exact .quiet (fittings_handle (w.push [.deliver event rest]) event handler)
  | tellNumber key value listeners =>
    cases listeners with
    | nil => exact .refl
    | cons listener rest =>
      exact .quiet (fittings_hearNumber (w.push [.tellNumber key value rest]) key value listener)
  | tellText key value listeners =>
    cases listeners with
    | nil => exact .refl
    | cons listener rest =>
      exact .quiet (fittings_runCallback (w.push [.tellText key value rest]) listener _)
  | lines rest shown => exact .quiet (fittings_readLines w shown rest)
  | execute run => exact .quiet (fittings_execute exec w run)
  | serve run call => exact .quiet (fittings_serve w run call)
  | resume task =>
    cases task with
    | run id => exact .quiet (fittings_resumeRun w id)
    | timer index => exact .quiet (fittings_tick w index)
  | drain => exact .quiet (fittings_drain w)
  | advanceTo time => exact .quiet (fittings_advanceTo w time)
  | leap ms => exact .quiet (fittings_wakeDue { w with now := w.now + ms })

/-- Whether a move works on the fittings **from outside**: it carries out an operation that does. -/
def worksOutside (w : World) : Move → Bool
  | .step => w.stack.head?.any Frame.isOutside
  | .receive _ => false

/-- **Every move** is work on the fittings. -/
theorem works_move (exec : Executor) (w : World) (m : Move) :
    Works (w.worksOutside m) w (w.move exec m) := by
  cases m with
  | receive s => cases s <;> exact .quiet rfl
  | step =>
    show Works (w.stack.head?.any Frame.isOutside) w (w.step exec)
    unfold step
    split
    · exact .refl
    · next frame rest stack =>
      have popped : Works frame.isOutside w { w with stack := rest } := .quiet rfl
      rw [stack, List.head?_cons, Option.any_some]
      exact popped.trans (works_act exec { w with stack := rest } frame)

end World

end RuleDispatch
