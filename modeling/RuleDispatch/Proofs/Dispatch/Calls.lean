import RuleDispatch.Proofs.Fittings
import RuleDispatch.Proofs.Runs.Extends
import RuleDispatch.Proofs.Slots.Moves

/-! # Signals and those who hear of them

An event emitted and a number written are signals. Whoever is to hear of one is called, one after
another; a call reaches a callback, a rule, or nobody. What comes of it for the runs, the slots and the
rules is said by their ledger and by the store alone.

* `Ledger.started`, `Ledger.fired` — what firing a rule does to the ledger.
* `Signal`, `World.send` — a signal, sent.
* `World.callees`, `World.call` — those who are to be called, one of them called.
* `World.reaches?` — whom a call reaches.
* `World.Called` — what one call does, as long as it reaches no callback that does something. -/

namespace RuleDispatch

/-! ## 1. Firing a rule -/

namespace Ledger

/-- The tasks that are ready after the run that has to **give way** was cancelled: it is among them,
if it was waiting. -/
def woken (l : Ledger) : Option Nat → List Task
  | none => l.ready
  | some id =>
    if (l.runs.find? (·.id = id)).any Run.inWait && .run id ∉ l.ready then l.ready ++ [.run id]
    else l.ready

/-- The ledger with **a run started** for the rule in a place: the run that has to give way is
cancelled, the slot takes note of the new one, and the new one is last of all runs and of all that is
ready. -/
def started (l : Ledger) (index : Nat) (r : Registration) : Ledger :=
  { l with
    entries := l.entries.modify index fun held => { held with slot := r.slot.begin l.nextRun }
    runs := World.yielding l.runs (r.slot.preempts r.rule.mode) ++
      [{ id := l.nextRun, owner := .rule index (r.slot.generation + 1)
         progress := .start r.rule.actions }]
    nextRun := l.nextRun + 1
    ready := l.woken (r.slot.preempts r.rule.mode) ++ [.run l.nextRun] }

/-- The ledger after the rule in a place was **proposed for firing**. -/
def fired (reading : Reading) (l : Ledger) (index : Nat) : Ledger :=
  match l.entries[index]? with
  | none => l
  | some r =>
    if !r.disposed && allHold reading r.rule.conditions && r.slot.accepts r.rule.mode then
      l.started index r
    else l

/-- It does not matter **what else is to be done**. -/
theorem fired_stack (reading : Reading) (l : Ledger) (stack : List Frame) (index : Nat) :
    fired reading { l with stack } index = { fired reading l index with stack } := by
  unfold fired
  dsimp only
  split
  · rfl
  · split_ifs <;> rfl

/-- A firing leaves **what is to be done**. -/
@[simp] theorem stack_fired (reading : Reading) (l : Ledger) (index : Nat) :
    (fired reading l index).stack = l.stack := by
  have same := congrArg Ledger.stack (fired_stack reading l l.stack index)
  exact same

/-- Nor is anything else to be done after several firings. -/
theorem stack_foldl_fired (reading : Reading) (places : List Nat) (l : Ledger) :
    (places.foldl (fired reading) l).stack = l.stack := by
  induction places generalizing l with
  | nil => rfl
  | cons index rest ih => rw [List.foldl_cons, ih, stack_fired]

end Ledger

namespace World

variable {w w' : World}

/-- A task that is woken is **ready once**. -/
theorem ready_wake (w : World) (task : Task) :
    (w.wake task).ready = if task ∈ w.ready then w.ready else w.ready ++ [task] := by
  unfold wake
  split <;> rfl

/-- What is ready **once a run gave way**. -/
theorem ready_preempt (w : World) (rule : String) (run : Option Nat) :
    (w.preempt rule run).ready = w.ledger.woken run := by
  cases run with
  | none => rfl
  | some id =>
    have waits : (w.note (.runCancelled rule)).waitsIn id
        = (w.ledger.runs.find? (·.id = id)).any Run.inWait :=
      waitsIn_eq w id
    simp only [preempt, cancelRun, waits, Ledger.woken]
    cases (w.ledger.runs.find? (·.id = id)).any Run.inWait with
    | false => rfl
    | true =>
      rw [if_pos rfl, Bool.true_and, ready_wake]
      show (if .run id ∈ w.ready then w.ready else w.ready ++ [.run id])
        = if decide (.run id ∉ w.ready) then w.ready ++ [.run id] else w.ready
      by_cases queued : .run id ∈ w.ready <;> simp [queued]

/-- Firing a rule does to the ledger **what the ledger and the store say**. -/
theorem ledger_fire_eq (w : World) (index : Nat) :
    (w.fire index).ledger = w.ledger.fired w.store.reading index := by
  unfold Ledger.fired
  rw [← held?_eq, held?]
  cases registered : w.registrations[index]? with
  | none =>
    rw [fire, registered]
    rfl
  | some r =>
    rw [ledger_fire w registered, ledger_startRun, ready_preempt]
    rfl

/-- Cancelling a run leaves the store, the callbacks and the watchers alone. -/
theorem cancelRun_keeps (w : World) (id : Nat) :
    (w.cancelRun id).store = w.store ∧ (w.cancelRun id).callbacks = w.callbacks
      ∧ (w.cancelRun id).watchers = w.watchers := by
  unfold cancelRun wake
  dsimp only
  split
  · split <;> exact ⟨rfl, rfl, rfl⟩
  · exact ⟨rfl, rfl, rfl⟩

/-- So does **firing a rule**. -/
theorem fire_keeps (w : World) (index : Nat) :
    (w.fire index).store = w.store ∧ (w.fire index).callbacks = w.callbacks
      ∧ (w.fire index).watchers = w.watchers := by
  have preempts (rule : String) (run : Option Nat) :
      (w.preempt rule run).store = w.store ∧ (w.preempt rule run).callbacks = w.callbacks
        ∧ (w.preempt rule run).watchers = w.watchers := by
    cases run with
    | none => exact ⟨rfl, rfl, rfl⟩
    | some id => exact cancelRun_keeps (w.note (.runCancelled rule)) id
  unfold fire
  split
  · exact ⟨rfl, rfl, rfl⟩
  · split_ifs
    · exact ⟨rfl, rfl, rfl⟩
    · exact ⟨rfl, rfl, rfl⟩
    · exact ⟨rfl, rfl, rfl⟩
    · exact preempts _ _

end World

/-! ## 2. Signals -/

/-- A **signal**: an event, or a number written to an entity. -/
inductive Signal where
  | event (event : Event)
  | number (key : String) (value : Float)

/-- What **hears of a signal**. -/
abbrev Signal.Callee : Signal → Type
  | .event _ => Handler
  | .number _ _ => NumberListener

/-- The callees that are left **to be called**. -/
def Signal.frame : (s : Signal) → List s.Callee → Frame
  | .event e, handlers => .deliver e handlers
  | .number key value, listeners => .tellNumber key value listeners

/-- Whether a callee **shows the signal to a watcher**. -/
def Signal.Shows : (s : Signal) → s.Callee → Nat → Prop
  | .event _, handler, place => handler = .watcher place
  | .number _ _, _, _ => False

namespace World

variable {w w' : World}

/-- A signal **sent**. -/
def send (w : World) : Signal → World
  | .event event => w.emit event
  | .number key value => w.writeNumber key value

/-- Those who **are to be called**, in the order in which they were subscribed. -/
def callees (w : World) : (s : Signal) → List s.Callee
  | .event event => w.bus.handlers event.name
  | .number _ _ => w.store.hearNumbers

/-- One of them **called**. -/
def call (w : World) : (s : Signal) → s.Callee → World
  | .event event, handler => w.handle event handler
  | .number key value, listener => w.hearNumber key value listener

/-- **Whom a call reaches**: a watcher calls its target when its pattern is complete, a threshold its
rule when the number is that of its entity and inside its bounds. -/
def reaches? (w : World) : (s : Signal) → s.Callee → Option Target
  | .event _, .target target => some target
  | .event event, .watcher place =>
    (w.watchers[place]?).bind fun x =>
      if (x.matcher.observe event.name event.timestamp).1 = .completed ∧ x.disposed = false then
        some x.target
      else none
  | .number _ _, .callback index => some (.callback index)
  | .number key value, .threshold rule entity bounds =>
    if key = entity && bounds.contains value then some (.rule rule) else none

/-- A callback that **does nothing** when it is called. -/
def Silent (w : World) (index : Nat) : Prop :=
  ∀ c, w.callbacks[index]? = some c → c.script.onCall 0 = []

/-- **What one call does**: it fires the rule that it reaches, and leaves all else alone that counts. -/
structure Called (w w' : World) (reached : Option Target) : Prop where
  /-- The rule reached is proposed for firing, if one is. -/
  ledger : w'.ledger
    = (reached.bind Target.rule?).elim w.ledger (w.ledger.fired w.store.reading)
  /-- The store is left. -/
  store : w'.store = w.store
  /-- Callbacks that do nothing go on doing nothing. -/
  silent : ∀ index, w.Silent index → w'.Silent index

/-! ## 3. Calls -/

/-- The rule that a call reaches is the one that it **proposes for firing**. -/
theorem proposed?_frame (w : World) (s : Signal) (c : s.Callee) (left : List s.Callee) :
    w.proposed? (s.frame (c :: left)) = (w.reaches? s c).bind Target.rule? := by
  cases s with
  | event event =>
    cases c with
    | target target => rfl
    | watcher place =>
      simp only [Signal.frame, proposed?, handlerRule?, reaches?]
      cases w.watchers[place]? with
      | none => rfl
      | some x =>
        simp only [Option.bind_some, Watcher.rule?]
        cases (x.matcher.observe event.name event.timestamp).1 <;> cases x.disposed <;> rfl
  | number key value =>
    cases c with
    | callback index => rfl
    | threshold rule entity bounds =>
      simp only [Signal.frame, proposed?, NumberListener.rule?, reaches?]
      split_ifs <;> rfl

/-- A callback that does nothing **does nothing on later calls** either. -/
theorem onCall_one_of_silent {Op : Type} {script : Script Op} (silent : script.onCall 0 = []) :
    script.onCall 1 = [] := by
  unfold Script.onCall at silent ⊢
  split_ifs with more
  · rwa [if_pos (Nat.lt_of_succ_lt more)] at silent
  · rfl

/-- A callback that does nothing **leaves the watchers alone**. -/
theorem called_runCallback (w : World) (index : Nat) (entry : String → Entry)
    (silent : w.Silent index) :
    Called w (w.runCallback index entry) (some (.callback index))
      ∧ (w.runCallback index entry).watchers = w.watchers := by
  unfold runCallback
  cases found : w.callbacks[index]? with
  | none => exact ⟨⟨rfl, rfl, fun _ => id⟩, rfl⟩
  | some c =>
    have nothing : c.script.call.1 = [] := (Script.fst_call c.script).trans (silent c found)
    refine ⟨⟨?_, rfl, fun other quiet => ?_⟩, rfl⟩
    · show { w.ledger with stack := scriptFrames c.script.call.1 ++ w.stack } = w.ledger
      rw [nothing]
      rfl
    · intro c' there
      replace there : (w.callbacks.modify index _)[other]? = some c' := there
      rw [List.getElem?_modify] at there
      obtain ⟨old, held, rfl⟩ := Option.map_eq_some_iff.mp there
      by_cases here : index = other
      · subst here
        obtain rfl : c = old := Option.some.inj (found.symm.trans held)
        have later := onCall_one_of_silent (silent c found)
        rw [← Script.onCall_snd_call] at later
        rw [if_pos rfl]
        exact later
      · simpa [here] using quiet old held

/-- **A target that is called** fires if it is a rule, and does nothing if it is a callback that does
nothing. -/
theorem called_callTarget (w : World) (entry : String → Entry) (target : Target)
    (silent : ∀ index, target = .callback index → w.Silent index) :
    Called w (w.callTarget entry target) (some target)
      ∧ (w.callTarget entry target).watchers = w.watchers := by
  cases target with
  | callback index => exact called_runCallback w index entry (silent index rfl)
  | rule index =>
    obtain ⟨store, callbacks, watchers⟩ := fire_keeps w index
    refine ⟨⟨ledger_fire_eq w index, store, fun other quiet => ?_⟩, watchers⟩
    show ∀ c, (w.fire index).callbacks[other]? = some c → _
    rw [callbacks]
    exact quiet

/-- Nobody is reached where nothing changes that counts. -/
theorem called_nobody (ledger : w'.ledger = w.ledger) (store : w'.store = w.store)
    (callbacks : w'.callbacks = w.callbacks) : Called w w' none where
  ledger := ledger
  store := store
  silent index quiet := by
    rw [Silent, callbacks]
    exact quiet

/-- A watcher that is **shown an event** calls its target if its pattern is complete. -/
theorem called_observe (w : World) (event : Event) (place : Nat)
    (silent : ∀ index, w.reaches? (.event event) (.watcher place) = some (.callback index) →
      w.Silent index) :
    Called w (w.observe event place) (w.reaches? (.event event) (.watcher place))
      ∧ ∀ other, place ≠ other → (w.observe event place).watchers[other]? = w.watchers[other]? := by
  simp only [observe, reaches?] at silent ⊢
  cases found : w.watchers[place]? with
  | none => exact ⟨called_nobody rfl rfl rfl, fun _ _ => rfl⟩
  | some x =>
    rw [found, Option.bind_some] at silent
    rw [Option.bind_some]
    dsimp only
    generalize x.matcher.observe event.name event.timestamp = observed at silent ⊢
    let shown : World := { w with watchers := w.watchers.modify place fun held =>
      { held with matcher := observed.2 } }
    -- only the watcher itself has seen the event
    have off (other : Nat) (apart : place ≠ other) :
        shown.watchers[other]? = w.watchers[other]? := by
      show (w.watchers.modify place _)[other]? = _
      simp [apart]
    have nobody : Called w shown none := called_nobody rfl rfl rfl
    show Called w (shown.settleWatcher x event.name observed.1) _
      ∧ ∀ other, _ → (shown.settleWatcher x event.name observed.1).watchers[other]? = _
    by_cases calls : observed.1 = .completed ∧ x.disposed = false
    · have settled : shown.settleWatcher x event.name observed.1
          = shown.callTarget .complete x.target := by
        rw [calls.1, settleWatcher, calls.2]
        rfl
      rw [if_pos calls] at silent ⊢
      obtain ⟨called, watchers⟩ := called_callTarget shown .complete x.target
        fun index target => silent index (congrArg some target)
      rw [settled, watchers]
      exact ⟨⟨called.ledger, called.store, called.silent⟩, off⟩
    · rw [if_neg calls]
      cases outcome : observed.1 with
      | completed =>
        -- the pattern is complete, but the watcher was disposed of
        have disposed : x.disposed = true := by simpa [outcome] using calls
        rw [settleWatcher, disposed]
        exact ⟨nobody, off⟩
      | advanced | restarted | reset | ignored => exact ⟨nobody, off⟩
      | expired => exact ⟨called_nobody rfl rfl rfl, off⟩

/-- **No call** changes the fittings. -/
theorem fittings_call (w : World) (s : Signal) (c : s.Callee) : (w.call s c).fittings = w.fittings := by
  cases s with
  | event event => exact fittings_handle w event c
  | number key value => exact fittings_hearNumber w key value c

/-- **Every call** does what it reaches for, and shows the signal to one watcher at most. -/
theorem called_call (w : World) (s : Signal) (c : s.Callee)
    (silent : ∀ index, w.reaches? s c = some (.callback index) → w.Silent index) :
    Called w (w.call s c) (w.reaches? s c)
      ∧ ∀ place, ¬ s.Shows c place → (w.call s c).watchers[place]? = w.watchers[place]? := by
  cases s with
  | event event =>
    cases c with
    | target target =>
      obtain ⟨called, watchers⟩ := called_callTarget w (fun label => .event label event) target
        fun index reached => silent index (congrArg some reached)
      exact ⟨called, fun place _ => congrArg (·[place]?) watchers⟩
    | watcher place =>
      obtain ⟨called, others⟩ := called_observe w event place silent
      exact ⟨called, fun other apart => others other fun same => apart (congrArg _ same)⟩
  | number key value =>
    cases c with
    | callback index =>
      obtain ⟨called, watchers⟩ := called_runCallback w index
        (fun label => .number label key value (w.store.number? key)) (silent index rfl)
      exact ⟨called, fun place _ => congrArg (·[place]?) watchers⟩
    | threshold rule entity bounds =>
      simp only [call, hearNumber, reaches?]
      split_ifs with met
      · obtain ⟨called, watchers⟩ := called_callTarget w .tick (.rule rule) (fun _ => nofun)
        exact ⟨called, fun place _ => congrArg (·[place]?) watchers⟩
      · exact ⟨called_nobody rfl rfl rfl, fun _ _ => rfl⟩

/-- Whom a call reaches depends on what **the watcher that it shows the signal to** has seen. -/
theorem reaches?_congr {s : Signal} {c : s.Callee}
    (same : ∀ place, s.Shows c place → w'.watchers[place]? = w.watchers[place]?) :
    w'.reaches? s c = w.reaches? s c := by
  cases s with
  | event event =>
    cases c with
    | target target => rfl
    | watcher place => rw [reaches?, reaches?, same place rfl]
  | number key value => cases c <;> rfl

end World

end RuleDispatch
