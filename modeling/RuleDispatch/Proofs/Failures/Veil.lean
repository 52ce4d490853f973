import RuleDispatch.Proofs.Guises.Engine

/-! # The world behind a veil

How a service call will end is settled when it begins, but nothing looks at it before the end. What was
recorded is never looked at, and what a run has left to do only by the run itself. A veil changes these
three, so it is a guise: whatever is the same in every guise is the same behind every veil.

* `Veil` — other ends of calls, other things left to do, another log.
* `World.behind` — the world behind a veil.
* `Veil.guise`, `World.behind_eq_under` — the veil as a guise.
* `World.behind_of_under` — what is done in every guise is done behind a veil. -/

namespace RuleDispatch

/-- Whether a record is the note of **a call that failed**. -/
def Entry.isFailure : Entry → Bool
  | .note (.callFailed _ _) => true
  | _ => false

/-- A **veil**: how calls under way end, by their runs, what runs have left to do, and what was
recorded. A failure is seen and noted as it is, or it is seen as no failure and not noted. -/
structure Veil where
  result : Nat → CallResult → CallResult
  agenda : Nat → List Block → List Block
  log : List (Nat × Entry) → List (Nat × Entry)
  log_cons : ∀ time entry older, entry.isFailure = false →
    log ((time, entry) :: older) = (time, entry) :: log older
  done : ∀ id, result id .done = .done
  failed : ∀ id reason,
    (result id (.failed reason) = .failed reason ∧ ∀ time service older,
      log ((time, .note (.callFailed service reason)) :: older)
        = (time, .note (.callFailed service reason)) :: log older)
    ∨ (result id (.failed reason) = .done ∧ ∀ time service older,
      log ((time, .note (.callFailed service reason)) :: older) = log older)

namespace Veil

/-- A veil **spares a run** when it leaves what the run has left to do. -/
def Spares (v : Veil) (id : Nat) : Prop :=
  ∀ blocks, v.agenda id blocks = blocks

end Veil

/-- A call of a run behind a veil. -/
def Call.behind (v : Veil) (id : Nat) (c : Call) : Call :=
  { c with result := v.result id c.result }

/-- What a run waits for, behind a veil. -/
def Phase.behind (v : Veil) (id : Nat) : Phase → Phase
  | .ready => .ready
  | .waiting deadline ms => .waiting deadline ms
  | .calling deadline call => .calling deadline (call.behind v id)

/-- A run behind a veil. -/
def Run.behind (v : Veil) (r : Run) : Run :=
  { r with
    progress := { r.progress with agenda := v.agenda r.id r.progress.agenda }
    phase := r.phase.behind v r.id }

/-- A frame behind a veil. -/
def Frame.behind (v : Veil) : Frame → Frame
  | .serve id call => .serve id (call.behind v id)
  | .perform op => .perform op
  | .respond answer => .respond answer
  | .record => .record
  | .deliver event handlers => .deliver event handlers
  | .tellNumber key value listeners => .tellNumber key value listeners
  | .tellText key value listeners => .tellText key value listeners
  | .lines rest shown => .lines rest shown
  | .execute id => .execute id
  | .resume task => .resume task
  | .drain => .drain
  | .advanceTo time => .advanceTo time
  | .leap ms => .leap ms

/-- A record about rules and runs is **no failure**. -/
theorem Entry.isFailure_of_isSteady {entry : Entry} (steady : entry.isSteady = true) :
    entry.isFailure = false := by
  cases entry with
  | note n => cases n <;> first | rfl | cases steady
  | event | number | text | complete | tick | call | summary | skipped | did => rfl

/-- A veil is **a guise** that changes nothing else. -/
def Veil.guise (v : Veil) : Guise where
  agenda := v.agenda
  call := Call.behind v
  log := v.log
  matcher_fresh _ _ := rfl
  log_cons time entry older steady := v.log_cons time entry older (Entry.isFailure_of_isSteady steady)

/-- To veil a run is to give it **the guise of the veil**. -/
theorem Run.behind_eq_under (v : Veil) : Run.behind v = Run.under v.guise := by
  funext r
  obtain ⟨id, owner, progress, phase, cancelled⟩ := r
  cases phase <;> rfl

/-- To veil a frame is to give it **the guise of the veil**. -/
theorem Frame.behind_eq_under (v : Veil) : Frame.behind v = Frame.under v.guise := by
  funext frame
  cases frame with
  | lines rest shown => exact congrArg (Frame.lines · shown) (List.map_id rest).symm
  | _ => rfl

@[simp] theorem Run.id_behind (v : Veil) (r : Run) : (r.behind v).id = r.id := rfl

@[simp] theorem Run.owner_behind (v : Veil) (r : Run) : (r.behind v).owner = r.owner := rfl

@[simp] theorem Run.cancelled_behind (v : Veil) (r : Run) : (r.behind v).cancelled = r.cancelled := rfl

namespace World

/-- The world **behind a veil**. -/
def behind (v : Veil) (w : World) : World :=
  { w with
    runs := w.runs.map (·.behind v)
    stack := w.stack.map (·.behind v)
    log := v.log w.log }

variable (v : Veil) (w : World)

/-! ## 1. Small changes -/

@[simp] theorem now_behind : (w.behind v).now = w.now := rfl

@[simp] theorem callbacks_behind : (w.behind v).callbacks = w.callbacks := rfl

@[simp] theorem watchers_behind : (w.behind v).watchers = w.watchers := rfl

@[simp] theorem timers_behind : (w.behind v).timers = w.timers := rfl

@[simp] theorem registrations_behind : (w.behind v).registrations = w.registrations := rfl

@[simp] theorem engine_behind : (w.behind v).engine = w.engine := rfl

@[simp] theorem labels_behind : (w.behind v).labels = w.labels := rfl

/-- **What is to be done** behind a veil. -/
theorem stack_behind : (w.behind v).stack = w.stack.map (·.behind v) := rfl

@[simp] theorem calls_behind : (w.behind v).calls = w.calls := rfl

/-- **Recording** is the same behind a veil, where nothing failed. -/
theorem behind_record {entry : Entry} (h : entry.isFailure = false) :
    (w.record entry).behind v = (w.behind v).record entry := by
  simp only [behind, record, v.log_cons _ _ _ h]

/-- **Noting** is the same behind a veil, where nothing failed. -/
theorem behind_note {n : Note} (h : (Entry.note n).isFailure = false) :
    (w.note n).behind v = (w.behind v).note n :=
  behind_record v w h

/-- **Adding frames** is the same behind a veil. -/
theorem behind_push (frames : List Frame) :
    (w.push frames).behind v = (w.behind v).push (frames.map (·.behind v)) := by
  simp only [behind, push, List.map_append]

/-- **Answering** is the same behind a veil. -/
theorem behind_respond (answer : Answer) :
    (w.respond answer).behind v = (w.behind v).respond answer := rfl

/-! ## 2. The veil as a guise -/

/-- To veil a world is to give it **the guise of the veil**. -/
theorem behind_eq_under : w.behind v = w.under v.guise := by
  have callbacks : w.callbacks.map (·.under v.guise) = w.callbacks := List.map_id _
  have watchers : w.watchers.map (·.under v.guise) = w.watchers := List.map_id _
  unfold behind under
  rw [callbacks, watchers, Run.behind_eq_under, Frame.behind_eq_under]
  rfl

/-- What is done **in every guise** is done behind a veil. -/
theorem behind_of_under {f : World → World} (same : ∀ u, (f u).under v.guise = f (u.under v.guise)) :
    (f w).behind v = f (w.behind v) := by
  rw [behind_eq_under, behind_eq_under, same]

/-- A run is **found under its number** behind a veil, too. -/
theorem run?_behind (id : Nat) : (w.behind v).run? id = (w.run? id).map (·.behind v) := by
  rw [behind_eq_under, run?_under, Run.behind_eq_under]

/-- A run **changed**, where the veil and the change do not mind each other. -/
theorem behind_modifyRun (id : Nat) {f g : Run → Run}
    (h : ∀ r, r.id = id → (f r).behind v = g (r.behind v)) :
    (w.modifyRun id f).behind v = (w.behind v).modifyRun id g := by
  rw [behind_eq_under, behind_eq_under]
  refine under_modifyRun v.guise w id fun r mine => ?_
  rw [← Run.behind_eq_under]
  exact h r mine

/-- A **new run** is not noticed by a veil that spares it. -/
theorem behind_spawn (owner : Owner) (actions : List Action) (cancelled : Bool)
    (spares : v.Spares w.nextRun) :
    (w.spawn owner actions cancelled).behind v = (w.behind v).spawn owner actions cancelled := by
  rw [behind_eq_under, behind_eq_under]
  exact under_spawn v.guise w owner actions cancelled spares

/-- The **end of a run** is that of a run with the same number, owner and summary. -/
theorem behind_finishRun (r : Run) :
    (w.finishRun r).behind v = (w.behind v).finishRun (r.behind v) := by
  rw [behind_eq_under, behind_eq_under, Run.behind_eq_under]
  exact under_finishRun v.guise w r

/-- **A panic of a run** is the same behind a veil. -/
theorem behind_panicRun (r : Run) :
    (w.panicRun r).behind v = (w.behind v).panicRun (r.behind v) := by
  rw [behind_eq_under, behind_eq_under, Run.behind_eq_under]
  exact under_panicRun v.guise w r

/-- **Firing a rule** is the same behind a veil: the store is the same. -/
theorem behind_fire (index : Nat) (spares : v.Spares w.nextRun) :
    (w.fire index).behind v = (w.behind v).fire index := by
  have reads : w.ReadsAlike v.guise := fun _ _ _ => rfl
  rw [behind_eq_under, behind_eq_under]
  exact under_fire v.guise w index spares reads

/-- **Cancelling a timer** is the same behind a veil. -/
theorem behind_cancelTimer (index : Nat) :
    (w.cancelTimer index).behind v = (w.behind v).cancelTimer index :=
  behind_of_under v w (under_cancelTimer v.guise · index)

/-- **Disposing of a watcher** is the same behind a veil. -/
theorem behind_disposeWatcher (index : Nat) :
    (w.disposeWatcher index).behind v = (w.behind v).disposeWatcher index :=
  behind_of_under v w (under_disposeWatcher v.guise · index)

end World

end RuleDispatch
