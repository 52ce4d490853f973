import Mathlib
import RuleDispatch.World.Step

/-! # The world in another guise

A great deal of the world never looks at what another part of it holds: the engine does not look at what
callbacks are going to do, nobody looks at what was recorded, and how a service call will end matters to
its run alone. A guise changes such parts. What the engine does is the same in every guise: whether it
is done first and the guise is put on then, or the other way round, the same world comes of it. Each
result about two worlds that differ in such parts picks a guise of its own.

* `Guise` — what is changed of the values, the callbacks, the matchers, the runs, the stack and the log.
* `World.under` — the world in a guise.
* `World.under_…` — what one function does in a guise. -/

namespace RuleDispatch

/-- Whether a record is **about rules, runs and the dispatcher itself**. What callbacks were told and
what operations were answered is not, nor is the failure of a call. -/
def Entry.isSteady : Entry → Bool
  | .note (.callFailed _ _) => false
  | .note _ | .call _ _ | .summary _ _ | .skipped _ => true
  | .event _ _ | .number _ _ _ _ | .text _ _ _ _ | .complete _ | .tick _ | .did _ => false

/-- A **guise** of the world: what it makes of the moment of the wall clock, of the stored values, of what
callbacks are going to do, of how far patterns have come, of what runs have left to do and the calls they
are in, of what is to be done, and of what was recorded. -/
structure Guise where
  clock : Timestamp → Timestamp := id
  numbers : Keyed Float → Keyed Float := id
  texts : Keyed String → Keyed String := id
  script : Script Operation → Script Operation := id
  matcher : Matcher → Matcher := id
  agenda : Nat → List Block → List Block := fun _ => id
  call : Nat → Call → Call := fun _ => id
  operation : Operation → Operation := id
  event : Event → Event := id
  line : Option String → Option String := id
  shown : List String → List String := id
  answer : Answer → Answer := id
  log : List (Nat × Entry) → List (Nat × Entry)
  matcher_fresh : ∀ sequence withinMs, matcher (.fresh sequence withinMs) = .fresh sequence withinMs
  log_cons : ∀ time entry older, entry.isSteady = true →
    log ((time, entry) :: older) = (time, entry) :: log older

/-- A guise **spares a run** when it leaves what the run has left to do. -/
def Guise.Spares (g : Guise) (id : Nat) : Prop :=
  ∀ blocks, g.agenda id blocks = blocks

/-- A callback in a guise. -/
def Callback.under (g : Guise) (c : Callback) : Callback :=
  { c with script := g.script c.script }

/-- A watcher in a guise. -/
def Watcher.under (g : Guise) (x : Watcher) : Watcher :=
  { x with matcher := g.matcher x.matcher }

/-- What a run waits for, in a guise. -/
def Phase.under (g : Guise) (id : Nat) : Phase → Phase
  | .ready => .ready
  | .waiting deadline ms => .waiting deadline ms
  | .calling deadline call => .calling deadline (g.call id call)

/-- A run in a guise. -/
def Run.under (g : Guise) (r : Run) : Run :=
  { r with
    progress := { r.progress with agenda := g.agenda r.id r.progress.agenda }
    phase := r.phase.under g r.id }

/-- A frame in a guise. -/
def Frame.under (g : Guise) : Frame → Frame
  | .perform op => .perform (g.operation op)
  | .respond answer => .respond (g.answer answer)
  | .record => .record
  | .deliver event handlers => .deliver (g.event event) handlers
  | .tellNumber key value listeners => .tellNumber key value listeners
  | .tellText key value listeners => .tellText key value listeners
  | .lines rest shown => .lines (rest.map g.line) (g.shown shown)
  | .execute id => .execute id
  | .serve id call => .serve id (g.call id call)
  | .resume task => .resume task
  | .drain => .drain
  | .advanceTo time => .advanceTo time
  | .leap ms => .leap ms

@[simp] theorem Run.id_under (g : Guise) (r : Run) : (r.under g).id = r.id := rfl

@[simp] theorem Run.owner_under (g : Guise) (r : Run) : (r.under g).owner = r.owner := rfl

@[simp] theorem Run.cancelled_under (g : Guise) (r : Run) : (r.under g).cancelled = r.cancelled := rfl

/-- **For which moment** a run waits is the same in every guise. -/
@[simp] theorem Run.deadline?_under (g : Guise) (r : Run) : (r.under g).deadline? = r.deadline? := by
  obtain ⟨id, owner, progress, phase, cancelled⟩ := r
  cases phase <;> rfl

/-- What is **changed in one place** and then seen through `g` is seen and then changed, where the change
and the view do not mind each other. -/
theorem map_modify_of_comm {α β : Type} (things : List α) (index : Nat) {f : α → α} {g : α → β}
    {k : β → β} (comm : ∀ a, g (f a) = k (g a)) :
    (things.modify index f).map g = (things.map g).modify index k := by
  refine List.ext_getElem? fun place => ?_
  simp only [List.getElem?_map, List.getElem?_modify]
  by_cases here : index = place
  · simp [here, Function.comp_def, comm]
  · simp [here]

namespace World

/-- The world **in a guise**. -/
def under (g : Guise) (w : World) : World :=
  { w with
    wallClock := g.clock w.wallClock
    store := { w.store with numbers := g.numbers w.store.numbers, texts := g.texts w.store.texts }
    callbacks := w.callbacks.map (·.under g)
    watchers := w.watchers.map (·.under g)
    runs := w.runs.map (·.under g)
    stack := w.stack.map (·.under g)
    answer := g.answer w.answer
    log := g.log w.log }

/-- The registered rules **read the same** in a guise: their conditions hold as they do without it. -/
def ReadsAlike (g : Guise) (w : World) : Prop :=
  ∀ r ∈ w.registrations, r.disposed = false →
    allHold (w.under g).store.reading r.rule.conditions = allHold w.store.reading r.rule.conditions

variable (g : Guise) (w : World)

/-! ## 1. Small changes -/

@[simp] theorem now_under : (w.under g).now = w.now := rfl

@[simp] theorem registrations_under : (w.under g).registrations = w.registrations := rfl

@[simp] theorem ready_under : (w.under g).ready = w.ready := rfl

@[simp] theorem labels_under : (w.under g).labels = w.labels := rfl

/-- The watchers **in a guise**. -/
theorem watchers_under : (w.under g).watchers = w.watchers.map (·.under g) := rfl

/-- **Recording** is the same in every guise, if the record is kept. -/
theorem under_record {entry : Entry} (steady : entry.isSteady = true) :
    (w.record entry).under g = (w.under g).record entry := by
  simp only [under, record, g.log_cons _ _ _ steady]

/-- **Noting** is the same in every guise, if the note is kept. -/
theorem under_note {n : Note} (steady : (Entry.note n).isSteady = true) :
    (w.note n).under g = (w.under g).note n :=
  under_record g w steady

/-- **Adding frames** is the same in every guise. -/
theorem under_push (frames : List Frame) :
    (w.push frames).under g = (w.under g).push (frames.map (·.under g)) := by
  simp only [under, push, List.map_append]

/-- A run is **found under its number** in every guise. -/
theorem run?_under (id : Nat) : (w.under g).run? id = (w.run? id).map (·.under g) := by
  simp only [run?, under, List.find?_map, Function.comp_def, Run.id_under]
  rfl

/-- A run **changed**, where the guise and the change do not mind each other. -/
theorem under_modifyRun (id : Nat) {f k : Run → Run}
    (h : ∀ r, r.id = id → (f r).under g = k (r.under g)) :
    (w.modifyRun id f).under g = (w.under g).modifyRun id k := by
  have runs : (w.runs.map fun r => if r.id = id then f r else r).map (·.under g)
      = (w.runs.map (·.under g)).map fun r => if r.id = id then k r else r := by
    simp only [List.map_map]
    refine List.map_congr_left fun r _ => ?_
    by_cases same : r.id = id
    · simp [same, h]
    · simp [same]
  simp only [under, modifyRun, runs]

/-- **Taking a run away** is the same in every guise. -/
theorem under_removeRun (id : Nat) : (w.removeRun id).under g = (w.under g).removeRun id := by
  simp only [under, removeRun, List.filter_map, Function.comp_def, Run.id_under]
  rfl

/-- **Changing a registration** is the same in every guise. -/
theorem under_modifyRegistration (index : Nat) (f : Registration → Registration) :
    (w.modifyRegistration index f).under g = (w.under g).modifyRegistration index f := rfl

/-- A callback **changed**, where the guise and the change do not mind each other. -/
theorem under_modifyCallback (index : Nat) {f k : Callback → Callback}
    (comm : ∀ b, (f b).under g = k (b.under g)) :
    ({ w with callbacks := w.callbacks.modify index f } : World).under g
      = { w.under g with callbacks := (w.under g).callbacks.modify index k } := by
  have changed := map_modify_of_comm w.callbacks index comm
  simp only [under, changed]

/-- A watcher **changed**, where the guise and the change do not mind each other. -/
theorem under_modifyWatcher (index : Nat) {f k : Watcher → Watcher}
    (comm : ∀ x, (f x).under g = k (x.under g)) :
    ({ w with watchers := w.watchers.modify index f } : World).under g
      = { w.under g with watchers := (w.under g).watchers.modify index k } := by
  have changed := map_modify_of_comm w.watchers index comm
  simp only [under, changed]

/-- **Waking a task** is the same in every guise. -/
theorem under_wake (task : Task) : (w.wake task).under g = (w.under g).wake task := by
  unfold wake
  by_cases queued : task ∈ w.ready
  · rw [if_pos queued, if_pos (show task ∈ (w.under g).ready from queued)]
  · rw [if_neg queued, if_neg (show task ∉ (w.under g).ready from queued)]
    rfl

/-- **Waking several tasks** is the same in every guise. -/
theorem under_foldl_wake (tasks : List Task) :
    (tasks.foldl wake w).under g = tasks.foldl wake (w.under g) := by
  induction tasks generalizing w with
  | nil => rfl
  | cons task rest ih => rw [List.foldl_cons, ih, under_wake, List.foldl_cons]

/-! ## 2. Runs begun, cancelled and ended -/

/-- A **new run** does not change in a guise that spares it. -/
theorem under_spawn (owner : Owner) (actions : List Action) (cancelled : Bool)
    (spares : g.Spares w.nextRun) :
    (w.spawn owner actions cancelled).under g = (w.under g).spawn owner actions cancelled := by
  have fresh : Run.under g
      { id := w.nextRun, owner, progress := .start actions, phase := .ready, cancelled }
        = { id := w.nextRun, owner, progress := .start actions, phase := .ready, cancelled } := by
    simp only [Run.under, spares _, Phase.under]
  simp only [under, spawn, List.map_append, List.map_singleton, fresh]

/-- Whether a run **waits for a moment** is the same in every guise. -/
theorem waitsIn_under (id : Nat) : (w.under g).waitsIn id = w.waitsIn id := by
  unfold waitsIn
  rw [run?_under]
  cases w.run? id with
  | none => rfl
  | some r =>
    obtain ⟨_, _, _, phase, _⟩ := r
    cases phase <;> rfl

/-- **Cancelling a run** is the same in every guise. -/
theorem under_cancelRun (id : Nat) : (w.cancelRun id).under g = (w.under g).cancelRun id := by
  have marked : (w.modifyRun id fun r => { r with cancelled := true }).under g
      = (w.under g).modifyRun id fun r => { r with cancelled := true } :=
    under_modifyRun g w id fun _ _ => rfl
  unfold cancelRun
  dsimp only
  rw [waitsIn_under]
  split
  · rw [under_wake, marked]
  · exact marked

/-- **Releasing a slot** is the same in every guise. -/
theorem under_release (index generation : Nat) :
    (w.release index generation).under g = (w.under g).release index generation := rfl

/-- The **end of a run** is that of a run with the same number, owner and summary. -/
theorem under_finishRun (r : Run) :
    (w.finishRun r).under g = (w.under g).finishRun (r.under g) := by
  unfold finishRun
  rw [Run.owner_under]
  cases r.owner with
  | rule index generation =>
    dsimp only
    rw [under_release, under_note g _ rfl, under_removeRun]
    rfl
  | label label =>
    dsimp only
    rw [under_record g _ rfl, under_removeRun]
    rfl

/-- **A panic of a run** is the same in every guise. -/
theorem under_panicRun (r : Run) :
    (w.panicRun r).under g = (w.under g).panicRun (r.under g) := by
  unfold panicRun
  rw [Run.owner_under]
  cases r.owner with
  | rule index generation =>
    dsimp only
    rw [under_release, under_note g _ rfl, under_removeRun]
    rfl
  | label label => exact under_removeRun g w r.id

/-- **Cancelling several runs** is the same in every guise. -/
theorem under_foldl_cancelRun (runs : List Run) :
    (runs.foldl (fun w r => w.cancelRun r.id) w).under g
      = (runs.map (·.under g)).foldl (fun w r => w.cancelRun r.id) (w.under g) := by
  induction runs generalizing w with
  | nil => rfl
  | cons r rest ih =>
    rw [List.foldl_cons, ih, under_cancelRun, List.map_cons, List.foldl_cons, Run.id_under]

/-- **Cancelling the runs of a label** is the same in every guise. -/
theorem under_cancelLabel (label : String) :
    (w.cancelLabel label).under g = (w.under g).cancelLabel label := by
  have mine : ((w.under g).runs.filter (·.owner = .label label))
      = (w.runs.filter (·.owner = .label label)).map (·.under g) := by
    simp only [under, List.filter_map, Function.comp_def, Run.owner_under]
    rfl
  unfold cancelLabel
  dsimp only
  rw [under_foldl_cancelRun, ← mine]
  rfl

/-! ## 3. Time and waking -/

/-- **When something is due** is the same in every guise. -/
theorem appointments_under : (w.under g).appointments = w.appointments := by
  have waits : (w.under g).runs.filterMap (fun r => r.deadline?.map fun d => (d, Task.run r.id))
      = w.runs.filterMap fun r => r.deadline?.map fun d => (d, Task.run r.id) := by
    simp only [under, List.filterMap_map, Function.comp_def, Run.deadline?_under, Run.id_under]
  unfold appointments
  rw [waits]
  rfl

/-- **Waking what is due** is the same in every guise. -/
theorem under_wakeDue : w.wakeDue.under g = (w.under g).wakeDue := by
  unfold wakeDue due
  rw [under_foldl_wake, appointments_under]
  rfl

/-- **Time passes** the same in every guise. -/
theorem under_advanceTo (time : Nat) :
    (w.advanceTo time).under g = (w.under g).advanceTo time := by
  unfold advanceTo nextAppointment?
  rw [appointments_under]
  cases (w.appointments.map (·.1)).min? with
  | none => rfl
  | some next =>
    dsimp only
    split_ifs
    · rw [under_push, under_wakeDue]
      rfl
    · rfl

/-- **A leap of the clock** is the same in every guise. -/
theorem under_leap (ms : Nat) : (w.leap ms).under g = (w.under g).leap ms :=
  under_wakeDue g _

/-- **Giving the ready their turns** is the same in every guise. -/
theorem under_drain : w.drain.under g = (w.under g).drain := by
  unfold drain
  rw [ready_under]
  cases w.ready with
  | nil => rfl
  | cons task rest => exact under_push g _ _

/-- **Cutting a wait short** is the same in every guise. -/
theorem under_interrupt (id ms : Nat) :
    (w.interrupt id ms).under g = (w.under g).interrupt id ms := by
  let notice (r : Run) : Run :=
    { r with
      phase := .ready
      progress := { r.progress with summary := r.progress.summary.checkHalt true } }
  have noticed : ((w.note (.waitInterrupted ms)).modifyRun id notice).under g
      = ((w.under g).note (.waitInterrupted ms)).modifyRun id notice := by
    rw [under_modifyRun g _ id (k := notice) fun _ _ => rfl, under_note g _ rfl]
  exact congrArg (·.push [.execute id]) noticed

/-- **Waking up** is the same in every guise. -/
theorem under_resumeRun (id : Nat) : (w.resumeRun id).under g = (w.under g).resumeRun id := by
  have awake : (w.modifyRun id fun r => { r with phase := .ready }).under g
      = (w.under g).modifyRun id fun r => { r with phase := .ready } :=
    under_modifyRun g w id fun _ _ => rfl
  unfold resumeRun
  rw [run?_under]
  cases found : w.run? id with
  | none => rfl
  | some r =>
    have same : r.id = id := by simpa using List.find?_some found
    dsimp only [Option.map_some]
    rw [show (r.under g).phase = r.phase.under g r.id from rfl, Run.cancelled_under, now_under]
    cases r.phase with
    | ready => exact under_push g w _
    | waiting deadline ms =>
      dsimp only [Phase.under]
      split_ifs
      · rw [under_push, awake]
        rfl
      · exact under_interrupt g w id ms
      · rfl
    | calling deadline call =>
      dsimp only [Phase.under]
      split_ifs
      · rw [under_push, awake, same]
        rfl
      · rfl

/-- **Putting a run to sleep** is the same in every guise. -/
theorem under_waitFor (id ms : Nat) : (w.waitFor id ms).under g = (w.under g).waitFor id ms := by
  unfold waitFor
  split_ifs
  · exact under_push g w _
  · exact under_modifyRun g w id fun _ _ => rfl

end World

end RuleDispatch
