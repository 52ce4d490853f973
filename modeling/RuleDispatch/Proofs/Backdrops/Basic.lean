import Mathlib
import RuleDispatch.World.Step

/-! # The world against another backdrop

What is done for the innermost thing on the stack does not depend on what is to be done after it, on what
was recorded and answered before, on how many service calls were made before, or on what other runs have
left to do. A backdrop changes just these. Whatever is done is the same against every backdrop: it does not
matter whether the backdrop is put up before or afterwards.

* `Backdrop` — what a backdrop adds and changes.
* `World.against` — the world against a backdrop.
* `World.against_…` — what one function does against a backdrop. -/

namespace RuleDispatch

/-- A **backdrop** of the world: what is to be done after all else, what was recorded before all else, the
answer that was given before, how many service calls were made before and were counted by each run before,
and what runs have left to do. -/
structure Backdrop where
  after : List Frame := []
  older : List (Nat × Entry) := []
  answer : Option Answer := none
  calls : Nat := 0
  counted : Nat → Nat := fun _ => 0
  agenda : Nat → List Block → List Block := fun _ => id

namespace Backdrop

/-- A backdrop **spares a run** when it leaves what the run has left to do and has counted. -/
structure Spares (s : Backdrop) (id : Nat) : Prop where
  agenda : ∀ blocks, s.agenda id blocks = blocks
  counted : s.counted id = 0

/-- The backdrop once **an answer was given**. -/
def answered (s : Backdrop) : Backdrop :=
  { s with answer := none }

/-- A backdrop in which **no answer was given** before stays as it is. -/
theorem answered_of_none {s : Backdrop} (h : s.answer = none) : s.answered = s := by
  obtain ⟨_, _, _, _, _, _⟩ := s
  cases h
  rfl

/-- A backdrop that spares a run spares it **once its answer is given**, too. -/
theorem Spares.answered {s : Backdrop} {id : Nat} (spares : s.Spares id) : s.answered.Spares id :=
  ⟨spares.agenda, spares.counted⟩

/-- The backdrop with **what one run has left to do** changed in another way. -/
def leaving (s : Backdrop) (id : Nat) (f : List Block → List Block) : Backdrop :=
  { s with agenda := fun other => if other = id then f else s.agenda other }

/-- Leaving the agenda of a run as the backdrop has it **changes nothing** of the backdrop. -/
theorem leaving_self (s : Backdrop) (id : Nat) : s.leaving id (s.agenda id) = s := by
  have same : (fun other => if other = id then s.agenda id else s.agenda other) = s.agenda := by
    funext other
    split_ifs with h
    · rw [h]
    · rfl
  simp only [leaving, same]

end Backdrop

/-- How far a run has come, against a backdrop. -/
def Progress.against (s : Backdrop) (id : Nat) (p : Progress) : Progress where
  agenda := s.agenda id p.agenda
  summary := { p.summary with serviceCalls := s.counted id + p.summary.serviceCalls }

/-- A run against a backdrop. -/
def Run.against (s : Backdrop) (r : Run) : Run :=
  { r with progress := r.progress.against s r.id }

@[simp] theorem Run.id_against (s : Backdrop) (r : Run) : (r.against s).id = r.id := rfl

@[simp] theorem Run.owner_against (s : Backdrop) (r : Run) : (r.against s).owner = r.owner := rfl

@[simp] theorem Run.cancelled_against (s : Backdrop) (r : Run) : (r.against s).cancelled = r.cancelled := rfl

@[simp] theorem Run.deadline?_against (s : Backdrop) (r : Run) : (r.against s).deadline? = r.deadline? := rfl

/-- Of a run that is spared **the progress is the same** against the backdrop. -/
theorem Backdrop.Spares.progress {s : Backdrop} {id : Nat} (spares : s.Spares id) (p : Progress) :
    p.against s id = p := by
  simp only [Progress.against, spares.agenda, spares.counted, Nat.zero_add]

namespace World

/-- The world **against a backdrop**. -/
def against (s : Backdrop) (w : World) : World :=
  { w with
    runs := w.runs.map (·.against s)
    calls := s.calls + w.calls
    stack := w.stack ++ s.after
    answer := s.answer.getD w.answer
    log := w.log ++ s.older }

variable (s : Backdrop) (w : World)

/-! ## 1. Small changes -/

/-- What is to be done against a backdrop comes **before what the backdrop adds**. -/
theorem stack_against : (w.against s).stack = w.stack ++ s.after := rfl

/-- A backdrop that spares all runs **changes only** what is to be done, the number of calls, the answer and
what was recorded. -/
theorem against_of_spares (spares : ∀ id, s.Spares id) : w.against s =
    { w with
      calls := s.calls + w.calls
      stack := w.stack ++ s.after
      answer := s.answer.getD w.answer
      log := w.log ++ s.older } := by
  have runs : w.runs.map (·.against s) = w.runs := by
    refine List.map_id'' (fun r => ?_) w.runs
    rw [Run.against, (spares r.id).progress]
  simp only [against, runs]

/-- **Recording** is the same against every backdrop. -/
theorem against_record (entry : Entry) : (w.record entry).against s = (w.against s).record entry := rfl

/-- **Noting** is the same against every backdrop. -/
theorem against_note (n : Note) : (w.note n).against s = (w.against s).note n := rfl

/-- **Adding frames** is the same against every backdrop. -/
theorem against_push (frames : List Frame) : (w.push frames).against s = (w.against s).push frames := by
  simp only [against, push, List.append_assoc]

/-- An answer is the same against every backdrop, **whatever was answered before**. -/
theorem against_respond (answer : Answer) :
    (w.respond answer).against s.answered = (w.against s).respond answer := rfl

/-- A run is **found under its number** against every backdrop. -/
theorem run?_against (id : Nat) : (w.against s).run? id = (w.run? id).map (·.against s) := by
  simp only [run?, against, List.find?_map, Function.comp_def, Run.id_against]
  rfl

/-- A run **changed**, where the backdrop and the change do not mind each other. -/
theorem against_modifyRun (id : Nat) {f k : Run → Run}
    (h : ∀ r, r.id = id → (f r).against s = k (r.against s)) :
    (w.modifyRun id f).against s = (w.against s).modifyRun id k := by
  have runs : (w.runs.map fun r => if r.id = id then f r else r).map (·.against s)
      = (w.runs.map (·.against s)).map fun r => if r.id = id then k r else r := by
    rw [List.map_map, List.map_map]
    refine List.map_congr_left fun r _ => ?_
    by_cases same : r.id = id
    · simp [same, h]
    · simp [same]
  simp only [against, modifyRun, runs]

/-- A run that **took a stride**, where the backdrop changes what it has left to do. -/
theorem against_strode (id : Nat) (f : List Block → List Block) (progress : Progress) :
    (w.modifyRun id fun r => { r with progress }).against (s.leaving id f)
      = (w.against s).modifyRun id fun r =>
          { r with progress := progress.against (s.leaving id f) id } := by
  have runs : (w.runs.map fun r => if r.id = id then { r with progress } else r).map
        (·.against (s.leaving id f))
      = (w.runs.map (·.against s)).map fun r =>
          if r.id = id then { r with progress := progress.against (s.leaving id f) id } else r := by
    rw [List.map_map, List.map_map]
    refine List.map_congr_left fun r _ => ?_
    by_cases same : r.id = id
    · simp [same, Run.against]
    · simp [same, Run.against, Progress.against, Backdrop.leaving]
  simp only [against, modifyRun, runs]
  rfl

/-- **Removing a run** is the same against every backdrop. -/
theorem against_removeRun (id : Nat) : (w.removeRun id).against s = (w.against s).removeRun id := by
  simp only [against, removeRun, List.filter_map, Function.comp_def, Run.id_against]
  rfl

/-- **Waking a task** is the same against every backdrop. -/
theorem against_wake (task : Task) : (w.wake task).against s = (w.against s).wake task := by
  unfold wake
  by_cases queued : task ∈ w.ready
  · rw [if_pos queued, if_pos (show task ∈ (w.against s).ready from queued)]
  · rw [if_neg queued, if_neg (show task ∉ (w.against s).ready from queued)]
    rfl

/-- What is the same against every backdrop for one thing is the same **for several**. -/
theorem against_foldl {α : Type} {f : World → α → World}
    (each : ∀ w a, (f w a).against s = f (w.against s) a) (as : List α) :
    (as.foldl f w).against s = as.foldl f (w.against s) := by
  induction as generalizing w with
  | nil => rfl
  | cons a rest ih => rw [List.foldl_cons, ih, each, List.foldl_cons]

/-! ## 2. Runs begun, cancelled and ended -/

/-- A **new run** is the same against a backdrop that spares it. -/
theorem against_spawn (owner : Owner) (actions : List Action) (cancelled : Bool)
    (spares : s.Spares w.nextRun) :
    (w.spawn owner actions cancelled).against s = (w.against s).spawn owner actions cancelled := by
  have fresh : Run.against s
      { id := w.nextRun, owner, progress := .start actions, phase := .ready, cancelled }
        = { id := w.nextRun, owner, progress := .start actions, phase := .ready, cancelled } :=
    congrArg (fun progress => Run.mk w.nextRun owner progress .ready cancelled) (spares.progress _)
  simp only [against, spawn, List.map_append, List.map_singleton, fresh]

/-- Whether a run **waits** is the same against every backdrop. -/
theorem waitsIn_against (id : Nat) : (w.against s).waitsIn id = w.waitsIn id := by
  unfold waitsIn
  rw [run?_against]
  cases w.run? id with
  | none => rfl
  | some r =>
    obtain ⟨_, _, _, phase, _⟩ := r
    cases phase <;> rfl

/-- **Cancelling a run** is the same against every backdrop. -/
theorem against_cancelRun (id : Nat) : (w.cancelRun id).against s = (w.against s).cancelRun id := by
  have marked : (w.modifyRun id fun r => { r with cancelled := true }).against s
      = (w.against s).modifyRun id fun r => { r with cancelled := true } :=
    against_modifyRun s w id fun _ _ => rfl
  unfold cancelRun
  dsimp only
  rw [waitsIn_against]
  split
  · rw [against_wake, marked]
  · exact marked

/-- The **end of a run** is the same if no other calls of it were counted before. -/
theorem against_finishRun (r : Run) (counted : s.counted r.id = 0) :
    (w.finishRun r).against s = (w.against s).finishRun (r.against s) := by
  have summary : (r.against s).progress.summary = r.progress.summary := by
    simp only [Run.against, Progress.against, counted, Nat.zero_add]
  unfold finishRun
  rw [Run.owner_against, Run.id_against, summary, ← against_removeRun]
  cases r.owner <;> rfl

/-- **A panic** of a run is the same against every backdrop. -/
theorem against_panicRun (r : Run) : (w.panicRun r).against s = (w.against s).panicRun (r.against s) := by
  unfold panicRun
  rw [Run.owner_against, Run.id_against, ← against_removeRun]
  cases r.owner <;> rfl

/-- **Cancelling the runs of a label** is the same against every backdrop. -/
theorem against_cancelLabel (label : String) :
    (w.cancelLabel label).against s = (w.against s).cancelLabel label := by
  let marked : World := { w with labels := { w.labels with cancelled := label :: w.labels.cancelled } }
  have mine : (marked.against s).runs.filter (·.owner = .label label)
      = (marked.runs.filter (·.owner = .label label)).map (·.against s) := by
    simp only [against, List.filter_map, Function.comp_def, Run.owner_against]
    rfl
  have each := against_foldl s marked (f := fun w (r : Run) => w.cancelRun r.id)
    (fun w r => against_cancelRun s w r.id) (marked.runs.filter (·.owner = .label label))
  refine each.trans ?_
  show _ = ((marked.against s).runs.filter (·.owner = .label label)).foldl _ (marked.against s)
  rw [mine, List.foldl_map]
  rfl

/-! ## 3. Time and waking -/

/-- The moments at which something **is due** are the same against every backdrop. -/
theorem appointments_against : (w.against s).appointments = w.appointments := by
  have waits : (w.against s).runs.filterMap (fun r => r.deadline?.map fun d => (d, Task.run r.id))
      = w.runs.filterMap fun r => r.deadline?.map fun d => (d, Task.run r.id) := by
    simp only [against, List.filterMap_map, Function.comp_def, Run.deadline?_against, Run.id_against]
  unfold appointments
  rw [waits]
  rfl

/-- **Waking what is due** is the same against every backdrop. -/
theorem against_wakeDue : w.wakeDue.against s = (w.against s).wakeDue := by
  unfold wakeDue due
  rw [against_foldl s w (against_wake s), appointments_against]
  rfl

/-- **Time passes** the same against every backdrop. -/
theorem against_advanceTo (time : Nat) : (w.advanceTo time).against s = (w.against s).advanceTo time := by
  unfold advanceTo nextAppointment?
  rw [appointments_against]
  cases (w.appointments.map (·.1)).min? with
  | none => rfl
  | some next =>
    dsimp only
    split_ifs
    · rw [against_push, against_wakeDue]
      rfl
    · rfl

/-- **A jump of the clock** is the same against every backdrop. -/
theorem against_leap (ms : Nat) : (w.leap ms).against s = (w.against s).leap ms :=
  against_wakeDue s _

/-- **Draining** what is ready is the same against every backdrop. -/
theorem against_drain : w.drain.against s = (w.against s).drain := by
  unfold drain
  rw [show (w.against s).ready = w.ready from rfl]
  cases w.ready with
  | nil => rfl
  | cons task rest => exact against_push s _ _

/-- **Interrupting a wait** is the same against every backdrop. -/
theorem against_interrupt (id ms : Nat) : (w.interrupt id ms).against s = (w.against s).interrupt id ms := by
  have noticed := against_modifyRun s (w.note (.waitInterrupted ms)) id
    (f := fun r => { r with
      phase := .ready
      progress := { r.progress with summary := r.progress.summary.checkHalt true } })
    (k := fun r => { r with
      phase := .ready
      progress := { r.progress with summary := r.progress.summary.checkHalt true } })
    fun r _ => by
      obtain ⟨_, _, ⟨_, _, _, halted, _⟩, _, _⟩ := r
      cases halted <;> rfl
  unfold interrupt
  dsimp only
  rw [against_push, noticed]
  rfl

/-- **Waking up** is the same against every backdrop. -/
theorem against_resumeRun (id : Nat) : (w.resumeRun id).against s = (w.against s).resumeRun id := by
  have awake : (w.modifyRun id fun r => { r with phase := .ready }).against s
      = (w.against s).modifyRun id fun r => { r with phase := .ready } :=
    against_modifyRun s w id fun _ _ => rfl
  unfold resumeRun
  rw [run?_against]
  cases w.run? id with
  | none => rfl
  | some r =>
    dsimp only [Option.map_some]
    rw [show (r.against s).phase = r.phase from rfl, Run.cancelled_against,
      show (w.against s).now = w.now from rfl]
    cases r.phase with
    | ready => exact against_push s w _
    | waiting deadline ms =>
      dsimp only
      split_ifs
      · rw [against_push, awake]
      · exact against_interrupt s w id ms
      · rfl
    | calling deadline call =>
      dsimp only
      split_ifs
      · rw [against_push, awake]
      · rfl

/-- **Beginning a wait** is the same against every backdrop. -/
theorem against_waitFor (id ms : Nat) : (w.waitFor id ms).against s = (w.against s).waitFor id ms := by
  unfold waitFor
  split_ifs
  · exact against_push s w _
  · exact against_modifyRun s w id fun _ _ => rfl

end World

end RuleDispatch
