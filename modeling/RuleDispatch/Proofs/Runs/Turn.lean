import RuleDispatch.Proofs.Runs.Unrolling
import RuleDispatch.Proofs.Slots.Moves

/-! # One turn of a run

A step of a run, of one of its service calls or of its waking up concerns that run alone: what
becomes of it, and what is to be done next. Seen from the world, such a step puts this run in the
place of what it was and leaves the clock, the queue and all other runs alone.

* `Frame.run?` — whose turn a frame is.
* `Run.turn` — what a turn makes of a run, and what is to be done next.
* `World.Turned`, `World.turned_step` — the step seen from the world. -/

namespace RuleDispatch

/-- The run **whose turn** a frame is. -/
def Frame.run? : Frame → Option Nat
  | .execute id | .serve id _ | .resume (.run id) => some id
  | _ => none

namespace Run

/-! ## 1. A run alone -/

/-- A **stride** of a run. -/
def stride (exec : Executor) (now calls : Nat) (r : Run) : Option Run × List Frame :=
  let later := { r with progress := (r.progress.next r.cancelled).2 }
  match (r.progress.next r.cancelled).1 with
  | .nothing | .stop => (some later, [.execute r.id])
  | .call service data =>
    let reply := exec calls service data
    (some later, [.serve r.id ⟨service, reply.effects, reply.result⟩])
  | .wait ms =>
    if ms = 0 then (some later, [.execute r.id])
    else (some { later with phase := .waiting (now + min ms World.longestSleep) ms }, [])
  | .finish => (none, [])

/-- A step of a **service call** of a run. -/
def served (now : Nat) (r : Run) (call : Call) : Option Run × List Frame :=
  match call.effects with
  | [] => if call.result = .panicked then (none, []) else (some r, [.execute r.id])
  | .act op recorded :: rest =>
    (some r, .perform op :: (if recorded then [.record] else [])
      ++ [.serve r.id { call with effects := rest }])
  | .pause ms :: rest =>
    let call := { call with effects := rest }
    if ms = 0 then (some r, [.serve r.id call])
    else (some { r with phase := .calling (now + min ms World.longestSleep) call }, [])

/-- A run **woken up**. -/
def resumed (now : Nat) (r : Run) : Option Run × List Frame :=
  match r.phase with
  | .ready => (some r, [.execute r.id])
  | .waiting deadline _ =>
    if deadline ≤ now then (some { r with phase := .ready }, [.execute r.id])
    else if r.cancelled then
      (some { r with
        phase := .ready
        progress := { r.progress with summary := r.progress.summary.checkHalt true } },
        [.execute r.id])
    else (some r, [])
  | .calling deadline call =>
    if deadline ≤ now then (some { r with phase := .ready }, [.serve r.id call])
    else (some r, [])

/-- What a **turn** makes of a run, none when it is over, and what is to be done next. -/
def turn (exec : Executor) (now calls : Nat) (r : Run) : Frame → Option Run × List Frame
  | .execute _ => r.stride exec now calls
  | .serve _ call => r.served now call
  | _ => r.resumed now

/-- A turn does not change **the number** of its run. -/
theorem id_turn {exec : Executor} {now calls : Nat} {r later : Run} {frame : Frame}
    (h : (r.turn exec now calls frame).1 = some later) : later.id = r.id := by
  have same {a b : Run} (found : some a = some b) (kept : a.id = r.id) : b.id = r.id :=
    Option.some.inj found ▸ kept
  cases frame with
  | execute id =>
    simp only [turn, stride] at h
    cases demanded : (r.progress.next r.cancelled).1 with
    | wait ms =>
      rw [demanded] at h
      dsimp only at h
      split at h <;> exact same h rfl
    | finish =>
      rw [demanded] at h
      cases h
    | nothing | call | stop =>
      rw [demanded] at h
      exact same h rfl
  | serve id call =>
    simp only [turn, served] at h
    split at h
    · split at h
      · cases h
      · exact same h rfl
    · exact same h rfl
    · split at h <;> exact same h rfl
  | resume | perform | respond | record | deliver | tellNumber | tellText | lines | drain
  | advanceTo | leap =>
    simp only [turn, resumed] at h
    split at h
    · exact same h rfl
    · split_ifs at h <;> exact same h rfl
    · split at h <;> exact same h rfl

end Run

/-! ## 2. The run among the others -/

/-- Runs with another **in the place** of one, or without it. -/
def replaced (runs : List Run) (id : Nat) : Option Run → List Run
  | some later => runs.map fun r => if r.id = id then later else r
  | none => runs.filter (·.id ≠ id)

/-- Who is among runs of which one was replaced. -/
theorem mem_replaced {runs : List Run} {id : Nat} {result : Option Run} {r : Run} :
    r ∈ replaced runs id result
      ↔ (r ∈ runs ∧ r.id ≠ id) ∨ (result = some r ∧ ∃ old ∈ runs, old.id = id) := by
  cases result with
  | none => simp [replaced]
  | some later =>
    simp only [replaced, List.mem_map, Option.some.injEq]
    constructor
    · rintro ⟨old, member, rfl⟩
      by_cases this : old.id = id
      · rw [if_pos this]
        exact .inr ⟨rfl, old, member, this⟩
      · rw [if_neg this]
        exact .inl ⟨member, this⟩
    · rintro (⟨member, other⟩ | ⟨rfl, old, member, this⟩)
      · exact ⟨r, member, if_neg other⟩
      · exact ⟨old, member, if_pos this⟩

/-- A run put in the place of another and then taken out. -/
theorem filter_replaced (runs : List Run) {id : Nat} {later : Run} (same : later.id = id) :
    (replaced runs id (some later)).filter (·.id ≠ id) = replaced runs id none := by
  simp only [replaced, List.filter_map]
  have keeps : (fun s : Run => decide (s.id ≠ id)) ∘ (fun r => if r.id = id then later else r)
      = fun s : Run => decide (s.id ≠ id) := by
    funext r
    by_cases this : r.id = id <;> simp [this, same]
  rw [keeps]
  refine (List.map_congr_left fun r member => ?_).trans (List.map_id _)
  simp only [List.mem_filter, decide_eq_true_iff] at member
  exact if_neg member.2

/-- A run put in the place of another and then changed. -/
theorem map_replaced (runs : List Run) {id : Nat} {later : Run} (same : later.id = id)
    (f : Run → Run) :
    (replaced runs id (some later)).map (fun r => if r.id = id then f r else r)
      = replaced runs id (some (f later)) := by
  simp only [replaced, List.map_map]
  refine List.map_congr_left fun r _ => ?_
  by_cases this : r.id = id <;> simp [this, same]

namespace World

/-- In a world whose runs are numbered, a run is found by its number. -/
theorem Numbered.run?_eq_some {w : World} (h : Numbered w) {r : Run} (member : r ∈ w.runs) :
    w.run? r.id = some r := by
  cases found : w.run? r.id with
  | none =>
    have none := List.find?_eq_none.mp found r member
    simp at none
  | some other =>
    have same := List.find?_some found
    rw [decide_eq_true_iff] at same
    rw [h.eq_of_id_eq (List.mem_of_find?_eq_some found) member same]

/-- Changing a run puts **what it becomes** in its place. -/
theorem Numbered.runs_modifyRun {w : World} (h : Numbered w) {r : Run} (member : r ∈ w.runs)
    (f : Run → Run) : (w.modifyRun r.id f).runs = replaced w.runs r.id (some (f r)) := by
  refine List.map_congr_left fun other there => ?_
  by_cases this : other.id = r.id
  · rw [h.eq_of_id_eq there member this]
  · rw [if_neg this, if_neg this]

/-- So does changing it once more. -/
theorem Numbered.runs_modifyRun_twice {w : World} (h : Numbered w) {r : Run} (member : r ∈ w.runs)
    {f : Run → Run} (same : (f r).id = r.id) (g : Run → Run) :
    ((w.modifyRun r.id f).modifyRun r.id g).runs = replaced w.runs r.id (some (g (f r))) := by
  calc ((w.modifyRun r.id f).modifyRun r.id g).runs
      = (w.modifyRun r.id f).runs.map fun s => if s.id = r.id then g s else s := rfl
    _ = _ := by rw [h.runs_modifyRun member, map_replaced w.runs same]

/-- A step that **one run's turn** is. -/
structure Turned (w w' : World) (id : Nat) (rest : List Frame) (result : Option Run × List Frame) :
    Prop where
  runs : w'.runs = replaced w.runs id result.1
  stack : w'.stack = result.2 ++ rest
  ready : w'.ready = w.ready
  now : w'.now = w.now
  nextRun : w'.nextRun = w.nextRun

/-- A stride seen from the world. -/
theorem turned_execute (exec : Executor) {w : World} (numbered : Numbered w) {r : Run}
    (member : r ∈ w.runs) :
    Turned w (w.execute exec r.id) r.id w.stack (r.stride exec w.now w.calls) := by
  let on : Run → Run := fun s => { s with progress := (r.progress.next r.cancelled).2 }
  have runs := numbered.runs_modifyRun member on
  unfold execute Run.stride
  rw [numbered.run?_eq_some member]
  dsimp only
  cases (r.progress.next r.cancelled).1 with
  | nothing => exact ⟨runs, rfl, rfl, rfl, rfl⟩
  | stop => exact ⟨runs, rfl, rfl, rfl, rfl⟩
  | call service data => exact ⟨runs, rfl, rfl, rfl, rfl⟩
  | wait ms =>
    simp only [meet, waitFor]
    split_ifs with empty
    · exact ⟨runs, rfl, rfl, rfl, rfl⟩
    · exact ⟨numbered.runs_modifyRun_twice member (f := on) rfl _, rfl, rfl, rfl, rfl⟩
  | finish =>
    have ledger := ledger_finishRun (w.modifyRun r.id on) (on r)
    refine ⟨?_, congrArg Ledger.stack ledger, congrArg Ledger.ready ledger,
      congrArg Ledger.now ledger, congrArg Ledger.nextRun ledger⟩
    have gone : ((w.modifyRun r.id on).finishRun (on r)).runs
        = (w.modifyRun r.id on).runs.filter (·.id ≠ (on r).id) := congrArg Ledger.runs ledger
    rw [runs] at gone
    exact gone.trans (filter_replaced w.runs rfl)

/-- Putting a run in its own place changes nothing. -/
theorem Numbered.replaced_self {w : World} (h : Numbered w) {r : Run} (member : r ∈ w.runs) :
    replaced w.runs r.id (some r) = w.runs := by
  refine (List.map_congr_left fun other there => ?_).trans (List.map_id _)
  by_cases this : other.id = r.id
  · rw [if_pos this, h.eq_of_id_eq there member this, id]
  · rw [if_neg this, id]

/-- A turn that leaves its run as it is, with at most something noted. -/
theorem Numbered.turned_self {w : World} (h : Numbered w) {r : Run} (member : r ∈ w.runs)
    (w' : World) {frames : List Frame} (same : w'.ledger = { w.ledger with stack := frames ++ w.ledger.stack }) :
    Turned w w' r.id w.stack (some r, frames) where
  runs := by rw [h.replaced_self member]; exact congrArg Ledger.runs same
  stack := congrArg Ledger.stack same
  ready := congrArg Ledger.ready same
  now := congrArg Ledger.now same
  nextRun := congrArg Ledger.nextRun same

/-- A step of a service call seen from the world. -/
theorem turned_serve {w : World} (numbered : Numbered w) {r : Run} (member : r ∈ w.runs)
    (call : Call) : Turned w (w.serve r.id call) r.id w.stack (r.served w.now call) := by
  obtain ⟨service, effects, result⟩ := call
  match effects with
  | [] =>
    cases result with
    | done => exact numbered.turned_self member (w.push [.execute r.id]) rfl
    | failed reason =>
      exact numbered.turned_self member
        ((w.note (.callFailed service reason)).push [.execute r.id]) rfl
    | panicked =>
      have closed : w.serve r.id ⟨service, [], .panicked⟩ = w.panicRun r := by
        simp only [serve, endCall, numbered.run?_eq_some member]
      have ledger := ledger_panicRun w r
      rw [closed]
      exact ⟨congrArg Ledger.runs ledger, congrArg Ledger.stack ledger,
        congrArg Ledger.ready ledger, congrArg Ledger.now ledger, congrArg Ledger.nextRun ledger⟩
  | .act op recorded :: rest => exact numbered.turned_self member (w.push _) rfl
  | .pause ms :: rest =>
    simp only [serve, Run.served]
    split_ifs with empty
    · exact numbered.turned_self member (w.push _) rfl
    · exact ⟨numbered.runs_modifyRun member _, rfl, rfl, rfl, rfl⟩

/-- A run woken up seen from the world. -/
theorem turned_resumeRun {w : World} (numbered : Numbered w) {r : Run} (member : r ∈ w.runs) :
    Turned w (w.resumeRun r.id) r.id w.stack (r.resumed w.now) := by
  unfold resumeRun Run.resumed
  rw [numbered.run?_eq_some member]
  dsimp only
  cases r.phase with
  | ready => exact numbered.turned_self member (w.push _) rfl
  | waiting deadline ms =>
    dsimp only
    split_ifs with due cancelled
    · exact ⟨numbered.runs_modifyRun member _, rfl, rfl, rfl, rfl⟩
    · have noted : Numbered (w.note (.waitInterrupted ms)) :=
        ⟨numbered.ascending, numbered.bounded, numbered.owned⟩
      exact ⟨noted.runs_modifyRun member _, rfl, rfl, rfl, rfl⟩
    · exact numbered.turned_self member w rfl
  | calling deadline call =>
    dsimp only
    split_ifs with due
    · exact ⟨numbered.runs_modifyRun member _, rfl, rfl, rfl, rfl⟩
    · exact numbered.turned_self member w rfl

/-- **A turn of a run** seen from the world: the run becomes what it would alone, and nothing else
changes. -/
theorem turned_step (exec : Executor) {w : World} (numbered : Numbered w) {frame : Frame}
    {rest : List Frame} {r : Run} (stack : w.stack = frame :: rest) (mine : frame.run? = some r.id)
    (member : r ∈ w.runs) :
    Turned w (w.step exec) r.id rest (r.turn exec w.now w.calls frame) := by
  let below : World := { w with stack := rest }
  have numbered' : Numbered below := ⟨numbered.ascending, numbered.bounded, numbered.owned⟩
  have taken : w.step exec = below.act exec frame := by rw [step, stack]
  rw [taken]
  cases frame with
  | execute id =>
    obtain rfl : id = r.id := Option.some.inj mine
    obtain ⟨runs, stack, ready, now, nextRun⟩ := turned_execute exec numbered' member
    exact ⟨runs, stack, ready, now, nextRun⟩
  | serve id call =>
    obtain rfl : id = r.id := Option.some.inj mine
    obtain ⟨runs, stack, ready, now, nextRun⟩ := turned_serve numbered' member call
    exact ⟨runs, stack, ready, now, nextRun⟩
  | resume task =>
    cases task with
    | run id =>
      obtain rfl : id = r.id := Option.some.inj mine
      obtain ⟨runs, stack, ready, now, nextRun⟩ := turned_resumeRun numbered' member
      exact ⟨runs, stack, ready, now, nextRun⟩
    | timer index => cases mine
  | perform | respond | record | deliver | tellNumber | tellText | lines | drain | advanceTo
  | leap => cases mine

variable {w w' : World}

/-- After a turn its run is **what the turn made of it**. -/
theorem Turned.run?_self {r : Run} {rest : List Frame} {result : Option Run × List Frame}
    (turned : Turned w w' r.id rest result) (numbered' : Numbered w') (member : r ∈ w.runs)
    (same : ∀ later, result.1 = some later → later.id = r.id) : w'.run? r.id = result.1 := by
  have runs := turned.runs
  cases found : result.1 with
  | some later =>
    rw [found] at runs
    have there : later ∈ w'.runs := runs ▸ mem_replaced.mpr (.inr ⟨rfl, r, member, rfl⟩)
    rw [← same later found]
    exact numbered'.run?_eq_some there
  | none =>
    rw [found] at runs
    refine List.find?_eq_none.mpr fun other there => ?_
    rw [runs] at there
    rcases mem_replaced.mp there with ⟨-, apart⟩ | ⟨absurd, -⟩
    · simpa using apart
    · cases absurd

/-- All other runs are **what they were**. -/
theorem Turned.run?_of_ne {r : Run} {rest : List Frame} {result : Option Run × List Frame}
    (turned : Turned w w' r.id rest result) (numbered' : Numbered w')
    (same : ∀ later, result.1 = some later → later.id = r.id) {id : Nat} (other : id ≠ r.id) :
    w'.run? id = w.run? id := by
  cases there : w.run? id with
  | some s =>
    have mine := List.find?_some there
    rw [decide_eq_true_iff] at mine
    have later : s ∈ w'.runs := by
      rw [turned.runs]
      exact mem_replaced.mpr (.inl ⟨List.mem_of_find?_eq_some there, mine ▸ other⟩)
    rw [← mine]
    exact numbered'.run?_eq_some later
  | none =>
    refine List.find?_eq_none.mpr fun s member => ?_
    rw [turned.runs] at member
    rcases mem_replaced.mp member with ⟨before, -⟩ | ⟨found, -⟩
    · exact List.find?_eq_none.mp there s before
    · simpa [same s found] using Ne.symm other

end World

end RuleDispatch
