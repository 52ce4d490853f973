import RuleDispatch.Proofs.Backdrops.Steps
import RuleDispatch.Proofs.Refusals.Payloads

/-! # Steps of a run with muted actions

A world in which one run has muted actions is the world without, against a backdrop. A step leads to the same
before this backdrop and without it, except where the run passes over a call that is refused: without the
backdrop the call is made, recorded and noted as failed in two steps, and counted.

* `Backdrop.editing`, `Backdrop.ahead` — one run with other things left to do, and with more calls made.
* `Mutes` — changes of what is left to do that only mute actions.
* `World.StrideNext` — the stride of a run is next.
* `World.stepMuted` — a step of a world in which one run has muted actions.
* `World.step_against_ahead` — a step of a world in which one run has made more calls. -/

namespace RuleDispatch

/-! ## 1. Backdrops that concern one run -/

namespace Backdrop

/-- A backdrop before which **one run has something else left to do**. -/
def editing (id : Nat) (f : List Block → List Block) : Backdrop where
  agenda run := if run = id then f else fun blocks => blocks

/-- A backdrop before which **one run has made so many calls more**. -/
def ahead (id n : Nat) : Backdrop where
  calls := n
  counted run := if run = id then n else 0

variable {id other : Nat}

/-- To edit what one run has left to do **spares every other**. -/
theorem spares_editing (f : List Block → List Block) (apart : other ≠ id) : (editing id f).Spares other where
  agenda blocks := congrFun (if_neg apart) blocks
  counted := rfl

/-- To count calls of one run **spares every other**. -/
theorem spares_ahead (n : Nat) (apart : other ≠ id) : (ahead id n).Spares other where
  agenda _ := rfl
  counted := if_neg apart

/-- What the run leaves to do is **edited anew**. -/
theorem leaving_editing (id : Nat) (f g : List Block → List Block) :
    (editing id f).leaving id g = editing id g := by
  have same : (fun run => if run = id then g else (editing id f).agenda run)
      = (editing id g).agenda := by
    funext run
    by_cases mine : run = id <;> simp [editing, mine]
  simp only [leaving, same]
  rfl

end Backdrop

/-- The summary of a run that has made **so many calls more**. -/
def Summary.ahead (n : Nat) (s : Summary) : Summary :=
  { s with serviceCalls := n + s.serviceCalls }

namespace Progress

/-- Before such a backdrop the run has **something else left to do**. -/
theorem against_editing (id : Nat) (f : List Block → List Block) (p : Progress) :
    p.against (.editing id f) id = ⟨f p.agenda, p.summary⟩ := by
  simp [against, Backdrop.editing]

/-- Before such a backdrop the run has made **more calls**. -/
theorem against_ahead (id n : Nat) (p : Progress) :
    p.against (.ahead id n) id = ⟨p.agenda, p.summary.ahead n⟩ := by
  simp [against, Backdrop.ahead, Summary.ahead]

/-- A run that has made more calls **goes on in the same way**. -/
theorem next_ahead (id n : Nat) (p : Progress) (cancelled : Bool) :
    (p.against (.ahead id n) id).next cancelled
      = ((p.next cancelled).1, (p.next cancelled).2.against (.ahead id n) id) := by
  obtain ⟨agenda, calls, iterations, halted, noticed⟩ := p
  simp only [against_ahead]
  match agenda with
  | [] | .list [] :: rest | .loop 0 actions :: rest | .loop (count + 1) actions :: rest => rfl
  | .list (action :: actions) :: rest =>
    -- whether the run looks if it was cancelled depends on whether it halted, not on its calls
    cases action <;> cases halted <;> cases cancelled <;> rfl

end Progress

/-- A change of what is left to do that **only mutes actions**. -/
def Mutes (f : List Block → List Block) : Prop :=
  ∀ blocks, List.Forall₂ Block.Muted blocks (f blocks)

/-- There is a change that **mutes as wanted**. -/
theorem exists_mutes {blocks muted : List Block} (h : List.Forall₂ Block.Muted blocks muted) :
    ∃ f, Mutes f ∧ f blocks = muted := by
  classical
  refine ⟨fun left => if left = blocks then muted else left, fun left => ?_, if_pos rfl⟩
  dsimp only
  split_ifs with same
  · rw [same]
    exact h
  · exact Block.muted_refl left

namespace World

variable {s : Backdrop} {w : World} {id n : Nat} {r : Run} {rest : List Frame}

/-! ## 2. Strides -/

/-- Editing what a run has left to do **records nothing**. -/
theorem log_against_editing (w : World) (id : Nat) (f : List Block → List Block) :
    (w.against (.editing id f)).log = w.log :=
  List.append_nil _

/-- Counting calls **records nothing**. -/
theorem log_against_ahead (w : World) (id n : Nat) : (w.against (.ahead id n)).log = w.log :=
  List.append_nil _

/-- The next step is **a stride** of a run. -/
structure StrideNext (w : World) (r : Run) (rest : List Frame) : Prop where
  /-- Its turn is next. -/
  stack : w.stack = .execute r.id :: rest
  /-- The run is there. -/
  found : w.run? r.id = some r

/-- The stride is next **against every backdrop**. -/
theorem StrideNext.against (h : StrideNext w r rest) (s : Backdrop) :
    StrideNext (w.against s) (r.against s) (rest ++ s.after) where
  stack := by
    rw [stack_against, h.stack]
    rfl
  found := by
    rw [run?_against, Run.id_against, h.found]
    rfl

/-- **A stride** is the same against every backdrop before which the run demands the same. -/
theorem StrideNext.step_against (h : StrideNext w r rest) {f : List Block → List Block}
    (alike : (r.progress.against s r.id).next r.cancelled
      = ((r.progress.next r.cancelled).1, (r.progress.next r.cancelled).2.against (s.leaving r.id f) r.id))
    (counted : (r.progress.next r.cancelled).1 = .finish → s.counted r.id = 0) :
    (w.step Service.executor).against (s.leaving r.id f) = (w.against s).step Service.executor := by
  have taken (u : World) {later : List Frame} (stack : u.stack = .execute r.id :: later) :
      u.step Service.executor = World.execute { u with stack := later } Service.executor r.id := by
    rw [step, stack]
    rfl
  rw [taken w h.stack, taken (w.against s) (h.against s).stack]
  exact against_execute { w with stack := rest } h.found alike (fun _ _ => rfl) counted

/-- A step that is **no stride of this run** is the same against a backdrop that spares all others. -/
theorem against_step_of_spares (spares : ∀ other, other ≠ id → s.Spares other) (silent : s.answer = none)
    (begun : id < w.nextRun) (busy : w.stack ≠ [])
    (rests : ∀ r rest, r.id = id → ¬ StrideNext w r rest) :
    (w.step Service.executor).against s = (w.against s).step Service.executor := by
  by_cases turn : ∃ rest, w.stack = .execute id :: rest
  · -- a run that is over takes no stride
    obtain ⟨rest, stack⟩ := turn
    have gone : w.run? id = none := by
      by_contra there
      obtain ⟨r, found⟩ := Option.ne_none_iff_exists'.mp there
      obtain rfl := id_of_run? found
      exact rests r rest rfl ⟨stack, found⟩
    have still (u : World) {later : List Frame} (stack : u.stack = .execute id :: later)
        (gone : u.run? id = none) : u.step Service.executor = { u with stack := later } := by
      rw [step, stack]
      show World.execute { u with stack := later } _ id = _
      rw [execute, show World.run? { u with stack := later } id = none from gone]
    have stack' : (w.against s).stack = .execute id :: (rest ++ s.after) := by
      rw [stack_against, stack]
      rfl
    have gone' : (w.against s).run? id = none := by
      rw [run?_against, gone]
      rfl
    rw [still w stack gone, still (w.against s) stack' gone']
    rfl
  · refine against_step ⟨busy, silent, spares _ begun.ne', fun other rest stack => ⟨?_, fun _ _ => rfl⟩⟩
    refine spares other ?_
    rintro rfl
    exact turn ⟨rest, stack⟩

/-! ## 3. A run with muted actions -/

/-- A stride that **demands nothing** only gets the run on. -/
theorem StrideNext.step_of_nothing (h : StrideNext w r rest) {later : Progress}
    (next : r.progress.next r.cancelled = (.nothing, later)) :
    w.step Service.executor = w.modifyRun r.id fun s => { s with progress := later } := by
  rw [step_of_execute Service.executor h.stack h.found, next]
  unfold modifyRun
  rw [h.stack]
  rfl

/-- **A call that is refused** is over after two steps, and nothing but its records is left of it. -/
theorem StrideNext.step_of_refuses (h : StrideNext w r rest) {later : Progress} {service : String}
    {data : Json} {e : Service.PayloadError} (refuses : Service.Refuses service data e)
    (next : r.progress.next r.cancelled = (.call service data, later)) :
    (w.step Service.executor).isIdle = false
      ∧ (w.step Service.executor).step Service.executor
        = (({ w.modifyRun r.id fun s => { s with progress := later } with calls := w.calls + 1 } : World).record
            (.call service data)).note (.callFailed service e.message) := by
  have replies (calls : Nat) : Service.executor calls service data = { result := .failed e.message } :=
    refuses.reply
  have called : w.step Service.executor
      = { (World.modifyRun { w with stack := rest } r.id fun s => { s with progress := later }).record
            (.call service data) with
          calls := w.calls + 1
          stack := .serve r.id ⟨service, [], .failed e.message⟩ :: rest } := by
    rw [step_of_call _ h.stack h.found next, callService, replies]
    rfl
  refine ⟨by rw [called]; rfl, ?_⟩
  rw [called]
  unfold modifyRun
  rw [h.stack]
  rfl

/-- A run that took a stride has **made so many calls more**. -/
theorem strode_against_ahead (w : World) (id n : Nat) (progress : Progress) :
    (w.modifyRun id fun r => { r with progress }).against (.ahead id n)
      = { w.modifyRun id fun r => { r with progress := progress.against (.ahead id n) id } with
          calls := n + w.calls } := by
  have runs : (w.runs.map fun r => if r.id = id then { r with progress } else r).map
        (·.against (.ahead id n))
      = w.runs.map fun r =>
          if r.id = id then { r with progress := progress.against (.ahead id n) id } else r := by
    rw [List.map_map]
    refine List.map_congr_left fun r _ => ?_
    by_cases mine : r.id = id
    · simp [mine, Run.against]
    · -- the calls of other runs are not counted
      have spared : r.against (.ahead id n) = r := by
        rw [Run.against, (Backdrop.spares_ahead n mine).progress]
      simp [mine, spared]
  simp only [against, modifyRun, runs]
  simp [Backdrop.ahead]

/-- The world after a call that is refused is the world **after nothing, with one call more**. -/
theorem called_against_editing (f g : List Block → List Block) (w : World) (id : Nat) {p : Progress}
    {summary : Summary} (counts : p.summary = summary.counted) :
    ({ w.modifyRun id fun s => { s with progress := p } with calls := w.calls + 1 } : World).against
        (.editing id g)
      = ((w.against (.editing id f)).modifyRun id fun s =>
          { s with progress := ⟨g p.agenda, summary⟩ }).against (.ahead id 1) := by
  have strode := against_strode (.editing id f) { w with calls := w.calls + 1 } id g p
  rw [Backdrop.leaving_editing, Progress.against_editing, counts] at strode
  have counted : summary.ahead 1 = summary.counted := by
    rw [Summary.ahead, Nat.add_comm]
    rfl
  have calls : 1 + (w.against (.editing id f)).calls = 0 + (w.calls + 1) := by
    show 1 + (0 + w.calls) = _
    omega
  rw [strode_against_ahead, Progress.against_ahead, counted, calls]
  exact strode

/-- What **one step of a world** is without muted actions, `muted` being the step with them: the same, or the
first of the two steps of a call that is refused. -/
inductive StepMuted (id : Nat) (w muted : World) : Prop where
  /-- The step comes to the same. -/
  | same {g : List Block → List Block} (mutes : Mutes g)
      (world : (w.step Service.executor).against (.editing id g) = muted)
  /-- The step passes over a call, and it takes one more until its failure is noted. -/
  | passes {g : List Block → List Block} (mutes : Mutes g) {service : String} {data : Json}
      {e : Service.PayloadError} (refuses : Service.Refuses service data e)
      (busy : (w.step Service.executor).isIdle = false)
      (world : ((w.step Service.executor).step Service.executor).against (.editing id g)
        = ((muted.against (.ahead id 1)).record (.call service data)).note (.callFailed service e.message))

/-- **A stride** of a run with muted actions. -/
theorem StrideNext.stepMuted (h : StrideNext w r rest) {f : List Block → List Block} (mutes : Mutes f) :
    StepMuted r.id w ((w.against (.editing r.id f)).step Service.executor) := by
  have stride := Progress.nextMuted_next (mutes r.progress.agenda) r.progress.summary r.cancelled
  rw [← Progress.against_editing r.id f r.progress] at stride
  -- what is left to do after the stride is muted by another change than before it
  generalize muted : (r.progress.against (.editing r.id f) r.id).next r.cancelled = next at stride
  cases stride with
  | @same left agenda =>
    obtain ⟨g, mutes', leaves⟩ := exists_mutes agenda
    refine .same mutes' ?_
    rw [← Backdrop.leaving_editing r.id f g]
    refine h.step_against ?_ fun _ => rfl
    rw [muted, Backdrop.leaving_editing, Progress.against_editing, leaves]
  | @passes service data e summary left refuses demand counts agenda =>
    obtain ⟨g, mutes', leaves⟩ := exists_mutes agenda
    obtain ⟨busy, twice⟩ := h.step_of_refuses refuses (Prod.ext demand rfl)
    refine .passes mutes' refuses busy ?_
    -- the call takes two steps here, and there is one that demands nothing there
    rw [(h.against _).step_of_nothing muted, twice, against_note, against_record, ← leaves,
      called_against_editing f g w r.id counts]
    rfl

/-- **A step of a world in which one run has muted actions.** -/
theorem stepMuted {f : List Block → List Block} (mutes : Mutes f) (begun : id < w.nextRun)
    (busy : w.stack ≠ []) : StepMuted id w ((w.against (.editing id f)).step Service.executor) := by
  by_cases rests : ∀ r rest, r.id = id → ¬ StrideNext w r rest
  · exact .same mutes (against_step_of_spares (fun _ => Backdrop.spares_editing f) rfl begun busy rests)
  · push Not at rests
    obtain ⟨r, rest, rfl, next⟩ := rests
    exact next.stepMuted mutes

/-! ## 4. A run that has made more calls -/

/-- So many calls more, **and so many again**. -/
theorem against_ahead_ahead (w : World) (id n m : Nat) :
    (w.against (.ahead id n)).against (.ahead id m) = w.against (.ahead id (n + m)) := by
  have runs : (w.runs.map (·.against (.ahead id n))).map (·.against (.ahead id m))
      = w.runs.map (·.against (.ahead id (n + m))) := by
    rw [List.map_map]
    refine List.map_congr_left fun r _ => ?_
    by_cases mine : r.id = id
    · simp [mine, Run.against, Progress.against, Backdrop.ahead, Nat.add_comm n m, Nat.add_assoc]
    · simp [mine, Run.against, Progress.against, Backdrop.ahead]
  unfold against
  dsimp only
  rw [runs]
  simp [Backdrop.ahead, Nat.add_comm n m, Nat.add_assoc]

/-- The end of a run, **recorded**. -/
def ending (w : World) (r : Run) : Entry :=
  match r.owner with
  | .rule index _ => .note (.runFinished (w.ruleIdAt index) r.progress.summary)
  | .label label => .summary label r.progress.summary

/-- **The last stride** of a run takes it out and records its end. -/
theorem StrideNext.step_of_agenda_nil (h : StrideNext w r rest) (left : r.progress.agenda = []) :
    (w.step Service.executor).unlogged = World.vacate { w with stack := rest } r
      ∧ (w.step Service.executor).log = (w.now, w.ending r) :: w.log := by
  rw [step_of_execute Service.executor h.stack h.found, Progress.next_of_agenda_nil left]
  refine ⟨(unlogged_finishRun _ _).trans (vacate_modifyRun _ rfl rfl fun _ => rfl), ?_⟩
  show (World.finishRun _ _).log = _
  unfold finishRun ending
  cases r.owner <;> rfl

/-- A run that has made more calls is taken out **in the same way**. -/
theorem vacate_against_ahead (w : World) (id n : Nat) (r : Run) :
    (w.against (.ahead id n)).vacate r = (w.vacate r).against (.ahead id n) := by
  have removed := against_removeRun (.ahead id n) w.unlogged r.id
  unfold vacate
  cases r.owner with
  | label label => exact removed.symm
  | rule index generation => exact congrArg (fun u : World => u.release index generation) removed.symm

/-- The end of a run **that has made more calls** tells so, and nothing else is different. -/
structure EndsAhead (r : Run) (n : Nat) (w ahead : World) : Prop where
  /-- Nothing else is different. -/
  world : ahead.unlogged = ((w.step Service.executor).against (.ahead r.id n)).unlogged
  log : (w.step Service.executor).log = (w.now, w.ending r) :: w.log
  log' : ahead.log = (w.now, w.ending (r.against (.ahead r.id n))) :: w.log

/-- **A stride** of a run that has made more calls. -/
theorem StrideNext.step_against_ahead (h : StrideNext w r rest) (n : Nat) :
    (w.step Service.executor).against (.ahead r.id n) = (w.against (.ahead r.id n)).step Service.executor
      ∨ EndsAhead r n w ((w.against (.ahead r.id n)).step Service.executor) := by
  by_cases left : r.progress.agenda = []
  · right
    obtain ⟨vacant, log⟩ := h.step_of_agenda_nil left
    obtain ⟨vacant', log'⟩ := (h.against (.ahead r.id n)).step_of_agenda_nil left
    refine ⟨?_, log, ?_⟩
    · have gone := vacate_against_ahead { w with stack := rest } r.id n r
      rw [← vacant] at gone
      exact vacant'.trans gone
    · rw [log', show (w.against (.ahead r.id n)).log = w.log ++ [] from rfl, List.append_nil]
      rfl
  · left
    have strode := h.step_against (s := .ahead r.id n) (f := (Backdrop.ahead r.id n).agenda r.id)
    rw [Backdrop.leaving_self] at strode
    refine strode (Progress.next_ahead r.id n r.progress r.cancelled) fun finish => ?_
    exact absurd finish (Progress.next_ne_finish left r.cancelled)

/-- **A step of a world in which one run has made more calls**: the same, or it ends the run. -/
theorem step_against_ahead (n : Nat) (begun : id < w.nextRun) (busy : w.stack ≠ []) :
    (w.step Service.executor).against (.ahead id n) = (w.against (.ahead id n)).step Service.executor
      ∨ ∃ r, r.id = id ∧ EndsAhead r n w ((w.against (.ahead id n)).step Service.executor) := by
  by_cases rests : ∀ r rest, r.id = id → ¬ StrideNext w r rest
  · exact .inl (against_step_of_spares (fun _ => Backdrop.spares_ahead n) rfl begun busy rests)
  · push Not at rests
    obtain ⟨r, rest, rfl, next⟩ := rests
    exact (next.step_against_ahead n).imp_right fun ends => ⟨r, rfl, ends⟩

end World

end RuleDispatch
