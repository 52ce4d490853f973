import RuleDispatch.Proofs.Failures.Doomed

/-! # How a run is closed

A run that has halted takes no further action, but it works off what it has left to do, step by step,
before it comes to its end; a run that panics is over at once. Meanwhile nothing else goes on, and what
is left of either in the world is the same: the run is taken out, and its slot is told.

* `World.vacate` — a run taken out, and nothing recorded.
* `World.Elsewhere` — views in which the steps of one run do not show.
* `World.Closes` — so many steps in which one run comes to its end and nothing else goes on.
* `World.exists_closes_of_halted`, `World.closes_panic` — the end of a halted run, and a panic. -/

namespace RuleDispatch

/-! ## 1. Runs that have halted -/

namespace Progress

/-- A run that **has halted** takes no further action. -/
theorem next_of_halted {p : Progress} (halted : p.summary.halted = true) (left : p.agenda ≠ [])
    (cancelled : Bool) :
    (p.next cancelled).1 = .nothing ∧ (p.next cancelled).2.summary.halted = true := by
  obtain ⟨agenda, s⟩ := p
  have checked : s.checkHalt cancelled = s := by
    rw [Summary.checkHalt, show s.halted = true from halted]
    rfl
  cases agenda with
  | nil => exact absurd rfl left
  | cons block rest =>
    cases block with
    | loop count actions => cases count <;> exact ⟨rfl, halted⟩
    | list actions =>
      cases actions with
      | nil => exact ⟨rfl, halted⟩
      | cons action actions =>
        unfold next
        dsimp only
        rw [checked, if_pos halted]
        exact ⟨rfl, halted⟩

/-- A run whose **next action is to stop** has halted after that. -/
theorem next_stopFirst (blocks : List Block) (s : Summary) (cancelled : Bool) :
    ((next ⟨stopFirst blocks, s⟩ cancelled).1 = .nothing
        ∨ (next ⟨stopFirst blocks, s⟩ cancelled).1 = .stop)
      ∧ (next ⟨stopFirst blocks, s⟩ cancelled).2.summary.halted = true := by
  obtain ⟨actions, rest, first⟩ :
      ∃ actions rest, stopFirst blocks = .list (.stop :: actions) :: rest := by
    unfold stopFirst
    split <;> exact ⟨_, _, rfl⟩
  rw [first]
  unfold next
  dsimp only
  split_ifs with halted
  · exact ⟨.inl rfl, halted⟩
  · exact ⟨.inr rfl, rfl⟩

end Progress

/-- Whether a record tells of **the end of a run**. -/
def Entry.closes : Entry → Bool
  | .note .stopped | .note (.runFinished _ _) | .note (.runPanicked _) | .summary _ _ => true
  | _ => false

namespace World

/-- The world with **nothing recorded**. -/
def unlogged (w : World) : World :=
  { w with log := [] }

/-- A run **taken out**, and its slot told, but nothing recorded. -/
def vacate (w : World) (r : Run) : World :=
  match r.owner with
  | .rule index generation => (w.unlogged.removeRun r.id).release index generation
  | .label _ => w.unlogged.removeRun r.id

variable {exec : Executor} {w w' : World} {r : Run}

/-- A run that **comes to its end** is taken out. -/
theorem unlogged_finishRun (w : World) (r : Run) : (w.finishRun r).unlogged = w.vacate r := by
  unfold finishRun vacate
  cases r.owner <;> rfl

/-- A run that **panics** is taken out, too. -/
theorem unlogged_panicRun (w : World) (r : Run) : (w.panicRun r).unlogged = w.vacate r := by
  unfold panicRun vacate
  cases r.owner <;> rfl

/-- The end of a run is **recorded in its own records**. -/
theorem log_finishRun (w : World) (r : Run) :
    ∃ own, (w.finishRun r).log = own ++ w.log ∧ ∀ e ∈ own, e.2.closes = true := by
  unfold finishRun
  cases r.owner with
  | rule index generation => exact ⟨[_], rfl, by simp [Entry.closes]⟩
  | label label => exact ⟨[_], rfl, by simp [Entry.closes]⟩

/-- A panic of a run records **its own closing only**. -/
theorem log_panicRun (w : World) (r : Run) :
    ∃ own, (w.panicRun r).log = own ++ w.log ∧ ∀ e ∈ own, e.2.closes = true := by
  unfold panicRun
  cases r.owner with
  | rule index generation => exact ⟨[_], rfl, by simp [Entry.closes]⟩
  | label label => exact ⟨[], rfl, by simp⟩

/-- A run changed is the run that is found. -/
theorem run?_modifyRun {id : Nat} (found : w.run? id = some r) {f : Run → Run}
    (same : ∀ s, (f s).id = s.id) : (w.modifyRun id f).run? id = some (f r) := by
  have kept : (fun s : Run => decide ((if s.id = id then f s else s).id = id))
      = fun s : Run => decide (s.id = id) := by
    funext s
    split_ifs <;> simp [same]
  unfold run? modifyRun
  rw [List.find?_map, Function.comp_def, kept, show w.runs.find? _ = some r from found,
    Option.map_some, if_pos (id_of_run? found)]

/-- What becomes of a run **before it is taken out** does not matter. -/
theorem vacate_modifyRun (w : World) {s : Run} (same : s.id = r.id) (owner : s.owner = r.owner)
    {f : Run → Run} (kept : ∀ s, (f s).id = s.id) :
    (w.modifyRun r.id f).vacate s = w.vacate r := by
  have ids : (fun t : Run => decide ((if t.id = r.id then f t else t).id ≠ r.id))
      = fun t : Run => decide (t.id ≠ r.id) := by
    funext t
    split_ifs <;> simp [kept]
  have others : (w.modifyRun r.id f).runs.filter (·.id ≠ r.id) = w.runs.filter (·.id ≠ r.id) := by
    unfold modifyRun
    rw [List.filter_map, Function.comp_def, ids]
    refine (List.map_congr_left fun t member => ?_).trans (List.map_id _)
    exact if_neg (by simpa using (List.mem_filter.mp member).2)
  have removed : (w.modifyRun r.id f).unlogged.removeRun r.id = w.unlogged.removeRun r.id := by
    unfold removeRun
    rw [show (w.modifyRun r.id f).unlogged.runs = (w.modifyRun r.id f).runs from rfl, others]
    rfl
  unfold vacate
  rw [owner, same, removed]

/-! ## 2. What is seen elsewhere -/

/-- A view of the next step is seen **elsewhere** when the steps of one run do not show in it, and it
is the same behind a veil that the step does not see. -/
structure Elsewhere {α : Type} (id : Nat) (view : World → Option α) : Prop where
  /-- A turn of the run does not show. -/
  silent : ∀ {u : World} {frame : Frame} {rest : List Frame}, u.stack = frame :: rest →
    frame.acts? = some id → view u = none
  /-- Nothing else looks different behind a veil. -/
  behind : ∀ {v : Veil} {exec exec' : Executor} {u : World}, Overlooks v exec exec' u →
    view (u.behind v) = view u

/-- **Firings** are decided elsewhere. -/
theorem elsewhere_decision? (id : Nat) : Elsewhere id decision? where
  silent {u frame rest} stack acts := by
    have silent : u.firing? = none := by
      rw [firing?, stack]
      cases frame <;> first | rfl | cases acts
    rw [decision?, silent]
    rfl
  behind _ := decision?_behind _ _

/-- What **another run** does is seen elsewhere. -/
theorem elsewhere_deed? {id other : Nat} (apart : other ≠ id) : Elsewhere id (deed? other) where
  silent stack acts := deed?_of_acts?_ne stack (by rw [acts]; simpa using Ne.symm apart)
  behind overlooks := overlooks.deed?_behind other

/-- A step that goes on with a run ends **no other**. -/
theorem id_of_ending? {id : Nat} {frame : Frame} {rest : List Frame} (stack : w.stack = frame :: rest)
    (acts : frame.acts? = some id) (ending : w.ending? = some r) : r.id = id := by
  rw [ending?, stack] at ending
  cases frame with
  | execute run =>
    obtain rfl := Option.some.inj acts
    exact id_of_run? (Option.filter_eq_some_iff.mp ending).1
  | serve run call =>
    obtain rfl := Option.some.inj acts
    obtain ⟨service, effects, result⟩ := call
    cases effects with
    | cons effect effects => cases ending
    | nil =>
      cases result with
      | done | failed => cases ending
      | panicked => exact id_of_run? ending
  | resume | perform | respond | record | deliver | tellNumber | tellText | lines | drain
  | advanceTo | leap => cases acts

/-- The **reports of other runs** are left elsewhere. -/
theorem elsewhere_report? (id : Nat) :
    Elsewhere id fun u => u.report?.filter (·.1 ≠ id) where
  silent {u frame rest} stack acts := by
    refine Option.filter_eq_none_iff.mpr fun report reported => ?_
    obtain ⟨r, ending, rfl⟩ := Option.map_eq_some_iff.mp reported
    simp [Run.report, id_of_ending? stack acts ending]
  behind overlooks := by rw [overlooks.report?_behind]

/-! ## 3. Nothing else goes on -/

/-- **In so many steps one run comes to its end** and nothing else goes on: every step goes on with
this run, the last one shows its end, and what was recorded tells of nothing else. -/
structure Closes (exec : Executor) (w : World) (id : Nat) (d : Deed) (steps : Nat) (w' : World) :
    Prop where
  /-- Each step is a turn of the run. -/
  turns : ∀ k < steps, ∃ frame ∈ (w.after exec (List.replicate k .step)).stack.head?,
    frame.acts? = some id
  /-- The steps show one deed of it. -/
  deeds : w.deedsOf exec (List.replicate steps .step) id = [(w.now, d)]
  /-- Nothing is recorded but its closing. -/
  own : ∃ own, (w.after exec (List.replicate steps .step)).log = own ++ w.log
    ∧ ∀ e ∈ own, e.2.closes = true
  /-- The world that is left, the log apart. -/
  world : (w.after exec (List.replicate steps .step)).unlogged = w'

/-- One step that goes on with the run **before the others do**. -/
theorem Closes.step {id : Nat} {d : Deed} {steps : Nat} {frame : Frame} {rest : List Frame}
    (stack : w.stack = frame :: rest) (acts : frame.acts? = some id) (silent : w.deed? id = none)
    (now : (w.step exec).now = w.now)
    (own : ∃ own, (w.step exec).log = own ++ w.log ∧ ∀ e ∈ own, e.2.closes = true)
    (h : Closes exec (w.step exec) id d steps w') : Closes exec w id d (steps + 1) w' where
  turns k below := by
    cases k with
    | zero => exact ⟨frame, by rw [List.replicate_zero, after_nil, stack]; rfl, acts⟩
    | succ k => exact h.turns k (Nat.lt_of_succ_lt_succ below)
  deeds := by
    rw [List.replicate_succ, deedsOf_cons, deedsOf_step, silent, World.move, h.deeds, now]
    rfl
  own := by
    obtain ⟨first, log, closes⟩ := own
    obtain ⟨later, log', closes'⟩ := h.own
    refine ⟨later ++ first, ?_, fun e member => ?_⟩
    · show ((w.step exec).after exec (List.replicate steps .step)).log = _
      rw [log', log, List.append_assoc]
    · exact (List.mem_append.mp member).elim (closes' e) (closes e)
  world := h.world

/-! ## 4. The end of a run that has halted -/

/-- **A stride** of a run that is found. -/
theorem step_of_execute (exec : Executor) {rest : List Frame}
    (stack : w.stack = .execute r.id :: rest) (found : w.run? r.id = some r) :
    w.step exec
      = (World.modifyRun { w with stack := rest } r.id fun s =>
          { s with progress := (r.progress.next r.cancelled).2 }).meet exec
          { r with progress := (r.progress.next r.cancelled).2 } (r.progress.next r.cancelled).1 := by
  rw [step, stack]
  show World.execute { w with stack := rest } exec r.id = _
  unfold execute
  rw [show World.run? { w with stack := rest } r.id = some r from found]

/-- What a step shows of a run whose turn it is **is its next deed**. -/
theorem deed?_of_execute {rest : List Frame} (stack : w.stack = .execute r.id :: rest)
    (found : w.run? r.id = some r) :
    w.deed? r.id = (r.progress.next r.cancelled).1.deed?.map fun d => (w.now, d) := by
  rw [deed?, stack, found]
  exact if_pos rfl

/-- A run that has **nothing left to do** comes to its end. -/
theorem closes_of_agenda_nil (exec : Executor) {rest : List Frame}
    (stack : w.stack = .execute r.id :: rest) (found : w.run? r.id = some r)
    (left : r.progress.agenda = []) :
    Closes exec w r.id .finish 1 (World.vacate { w with stack := rest } r) := by
  have finishes := Progress.next_of_agenda_nil left r.cancelled
  have stride := step_of_execute exec stack found
  have deed := deed?_of_execute stack found
  rw [finishes] at stride deed
  refine ⟨fun k below => ?_, ?_, ?_, ?_⟩
  · obtain rfl := Nat.lt_one_iff.mp below
    exact ⟨_, by rw [List.replicate_zero, after_nil, stack]; rfl, rfl⟩
  · show w.deedsOf exec [.step] r.id = _
    rw [deedsOf_step, deed]
    rfl
  · show ∃ own, (w.step exec).log = own ++ w.log ∧ _
    rw [stride]
    exact log_finishRun _ _
  · show (w.step exec).unlogged = _
    rw [stride]
    exact (unlogged_finishRun _ _).trans (vacate_modifyRun _ rfl rfl fun _ => rfl)

/-- A stride that **demands nothing**, or to take note of a stop, leaves the next stride to come. -/
theorem step_of_idle (exec : Executor) {rest : List Frame}
    (stack : w.stack = .execute r.id :: rest) (found : w.run? r.id = some r)
    (idle : (r.progress.next r.cancelled).1 = .nothing ∨ (r.progress.next r.cancelled).1 = .stop) :
    ∃ own, w.step exec
        = { w.modifyRun r.id fun s => { s with progress := (r.progress.next r.cancelled).2 } with
            log := own ++ w.log }
      ∧ ∀ e ∈ own, e.2.closes = true := by
  have stride := step_of_execute exec stack found
  rcases idle with nothing | stop
  · refine ⟨[], ?_, by simp⟩
    rw [stride, nothing]
    simp only [meet, push, modifyRun, stack]
    rfl
  · refine ⟨[(w.now, .note .stopped)], ?_, by simp [Entry.closes]⟩
    rw [stride, stop]
    simp only [meet, push, note, record, modifyRun, stack]
    rfl

/-- An idle stride comes **before the end**. -/
theorem Closes.stride {rest : List Frame} (stack : w.stack = .execute r.id :: rest)
    (found : w.run? r.id = some r)
    (idle : (r.progress.next r.cancelled).1 = .nothing ∨ (r.progress.next r.cancelled).1 = .stop)
    (h : ∀ u : World, u.stack = .execute r.id :: rest →
      u.run? r.id = some { r with progress := (r.progress.next r.cancelled).2 } →
      ∃ steps, Closes exec u r.id .finish steps
        (World.vacate { u with stack := rest } { r with progress := (r.progress.next r.cancelled).2 })) :
    ∃ steps, Closes exec w r.id .finish steps (World.vacate { w with stack := rest } r) := by
  obtain ⟨own, stride, closes⟩ := step_of_idle exec stack found idle
  have strode : (w.step exec).run? r.id
      = some { r with progress := (r.progress.next r.cancelled).2 } := by
    rw [stride]
    exact run?_modifyRun found fun _ => rfl
  obtain ⟨steps, later⟩ := h (w.step exec) (by rw [stride]; exact stack) strode
  have silent : w.deed? r.id = none := by
    rw [deed?_of_execute stack found]
    rcases idle with demand | demand <;> rw [demand] <;> rfl
  have taken : World.vacate { w.step exec with stack := rest }
      { r with progress := (r.progress.next r.cancelled).2 }
        = World.vacate { w with stack := rest } r := by
    rw [stride]
    exact vacate_modifyRun { w with stack := rest } rfl rfl fun _ => rfl
  rw [taken] at later
  exact ⟨steps + 1, .step stack rfl silent (by rw [stride]; rfl) ⟨own, by rw [stride], closes⟩ later⟩

/-- **A run that has halted** comes to its end, and nothing else goes on until then. -/
theorem exists_closes_of_halted (exec : Executor) {rest : List Frame}
    (stack : w.stack = .execute r.id :: rest) (found : w.run? r.id = some r)
    (halted : r.progress.summary.halted = true) :
    ∃ steps, Closes exec w r.id .finish steps (World.vacate { w with stack := rest } r) := by
  -- every stride leaves less to do
  induction weight : r.progress.weight using Nat.strong_induction_on generalizing w r with
  | _ n ih =>
    by_cases left : r.progress.agenda = []
    · exact ⟨1, closes_of_agenda_nil exec stack found left⟩
    · obtain ⟨nothing, halted'⟩ := Progress.next_of_halted halted left r.cancelled
      refine Closes.stride stack found (.inl nothing) fun u stack' found' => ?_
      exact ih _ (weight ▸ Progress.weight_next_lt left r.cancelled)
        (r := { r with progress := (r.progress.next r.cancelled).2 }) stack' found' halted' rfl

/-- **A run that is to stop first** comes to its end, and nothing else goes on until then. -/
theorem exists_closes_of_stopFirst (exec : Executor) {rest : List Frame} {blocks : List Block}
    (stack : w.stack = .execute r.id :: rest) (found : w.run? r.id = some r)
    (stops : r.progress.agenda = stopFirst blocks) :
    ∃ steps, Closes exec w r.id .finish steps (World.vacate { w with stack := rest } r) := by
  obtain ⟨idle, halted⟩ := Progress.next_stopFirst blocks r.progress.summary r.cancelled
  rw [← stops] at idle halted
  exact Closes.stride stack found idle fun u stack' found' =>
    exists_closes_of_halted (r := { r with progress := (r.progress.next r.cancelled).2 }) exec stack'
      found' halted

/-- **A run whose call returns** and that is to stop first comes to its end, and nothing else goes on
until then. -/
theorem exists_closes_of_returned (exec : Executor) {service : String} {rest : List Frame}
    {blocks : List Block} (stack : w.stack = .serve r.id ⟨service, [], .done⟩ :: rest)
    (found : w.run? r.id = some r) (stops : r.progress.agenda = stopFirst blocks) :
    ∃ steps, Closes exec w r.id .finish steps (World.vacate { w with stack := rest } r) := by
  have returned : w.step exec = { w with stack := .execute r.id :: rest } := by
    rw [step, stack]
    rfl
  obtain ⟨steps, later⟩ := exists_closes_of_stopFirst (w := w.step exec) (r := r) exec
    (by rw [returned]) (by rw [returned]; exact found) stops
  have silent : w.deed? r.id = none := by
    rw [deed?, stack]
  have same : World.vacate { w.step exec with stack := rest } r
      = World.vacate { w with stack := rest } r := by
    rw [returned]
  rw [same] at later
  exact ⟨steps + 1,
    .step stack rfl silent (by rw [returned]) ⟨[], by rw [returned]; rfl, by simp⟩ later⟩

/-- **A panic** is the end of its run at once. -/
theorem closes_panic (exec : Executor) {service : String} {rest : List Frame}
    (stack : w.stack = .serve r.id ⟨service, [], .panicked⟩ :: rest)
    (found : w.run? r.id = some r) :
    Closes exec w r.id .panic 1 (World.vacate { w with stack := rest } r) := by
  have panics : w.step exec = World.panicRun { w with stack := rest } r := by
    rw [step, stack]
    show World.endCall { w with stack := rest } r.id ⟨service, [], .panicked⟩ = _
    unfold endCall
    dsimp only
    rw [show World.run? { w with stack := rest } r.id = some r from found]
  have deed : w.deed? r.id = some (w.now, .panic) := by
    rw [deed?, stack, found]
    exact if_pos rfl
  refine ⟨fun k below => ?_, ?_, ?_, ?_⟩
  · obtain rfl := Nat.lt_one_iff.mp below
    exact ⟨_, by rw [List.replicate_zero, after_nil, stack]; rfl, rfl⟩
  · show w.deedsOf exec [.step] r.id = _
    rw [deedsOf_step, deed]
    rfl
  · show ∃ own, (w.step exec).log = own ++ w.log ∧ _
    rw [panics]
    exact log_panicRun _ _
  · show (w.step exec).unlogged = _
    rw [panics, unlogged_panicRun]

/-! ## 5. What the others see of it -/

namespace Closes

variable {id steps : Nat} {d : Deed}

/-- What a closing history shows is shown by **a step that goes on with the run**. -/
theorem exists_of_mem_shown {α : Type} {view : World → Option α} {a : α}
    (h : Closes exec w id d steps w')
    (shown : a ∈ World.shown exec view w (List.replicate steps .step)) :
    ∃ u : World, view u = some a ∧ ∃ frame rest, u.stack = frame :: rest ∧ frame.acts? = some id := by
  obtain ⟨past, future, split, seen⟩ := World.exists_of_mem_shown shown
  obtain ⟨count, same, -⟩ := List.append_eq_replicate_iff.mp split.symm
  have below : past.length < steps := by
    rw [List.length_cons] at count
    omega
  obtain ⟨frame, there, acts⟩ := h.turns past.length below
  rw [← same] at there
  obtain ⟨rest, stack⟩ := List.head?_eq_some_iff.mp there
  exact ⟨_, seen, frame, rest, stack, acts⟩

/-- **What is seen elsewhere** shows nothing while a run is closed. -/
theorem shown_eq_nil {α : Type} {view : World → Option α} (elsewhere : Elsewhere id view)
    (h : Closes exec w id d steps w') :
    World.shown exec view w (List.replicate steps .step) = [] := by
  refine List.eq_nil_iff_forall_not_mem.mpr fun a shown => ?_
  obtain ⟨u, seen, frame, rest, stack, acts⟩ := h.exists_of_mem_shown shown
  rw [elsewhere.silent stack acts] at seen
  cases seen

end Closes

end World

end RuleDispatch
