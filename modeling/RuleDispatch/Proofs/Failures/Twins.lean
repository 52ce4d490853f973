import RuleDispatch.Proofs.Failures.Closing

/-! # The same call, panicking and returning

Two worlds are twins when a run makes the same call in both, which is going to panic in one; in the
other it returns, and the run is to stop then. They go on in the same way: while the call is under way
they are the same but for the run, the run is closed in both, and then they are the same but for what
was recorded of its end.

* `Veil.over`, `World.after_of_unlogged_eq` — worlds that differ in what was recorded.
* `World.stopping` — a run that is to stop after its next action.
* `World.besides`, `World.SameForOthers` — a world but for a run, and a history for all others.
* `World.Poised.behind_step_of_call`, `World.Poised.exists_closes` — how the call begins, and ends.
* `World.Twins` — twins, and what shows the same in both. -/

namespace RuleDispatch

/-! ## 1. What was recorded before -/

/-- Behind this veil **more was recorded** before. -/
def Veil.over (older : List (Nat × Entry)) : Veil where
  result _ result := result
  agenda _ blocks := blocks
  log entries := entries ++ older
  log_cons _ _ _ _ := rfl
  done _ := rfl
  failed _ _ := .inl ⟨rfl, fun _ _ _ => rfl⟩

@[simp] theorem Run.behind_over (older : List (Nat × Entry)) (r : Run) :
    r.behind (.over older) = r := by
  obtain ⟨_, _, _, phase, _⟩ := r
  cases phase <;> rfl

@[simp] theorem Frame.behind_over (older : List (Nat × Entry)) (f : Frame) :
    f.behind (.over older) = f := by
  cases f <;> rfl

namespace World

variable {exec exec' : Executor} {w : World}

/-- A world behind more records. -/
theorem behind_over (older : List (Nat × Entry)) (w : World) :
    w.behind (.over older) = { w with log := w.log ++ older } := by
  simp only [behind, Run.behind_over, Frame.behind_over, List.map_id']
  rfl

/-- **What was recorded** is what a world without it does not see. -/
theorem behind_over_unlogged (w : World) : w.unlogged.behind (.over w.log) = w := by
  rw [behind_over]
  rfl

/-- No step sees what was recorded before, nor how calls **made before** would have been answered. -/
theorem unseen_over (exec : Executor) (older : List (Nat × Entry))
    (agree : ∀ calls, w.calls ≤ calls → exec' calls = exec calls) (moves : List Move) :
    Unseen (.over older) exec exec' w moves := by
  refine fun past _ _ => ⟨fun _ => rfl, fun _ _ _ => ⟨fun _ => rfl, fun service data => ?_⟩,
    fun _ _ _ _ => rfl⟩
  rw [agree _ (calls_le_after exec w past)]
  rfl

variable {w' : World} {moves : List Move}

/-- Two worlds that differ in what was recorded are **the same world behind two veils**. -/
theorem exists_behind_over (same : w.unlogged = w'.unlogged) :
    ∃ u : World, u.calls = w.calls ∧ u.behind (.over w.log) = w ∧ u.behind (.over w'.log) = w' :=
  ⟨w.unlogged, rfl, behind_over_unlogged w, same ▸ behind_over_unlogged w'⟩

/-- **They go on in the same way**, and record the same. -/
theorem after_of_unlogged_eq (same : w.unlogged = w'.unlogged)
    (agree : ∀ calls, w.calls ≤ calls → exec' calls = exec calls) (moves : List Move) :
    (w.after exec moves).unlogged = (w'.after exec' moves).unlogged
      ∧ ∃ since, (w.after exec moves).log = since ++ w.log
        ∧ (w'.after exec' moves).log = since ++ w'.log := by
  obtain ⟨u, calls, left, right⟩ := exists_behind_over same
  have later := (unseen_over exec w.log (fun _ _ => rfl) moves).behind_after (w := u)
  have later' := (unseen_over exec w'.log (calls ▸ agree) moves).behind_after (w := u)
  rw [left] at later
  rw [right] at later'
  rw [← later, ← later', behind_over, behind_over]
  exact ⟨rfl, (u.after exec moves).log, rfl, rfl⟩

/-- What shows **in a view of the next step** is the same. -/
theorem shown_of_unlogged_eq {α : Type} {id : Nat} {view : World → Option α}
    (elsewhere : Elsewhere id view) (same : w.unlogged = w'.unlogged)
    (agree : ∀ calls, w.calls ≤ calls → exec' calls = exec calls) :
    World.shown exec view w moves = World.shown exec' view w' moves := by
  obtain ⟨u, calls, left, right⟩ := exists_behind_over same
  have later := (unseen_over (w := u) exec w.log (fun _ _ => rfl) moves).shown
    fun _ => elsewhere.behind
  have later' := (unseen_over (w := u) exec w'.log (calls ▸ agree) moves).shown fun _ => elsewhere.behind
  rw [left] at later
  rw [right] at later'
  rw [later, later']

/-- Nothing comes from outside **at another time**. -/
theorem orderly_of_unlogged_eq (same : w.unlogged = w'.unlogged)
    (agree : ∀ calls, w.calls ≤ calls → exec' calls = exec calls) :
    Orderly exec w moves ↔ Orderly exec' w' moves := by
  obtain ⟨u, calls, left, right⟩ := exists_behind_over same
  have later := (unseen_over (w := u) exec w.log (fun _ _ => rfl) moves).orderly
  have later' := (unseen_over (w := u) exec w'.log (calls ▸ agree) moves).orderly
  rw [left] at later
  rw [right] at later'
  exact later.trans later'.symm

/-! ## 2. A call that panics, and one that returns -/

/-- What is left to do with **a stop after the next action**. -/
def stopSecond : List Block → List Block
  | .list (action :: actions) :: rest => .list (action :: .stop :: actions) :: rest
  | rest => rest

/-- The world in which a run is to **stop after its next action**. -/
def stopping (w : World) (id : Nat) : World :=
  w.modifyRun id fun r =>
    { r with progress := { r.progress with agenda := stopSecond r.progress.agenda } }

/-- The world **but for one run**. -/
def besides (w : World) (id : Nat) : World :=
  { w with
    runs := w.runs.filter (·.id ≠ id)
    stack := w.stack.filter (·.run? ≠ some id) }

end World

/-- To pardon one run leaves **every other as it is**. -/
theorem Run.behind_pardon_of_ne {id : Nat} {r : Run} (other : r.id ≠ id) :
    r.behind (.pardon id) = r := by
  obtain ⟨run, owner, progress, phase, cancelled⟩ := r
  have result (result : CallResult) : (Veil.pardon id).result run result = result := if_neg other
  have agenda : (Veil.pardon id).agenda run progress.agenda = progress.agenda := if_neg other
  unfold behind
  cases phase with
  | ready | waiting => simp only [agenda, Phase.behind]
  | calling deadline call => simp only [agenda, Phase.behind, Call.behind, result]

/-- A veil leaves **the run that a frame is about**. -/
theorem Frame.run?_behind (v : Veil) (f : Frame) : (f.behind v).run? = f.run? := by
  cases f <;> rfl

/-- To pardon a run leaves the frames **of all others as they are**. -/
theorem Frame.behind_pardon_of_ne {id : Nat} {f : Frame} (other : f.run? ≠ some id) :
    f.behind (.pardon id) = f := by
  cases f with
  | serve run call =>
    have apart : run ≠ id := fun same => other (congrArg some same)
    have result : (Veil.pardon id).result run call.result = call.result := if_neg apart
    simp only [behind, Call.behind, result]
  | execute | resume | perform | respond | record | deliver | tellNumber | tellText | lines | drain
  | advanceTo | leap => rfl

namespace World

variable {exec exec' : Executor} {w : World} {id : Nat}

/-- **Other runs' frames** are what they are. -/
theorem map_behind_pardon {frames : List Frame} (others : ∀ f ∈ frames, f.run? ≠ some id) :
    frames.map (·.behind (.pardon id)) = frames :=
  (List.map_congr_left fun f member => Frame.behind_pardon_of_ne (others f member)).trans
    (List.map_id _)

/-- **Other runs** are what they are. -/
theorem filter_behind_pardon (runs : List Run) (id : Nat) :
    (runs.map (·.behind (.pardon id))).filter (·.id ≠ id) = runs.filter (·.id ≠ id) := by
  rw [List.filter_map]
  refine (List.map_congr_left fun r member => ?_).trans (List.map_id _)
  exact Run.behind_pardon_of_ne (of_decide_eq_true (List.mem_filter.mp member).2)

/-- **But for its run**, a world with a pardon is the world without it. -/
theorem besides_behind_pardon (w : World) (id : Nat) :
    (w.behind (.pardon id)).besides id = w.besides id := by
  have stack : (w.stack.map (·.behind (.pardon id))).filter (·.run? ≠ some id)
      = w.stack.filter (·.run? ≠ some id) := by
    have turns : (fun f : Frame => decide ((f.behind (.pardon id)).run? ≠ some id))
        = fun f : Frame => decide (f.run? ≠ some id) := by
      funext f
      rw [Frame.run?_behind]
    rw [List.filter_map, Function.comp_def, turns]
    exact map_behind_pardon fun f member => of_decide_eq_true (List.mem_filter.mp member).2
  unfold besides
  rw [stack_behind, stack, show (w.behind (.pardon id)).runs = w.runs.map _ from rfl,
    filter_behind_pardon]
  rfl

end World

/-- Where one call returns, a call that panics is answered **as behind its pardon**. -/
theorem Executor.returning_of_panicked {exec : Executor} {call : Nat} {service : String} {data : Json}
    (panics : (exec call service data).result = .panicked) (id : Nat) :
    exec.returning call call service data = (exec call service data).behind (.pardon id) id := by
  rw [returning, if_pos rfl, Reply.behind, panics]
  simp [Veil.pardon, CallResult.pardoned]

/-- A step that demands a call **takes the action** that it is from a list. -/
theorem Progress.exists_of_next_call {p : Progress} {cancelled : Bool} {service : String} {data : Json}
    (h : (p.next cancelled).1 = .call service data) :
    ∃ actions rest, p.agenda = .list (.serviceCall service data :: actions) :: rest
      ∧ (p.summary.checkHalt cancelled).halted = false := by
  obtain ⟨agenda, s⟩ := p
  match agenda with
  | [] | .list [] :: rest | .loop 0 actions :: rest | .loop (count + 1) actions :: rest => cases h
  | .list (action :: actions) :: rest =>
    unfold next at h
    dsimp only at h
    split_ifs at h with halted
    cases action with
    | serviceCall service data =>
      cases h
      exact ⟨actions, rest, rfl, eq_false_of_ne_true halted⟩
    | wait | repeatCount | stop | unknown => cases h

/-- The summary of a run that **makes one more call**. -/
def Summary.counted (s : Summary) : Summary :=
  { s with serviceCalls := s.serviceCalls + 1 }

/-- **A call**, for a run that has not halted. -/
theorem Progress.next_of_serviceCall {p : Progress} {cancelled : Bool} {service : String} {data : Json}
    {actions : List Action} {rest : List Block}
    (agenda : p.agenda = .list (.serviceCall service data :: actions) :: rest)
    (going : (p.summary.checkHalt cancelled).halted = false) :
    p.next cancelled
      = (.call service data, ⟨.list actions :: rest, (p.summary.checkHalt cancelled).counted⟩) := by
  obtain ⟨_, s⟩ := p
  dsimp only at agenda
  subst agenda
  unfold next
  exact if_neg (by simp [going])

namespace World

variable {exec exec' : Executor} {w : World} {id : Nat}

/-- The step that shows **a call** of a run is its stride. -/
theorem exists_of_call {t : Nat} {service : String} {data : Json}
    (calls : w.deed? id = some (t, .call service data)) :
    ∃ rest r, w.stack = .execute id :: rest ∧ w.run? id = some r
      ∧ (r.progress.next r.cancelled).1 = .call service data := by
  unfold deed? at calls
  split at calls
  · next run rest stack =>
    split at calls
    · next same =>
      subst same
      obtain ⟨r, found, shown⟩ := Option.bind_eq_some_iff.mp calls
      obtain ⟨d, deed, same⟩ := Option.map_eq_some_iff.mp shown
      refine ⟨rest, r, stack, found, ?_⟩
      -- a stride shows what it demands, and a call is shown for no other demand
      cases demanded : (r.progress.next r.cancelled).1 with
      | call service' data' =>
        rw [demanded] at deed
        cases deed
        cases same
        rfl
      | nothing | wait | stop | finish =>
        rw [demanded] at deed
        cases deed
        try cases same
    · cases calls
  · next run service' rest stack =>
    split at calls
    · obtain ⟨_, _, same⟩ := Option.map_eq_some_iff.mp calls
      cases same
    · cases calls
  · cases calls

/-- The step that shows **a panic** of a run is the end of its call. -/
theorem exists_of_panic {t : Nat} (panics : w.deed? id = some (t, .panic)) :
    ∃ service rest r, w.stack = .serve id ⟨service, [], .panicked⟩ :: rest ∧ w.run? id = some r := by
  unfold deed? at panics
  split at panics
  · split at panics
    · obtain ⟨r, found, shown⟩ := Option.bind_eq_some_iff.mp panics
      obtain ⟨d, deed, same⟩ := Option.map_eq_some_iff.mp shown
      cases demanded : (r.progress.next r.cancelled).1 <;> rw [demanded] at deed <;> cases deed <;>
        cases same
    · cases panics
  · next run service rest stack =>
    split at panics
    · next same =>
      subst same
      obtain ⟨r, found, -⟩ := Option.map_eq_some_iff.mp panics
      exact ⟨service, rest, r, stack, found⟩
    · cases panics
  · cases panics

/-- The run whose stride is next **is there** and waits for nothing. -/
theorem Poised.phase_of_execute (h : Poised w) (sound : Sound w) {rest : List Frame} {r : Run}
    (stack : w.stack = .execute r.id :: rest) (found : w.run? r.id = some r) : r.phase = .ready := by
  obtain ⟨-, s, member, same, phase⟩ := h.turn _ (stack ▸ List.mem_cons_self) r.id rfl
  rw [sound.eq_of_id_eq member (List.mem_of_find?_eq_some found) same] at phase
  exact phase.resolve_left nofun

/-- **A stride that calls** a service. -/
theorem step_of_call (exec : Executor) {rest : List Frame} {r : Run} {service : String} {data : Json}
    {later : Progress} (stack : w.stack = .execute r.id :: rest) (found : w.run? r.id = some r)
    (next : r.progress.next r.cancelled = (.call service data, later)) :
    w.step exec
      = (World.modifyRun { w with stack := rest } r.id fun s => { s with progress := later }).callService
          exec r.id service data := by
  rw [step_of_execute exec stack found, next]
  rfl

/-- A run that goes on **behind its pardon** goes on as if it were to stop first. -/
theorem Poised.behind_pardon_stride (h : Poised w) (sound : Sound w) {rest : List Frame} {r : Run}
    (stack : w.stack = .execute r.id :: rest) (found : w.run? r.id = some r) (actions : List Action)
    (blocks : List Block) (s : Summary) :
    (World.modifyRun { w with stack := rest } r.id fun r =>
        { r with progress := ⟨.list actions :: blocks, s⟩ }).behind (.pardon r.id)
      = World.modifyRun { w.stopping r.id with stack := rest } r.id fun r =>
          { r with progress := ⟨.list (.stop :: actions) :: blocks, s⟩ } := by
  have frames : rest.map (·.behind (.pardon r.id)) = rest :=
    map_behind_pardon fun f member => by rw [h.run?_below stack rfl f member]; nofun
  have runs : (World.modifyRun { w with stack := rest } r.id fun r =>
        { r with progress := ⟨.list actions :: blocks, s⟩ }).runs.map (·.behind (.pardon r.id))
      = (World.modifyRun { w.stopping r.id with stack := rest } r.id fun r =>
          { r with progress := ⟨.list (.stop :: actions) :: blocks, s⟩ }).runs := by
    simp only [stopping, modifyRun, List.map_map]
    refine List.map_congr_left fun t member => ?_
    by_cases same : t.id = r.id
    · have acting := h.phase_of_execute sound stack found
      obtain rfl := sound.eq_of_id_eq member (List.mem_of_find?_eq_some found) same
      simp [Run.behind, Veil.pardon, stopFirst, acting, Phase.behind]
    · simp [same, Run.behind_pardon_of_ne same]
  unfold behind
  rw [runs, show (World.modifyRun { w with stack := rest } r.id _).stack = rest from rfl, frames]
  rfl

/-- **A call that is going to panic** begins as one that returns, with a stop after it. -/
theorem Poised.behind_step_of_call (h : Poised w) (sound : Sound w) {t : Nat} {service : String}
    {data : Json} (calls : w.deed? id = some (t, .call service data))
    (panics : (exec w.calls service data).result = .panicked) :
    (w.step exec).behind (.pardon id) = (w.stopping id).step (exec.returning w.calls) := by
  obtain ⟨rest, r, stack, found, demanded⟩ := exists_of_call calls
  obtain rfl := id_of_run? found
  obtain ⟨actions, blocks, agenda, going⟩ := Progress.exists_of_next_call demanded
  let stop (r : Run) : Run :=
    { r with progress := { r.progress with agenda := stopSecond r.progress.agenda } }
  have agenda' : (stop r).progress.agenda
      = .list (.serviceCall service data :: .stop :: actions) :: blocks := by
    show stopSecond r.progress.agenda = _
    rw [agenda]
    rfl
  have begun := step_of_call exec stack found (Progress.next_of_serviceCall agenda going)
  have begun' := step_of_call (w := w.stopping r.id) (r := stop r) (exec.returning w.calls) stack
    (run?_modifyRun (f := stop) found fun _ => rfl) (Progress.next_of_serviceCall agenda' going)
  rw [begun, begun', ← h.behind_pardon_stride sound stack found]
  exact behind_callService _ _ (Executor.returning_of_panicked panics r.id)

/-- After the call began, **the panic is to come**. -/
theorem Sound.doom_of_call (sound : Sound w) {t : Nat} {service : String} {data : Json}
    (calls : w.deed? id = some (t, .call service data))
    (panics : (exec w.calls service data).result = .panicked) (future : List Move) :
    (w.step exec).doom future id ≠ [] ∧ w.calls < (w.step exec).calls ∧ id < (w.step exec).nextRun := by
  obtain ⟨rest, r, stack, found, demanded⟩ := exists_of_call calls
  obtain rfl := id_of_run? found
  have next : r.progress.next r.cancelled = (.call service data, (r.progress.next r.cancelled).2) :=
    Prod.ext demanded rfl
  have begun := step_of_call exec stack found next
  have there : (w.step exec).run? r.id
      = some { r with progress := (r.progress.next r.cancelled).2 } := by
    rw [begun]
    exact run?_modifyRun found fun _ => rfl
  refine ⟨?_, by rw [begun]; exact Nat.lt_succ_self _, by rw [begun]; exact sound.lt_of_run? found⟩
  have serves : (w.step exec).stack
      = .serve r.id ⟨service, (exec w.calls service data).effects, .panicked⟩ :: rest := by
    rw [begun, ← panics]
    rfl
  rw [doom, prospect, there, serves, turnIn_serve]
  simp [Run.doom, Run.remains, Run.closing, Deed.isPanic]

/-- A run taken out **takes its pardon with it**. -/
theorem vacate_behind_pardon {r : Run} (frames : ∀ f ∈ w.stack, f.run? ≠ some r.id) :
    (w.behind (.pardon r.id)).vacate (r.behind (.pardon r.id)) = w.vacate r := by
  have removed : (w.behind (.pardon r.id)).unlogged.removeRun r.id = w.unlogged.removeRun r.id := by
    unfold removeRun
    rw [show (w.behind (.pardon r.id)).unlogged.runs = w.runs.map _ from rfl, filter_behind_pardon]
    show ({ w.unlogged with runs := _, stack := w.stack.map _ } : World) = _
    rw [map_behind_pardon frames]
    rfl
  unfold vacate
  rw [Run.owner_behind, Run.id_behind, removed]

/-- **A panic, and the end of the run** whose call returned instead, leave the same world. -/
theorem Poised.exists_closes (h : Poised w) (exec exec' : Executor) {service : String} {r : Run}
    {rest : List Frame} (stack : w.stack = .serve r.id ⟨service, [], .panicked⟩ :: rest)
    (found : w.run? r.id = some r) :
    ∃ steps left, Closes exec w r.id .panic 1 left
      ∧ Closes exec' (w.behind (.pardon r.id)) r.id .finish steps left := by
  have others : ∀ f ∈ rest, f.run? ≠ some r.id :=
    fun f member => by rw [h.run?_below stack rfl f member]; nofun
  have pardoned : (w.behind (.pardon r.id)).stack = .serve r.id ⟨service, [], .done⟩ :: rest := by
    rw [stack_behind, stack, List.map_cons, map_behind_pardon others]
    simp [Frame.behind, Call.behind, Veil.pardon, CallResult.pardoned]
  have found' : (w.behind (.pardon r.id)).run? r.id = some (r.behind (.pardon r.id)) := by
    rw [run?_behind, found, Option.map_some]
  obtain ⟨steps, finishes⟩ := exists_closes_of_returned (r := r.behind (.pardon r.id)) exec' pardoned
    found' (if_pos rfl)
  have base : ({ w.behind (.pardon r.id) with stack := rest } : World)
      = World.behind (.pardon r.id) { w with stack := rest } := by
    show _ = ({ w.behind (.pardon r.id) with stack := rest.map _ } : World)
    rw [map_behind_pardon others]
  rw [base, vacate_behind_pardon (w := { w with stack := rest }) others] at finishes
  exact ⟨steps, _, closes_panic exec stack found, finishes⟩

/-! ## 3. Twins -/

/-- What is **the same for all others** in two histories that differ in what one run does. -/
structure SameForOthers (id : Nat) (exec : Executor) (w : World) (moves : List Move) (exec' : Executor)
    (w' : World) (moves' : List Move) : Prop where
  /-- All other runs call the same services at the same moments with the same data, and end as they
  do. -/
  deeds : ∀ other ≠ id, w.deedsOf exec moves other = w'.deedsOf exec' moves' other
  /-- The same rules are proposed for firing at the same moments, and the same ones get a run. -/
  decisions : w.decisions exec moves = w'.decisions exec' moves'
  /-- The same other runs come to their end, with the same summaries. -/
  reports : (w.reports exec moves).filter (·.1 ≠ id) = (w'.reports exec' moves').filter (·.1 ≠ id)
  /-- The same is recorded, but for the end of this run. -/
  log : ∃ before own own' since, (w.after exec moves).log = since ++ own ++ before
    ∧ (w'.after exec' moves').log = since ++ own' ++ before
    ∧ ∀ e ∈ own ++ own', e.2.closes = true
  /-- Then the worlds are the same but for this run. -/
  world : ((w.after exec moves).besides id).unlogged = ((w'.after exec' moves').besides id).unlogged

/-- Reports that are left out. -/
theorem filter_reports (exec : Executor) (w : World) (moves : List Move) (id : Nat) :
    (w.reports exec moves).filter (·.1 ≠ id)
      = World.shown exec (fun u => u.report?.filter (·.1 ≠ id)) w moves := by
  unfold reports
  induction moves generalizing w with
  | nil => rfl
  | cons m moves ih =>
    cases m with
    | receive s => exact ih _
    | step => rw [World.shown, List.filter_append, ih, World.shown, Option.toList_filter]

/-- Histories are the same for all others if **what is seen elsewhere** is. -/
theorem SameForOthers.of_shown {w' : World} {moves moves' : List Move}
    (shown : ∀ {α : Type} {view : World → Option α}, Elsewhere id view →
      World.shown exec view w moves = World.shown exec' view w' moves')
    (log : ∃ before own own' since, (w.after exec moves).log = since ++ own ++ before
      ∧ (w'.after exec' moves').log = since ++ own' ++ before
      ∧ ∀ e ∈ own ++ own', e.2.closes = true)
    (world : ((w.after exec moves).besides id).unlogged
      = ((w'.after exec' moves').besides id).unlogged) :
    SameForOthers id exec w moves exec' w' moves' where
  deeds other apart := shown (elsewhere_deed? apart)
  decisions := shown (elsewhere_decision? id)
  reports := by
    rw [filter_reports, filter_reports]
    exact shown (elsewhere_report? id)
  log := log
  world := world

/-- **Twins**: worlds in which a run makes the same call next, which panics in one and returns in the
other. -/
structure Twins (exec : Executor) (w : World) (id : Nat) (exec' : Executor) (w' : World) : Prop where
  /-- A stride of the run is next. -/
  next : ∃ rest, w.stack = .execute id :: rest
  /-- It is next in the other world, too. -/
  next' : ∃ rest, w'.stack = .execute id :: rest
  /-- The stride comes to the same behind the veil that pardons the run. -/
  begun : (w.step exec).behind (.pardon id) = w'.step exec'
  /-- It calls a service. -/
  made : w.calls < (w.step exec).calls
  /-- The executors agree on all calls after that. -/
  agree : ∀ calls, w.calls < calls → exec' calls = exec calls

/-- **A call that is going to panic** has a twin that returns. -/
theorem Poised.twins (h : Poised w) (sound : Sound w) {t : Nat} {service : String} {data : Json}
    (calls : w.deed? id = some (t, .call service data))
    (panics : (exec w.calls service data).result = .panicked) :
    Twins exec w id (exec.returning w.calls) (w.stopping id) := by
  obtain ⟨rest, _, stack, -, -⟩ := exists_of_call calls
  exact
    { next := ⟨rest, stack⟩
      next' := ⟨rest, stack⟩
      begun := h.behind_step_of_call sound calls panics
      made := (sound.doom_of_call calls panics []).2.1
      agree := fun calls later => by
        funext service data
        exact exec.returning_of_lt later service data }

namespace Twins

variable {during later moves : List Move} {steps : Nat} {w' left : World}

/-! ### While the call is under way -/

/-- Behind a veil over the run that panicked, twins **stay the same** in every history that does not see it.
-/
theorem behind_after (twins : Twins exec w id exec' w')
    (unseen : Unseen (.pardon id) exec exec' (w.step exec) moves) :
    (w.after exec (.step :: moves)).behind (.pardon id) = w'.after exec' (.step :: moves) := by
  show ((w.step exec).after exec moves).behind (.pardon id) = (w'.step exec').after exec' moves
  rw [unseen.behind_after, twins.begun]

/-- While the call is under way the worlds are the same **but for the run**. -/
theorem besides (twins : Twins exec w id exec' w')
    (unseen : Unseen (.pardon id) exec exec' (w.step exec) moves) :
    (w.after exec (.step :: moves)).besides id = (w'.after exec' (.step :: moves)).besides id := by
  rw [← twins.behind_after unseen, besides_behind_pardon]

/-- While the call is under way the same is **seen elsewhere**. -/
theorem shown (twins : Twins exec w id exec' w')
    (unseen : Unseen (.pardon id) exec exec' (w.step exec) moves) {α : Type}
    {view : World → Option α} (elsewhere : Elsewhere id view) :
    World.shown exec view w (.step :: moves) = World.shown exec' view w' (.step :: moves) := by
  obtain ⟨rest, stack⟩ := twins.next
  obtain ⟨rest', stack'⟩ := twins.next'
  have on := unseen.shown fun _ => elsewhere.behind
  rw [twins.begun] at on
  rw [World.shown, World.shown, elsewhere.silent stack rfl, elsewhere.silent stack' rfl, on]

/-- A history that is orderly for one twin **is orderly for the other**. -/
theorem orderly (twins : Twins exec w id exec' w')
    (unseen : Unseen (.pardon id) exec exec' (w.step exec) moves)
    (orderly : Orderly exec w (.step :: moves)) : Orderly exec' w' (.step :: moves) := by
  have behind := unseen.orderly.mpr orderly
  rwa [twins.begun] at behind

/-- While the call is under way the histories are **the same for all others**. -/
theorem others (twins : Twins exec w id exec' w')
    (unseen : Unseen (.pardon id) exec exec' (w.step exec) moves) :
    SameForOthers id exec w (.step :: moves) exec' w' (.step :: moves) := by
  have same := congrArg World.log (twins.behind_after unseen)
  refine .of_shown (twins.shown unseen) ⟨(w.after exec (.step :: moves)).log, [], [], [], rfl, ?_, ?_⟩
    (congrArg World.unlogged (twins.besides unseen))
  · exact same.symm
  · simp

/-! ### After the call -/

/-- From the call on all other calls are answered **in the same way**. -/
theorem agree_later (twins : Twins exec w id exec' w') (moves : List Move) (calls : Nat)
    (later : (w.after exec (.step :: moves)).calls ≤ calls) : exec' calls = exec calls :=
  twins.agree calls (Nat.lt_of_lt_of_le twins.made
    (Nat.le_trans (calls_le_after exec (w.step exec) moves) later))

/-- Twins whose run **is closed**, by a panic in one and by its stop in the other. -/
structure Closed (exec : Executor) (w : World) (id : Nat) (during : List Move) (exec' : Executor)
    (w' : World) (steps : Nat) : Prop extends Twins exec w id exec' w' where
  /-- What is done meanwhile does not see the veil. -/
  unseen : Unseen (.pardon id) exec exec' (w.step exec) during
  /-- The run is closed in both, and the same world is left. -/
  closes : ∃ left, Closes exec (w.after exec (.step :: during)) id .panic 1 left
    ∧ Closes exec' (w'.after exec' (.step :: during)) id .finish steps left

namespace Closed

/-- The worlds that are left differ in **what was recorded**. -/
theorem unlogged_eq (twins : Closed exec w id during exec' w' steps) :
    (w.after exec (Move.step :: during ++ List.replicate 1 Move.step)).unlogged
      = (w'.after exec' (Move.step :: during ++ List.replicate steps Move.step)).unlogged := by
  obtain ⟨left, panics, finishes⟩ := twins.closes
  rw [after_append, after_append, panics.world, finishes.world]

/-- All told, the same is **seen elsewhere**. -/
theorem shown (twins : Closed exec w id during exec' w' steps) {α : Type} {view : World → Option α}
    (elsewhere : Elsewhere id view) :
    World.shown exec view w (Move.step :: during ++ List.replicate 1 Move.step ++ later)
      = World.shown exec' view w'
          (Move.step :: during ++ List.replicate steps Move.step ++ later) := by
  obtain ⟨left, panics, finishes⟩ := twins.closes
  rw [shown_append, shown_append, shown_append view w', shown_append view w',
    twins.toTwins.shown twins.unseen elsewhere, panics.shown_eq_nil elsewhere,
    finishes.shown_eq_nil elsewhere,
    shown_of_unlogged_eq elsewhere twins.unlogged_eq (twins.agree_later _)]

/-- From then on the worlds are **the same**, and record the same. -/
theorem after (twins : Closed exec w id during exec' w' steps) (later : List Move) :
    (w.after exec (Move.step :: during ++ List.replicate 1 Move.step ++ later)).unlogged
        = (w'.after exec' (Move.step :: during ++ List.replicate steps Move.step ++ later)).unlogged
      ∧ ∃ before own own' since,
        (w.after exec (Move.step :: during ++ List.replicate 1 Move.step ++ later)).log
            = since ++ own ++ before
          ∧ (w'.after exec' (Move.step :: during ++ List.replicate steps Move.step ++ later)).log
            = since ++ own' ++ before
          ∧ ∀ e ∈ own ++ own', e.2.closes = true := by
  obtain ⟨left, panics, finishes⟩ := twins.closes
  obtain ⟨own, log, closes⟩ := panics.own
  obtain ⟨own', log', closes'⟩ := finishes.own
  obtain ⟨world, since, recorded, recorded'⟩ :=
    after_of_unlogged_eq twins.unlogged_eq (twins.agree_later _) later
  have same : (w.after exec (.step :: during)).log = (w'.after exec' (.step :: during)).log := by
    have behind := congrArg World.log (twins.behind_after twins.unseen)
    exact behind
  rw [after_append, log] at recorded
  rw [after_append, log', ← same] at recorded'
  refine ⟨?_, (w.after exec (.step :: during)).log, own, own', since, ?_, ?_, fun e member => ?_⟩
  · rw [after_append, after_append w', world]
  · rw [after_append, after_append, recorded, List.append_assoc]
  · rw [after_append, after_append, recorded', List.append_assoc]
  · exact (List.mem_append.mp member).elim (closes e) (closes' e)

/-- All told, the histories are **the same for all others**. -/
theorem others (twins : Closed exec w id during exec' w' steps) :
    SameForOthers id exec w (Move.step :: during ++ List.replicate 1 Move.step ++ later)
      exec' w' (Move.step :: during ++ List.replicate steps Move.step ++ later) := by
  obtain ⟨world, log⟩ := twins.after later
  refine .of_shown twins.shown log ?_
  exact congrArg (fun u : World => u.besides id) world

/-- In the twin world, too, nothing comes from outside **while something is being done**. -/
theorem orderly (twins : Closed exec w id during exec' w' steps)
    (orderly : Orderly exec w (Move.step :: during ++ List.replicate 1 Move.step ++ later)) :
    Orderly exec' w' (Move.step :: during ++ List.replicate steps Move.step ++ later) := by
  obtain ⟨before, after⟩ := orderly_append.mp orderly
  exact orderly_append.mpr
    ⟨orderly_append.mpr ⟨twins.toTwins.orderly twins.unseen (orderly_append.mp before).1,
      orderly_replicate _ _ _⟩,
      (orderly_of_unlogged_eq twins.unlogged_eq (twins.agree_later _)).mp after⟩

end Closed

end Twins

end World

end RuleDispatch
