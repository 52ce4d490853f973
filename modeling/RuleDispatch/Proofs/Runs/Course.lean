import RuleDispatch.Proofs.Runs.Extends
import RuleDispatch.Proofs.Runs.Unrolling

/-! # The course of one run

Seen from one run, a history is a course of a few kinds of moves: the run takes a stride, waits,
notices that it was cancelled, comes to its end, or nothing becomes of it. This holds in every
order of moves, whoever else goes on in between, so what one stride keeps is kept along the whole
course.

* `RunMove`, `World.Sound.runMove` — what one move does to one run.
* `World.NeverCancelled` — histories in which a run is not cancelled.
* `World.Sound.undisturbed` — the calls made and the calls left are always the same calls, and the
  summary to come is the same.
* `World.Sound.length_strides_le` — strides come to an end. -/

namespace RuleDispatch

/-- The run that a frame **goes on with**. -/
def Frame.acts? : Frame → Option Nat
  | .execute id | .serve id _ => some id
  | _ => none

/-- What is plain goes on with no run. -/
theorem Frame.acts?_of_isPlain {f : Frame} (h : f.isPlain = true) : f.acts? = none := by
  cases f <;> first | rfl | cases h

/-- What goes on with a run is its turn. -/
theorem Frame.run?_of_acts? {f : Frame} {id : Nat} (h : f.acts? = some id) : f.run? = some id := by
  cases f <;> first | exact h | cases h

/-- The **stride that a run takes next**. -/
def Run.nextStride (now calls : Nat) (r : Run) : Stride :=
  ⟨now, r, (r.progress.next r.cancelled).1, calls⟩

/-- **What one move does to one run**: the run before, the strides that it takes, and the run
after. -/
inductive RunMove : Option Run → List Stride → Option Run → Prop where
  /-- It is over, and stays over. -/
  | absent : RunMove none [] none
  /-- Nothing is done with it, though it may be cancelled. -/
  | stays (r : Run) (cancelled : Bool) : RunMove (some r) [] (some (r.marked cancelled))
  /-- It waits, or has waited. -/
  | waits (r : Run) (phase : Phase) : RunMove (some r) [] (some { r with phase })
  /-- It notices in a wait that it was cancelled. -/
  | notices (r : Run) (cancelled : r.cancelled = true) :
      RunMove (some r) []
        (some { r with
          phase := .ready
          progress := { r.progress with summary := r.progress.summary.checkHalt true } })
  /-- It takes a stride. -/
  | strides (r : Run) (time calls : Nat) (phase : Phase)
      (more : (r.progress.next r.cancelled).1 ≠ .finish) :
      RunMove (some r) [r.nextStride time calls]
        (some { r with progress := (r.progress.next r.cancelled).2, phase })
  /-- It takes its last stride. -/
  | finishes (r : Run) (time calls : Nat) (left : r.progress.agenda = []) :
      RunMove (some r) [r.nextStride time calls] none
  /-- It panics. -/
  | panics (r : Run) : RunMove (some r) [] none

/-- A move that leaves a run as it is. -/
theorem RunMove.refl (run : Option Run) : RunMove run [] run := by
  cases run with
  | none => exact .absent
  | some r => simpa using RunMove.waits r r.phase

namespace Run

variable {r : Run}

/-- **A stride** seen from its run. -/
theorem runMove_stride (exec : Executor) (now calls : Nat) (r : Run) :
    RunMove (some r) [r.nextStride now calls] (r.stride exec now calls).1 := by
  have goes (phase : Phase) (more : (r.progress.next r.cancelled).1 ≠ .finish) :=
    RunMove.strides r now calls phase more
  unfold stride
  dsimp only
  cases demanded : (r.progress.next r.cancelled).1 with
  | nothing | call | stop => exact goes r.phase (by rw [demanded]; rintro ⟨⟩)
  | wait ms =>
    dsimp only
    split
    · exact goes r.phase (by rw [demanded]; rintro ⟨⟩)
    · exact goes _ (by rw [demanded]; rintro ⟨⟩)
  | finish =>
    refine .finishes r now calls ?_
    by_contra left
    exact Progress.next_ne_finish left r.cancelled demanded

/-- A step of a service call seen from its run. -/
theorem runMove_served (now : Nat) (call : Call) : RunMove (some r) [] (r.served now call).1 := by
  unfold served
  split
  · split
    · exact .panics r
    · exact .refl _
  · exact .refl _
  · dsimp only
    split
    · exact .refl _
    · exact .waits r _

/-- Waking up seen from the run. -/
theorem runMove_resumed (now : Nat) : RunMove (some r) [] (r.resumed now).1 := by
  unfold resumed
  split
  · exact .refl _
  · split_ifs with due cancelled
    · exact .waits r .ready
    · exact .notices r cancelled
    · exact .refl _
  · split
    · exact .waits r .ready
    · exact .refl _

end Run

namespace World

variable {exec : Executor} {w w' : World}

/-! ## 1. The strides of one step -/

/-- A run that is there is found by its number. -/
theorem id_of_run? {id : Nat} {r : Run} (found : w.run? id = some r) : r.id = id := by
  have same := List.find?_some found
  rwa [decide_eq_true_iff] at same

/-- The step that goes on with a run is its stride. -/
theorem stride?_of_execute {id : Nat} {rest : List Frame} (stack : w.stack = .execute id :: rest) :
    w.stride? = (w.run? id).map fun r => r.nextStride w.now w.calls := by
  rw [stride?, stack]
  rfl

/-- The strides of a run in **one step**. -/
theorem stridesOf_step (id : Nat) :
    w.stridesOf exec [.step] id
      = (w.stride?.filter fun s : Stride => s.run.id = id).toList := by
  show (w.stride?.toList ++ []).filter (fun s : Stride => s.run.id = id) = _
  rw [List.append_nil]
  cases w.stride? with
  | none => rfl
  | some s => by_cases mine : s.run.id = id <;> simp [mine, Option.filter]

/-- A step that does not go on with a run is **no stride of it**. -/
theorem stride?_filter_of_ne {frame : Frame} {rest : List Frame} (stack : w.stack = frame :: rest)
    {id : Nat} (other : frame ≠ .execute id) :
    (w.stride?.filter fun s : Stride => s.run.id = id) = none := by
  cases frame with
  | execute held =>
    rw [stride?_of_execute stack]
    cases found : w.run? held with
    | none => rfl
    | some r =>
      have apart : r.id ≠ id := by
        rintro rfl
        exact other (by rw [id_of_run? found])
      simp [Option.filter, Run.nextStride, apart]
  | serve | resume | perform | respond | record | deliver | tellNumber | tellText | lines | drain
  | advanceTo | leap =>
    rw [stride?, stack]
    rfl

/-- A step that does something else is **no stride** of the run. -/
theorem stridesOf_step_of_stack {frame : Frame} {rest : List Frame}
    (stack : w.stack = frame :: rest) {id : Nat} (other : frame ≠ .execute id) :
    w.stridesOf exec [.step] id = [] := by
  rw [stridesOf_step, stride?_filter_of_ne stack other]
  rfl

/-- The step that goes on with a run that is there is **one stride**. -/
theorem stridesOf_step_of_execute {r : Run} {rest : List Frame}
    (stack : w.stack = .execute r.id :: rest) (found : w.run? r.id = some r) :
    w.stridesOf exec [.step] r.id = [r.nextStride w.now w.calls] := by
  rw [stridesOf_step, stride?_of_execute stack, found]
  simp [Option.filter, Run.nextStride]

/-- The strides of a run are those of **the first move**, and then those of the others. -/
theorem stridesOf_cons (m : Move) (future : List Move) (id : Nat) :
    w.stridesOf exec (m :: future) id
      = w.stridesOf exec [m] id ++ (w.move exec m).stridesOf exec future id := by
  have split : w.strides exec (m :: future)
      = w.strides exec [m] ++ (w.move exec m).strides exec future :=
    shown_append stride? w [m] future
  rw [stridesOf, split, List.filter_append]
  rfl

/-! ## 2. The deeds of one step -/

/-- The deeds of a run in **one step**. -/
theorem deedsOf_step (id : Nat) : w.deedsOf exec [.step] id = (w.deed? id).toList :=
  List.append_nil _

/-- The deeds of a run are those of **the first move**, and then those of the others. -/
theorem deedsOf_cons (m : Move) (future : List Move) (id : Nat) :
    w.deedsOf exec (m :: future) id
      = w.deedsOf exec [m] id ++ (w.move exec m).deedsOf exec future id :=
  shown_append (deed? id) w [m] future

/-- A step that does not go on with a run is **no deed of it**. -/
theorem deed?_of_acts?_ne {frame : Frame} {rest : List Frame} (stack : w.stack = frame :: rest)
    {id : Nat} (other : frame.acts? ≠ some id) : w.deed? id = none := by
  have apart {held : Nat} (acts : frame.acts? = some held) : held ≠ id := fun same =>
    other (acts.trans (congrArg some same))
  unfold deed?
  rw [stack]
  cases frame with
  | execute held => exact if_neg (apart rfl)
  | serve held call =>
    obtain ⟨service, effects, result⟩ := call
    cases effects with
    | nil =>
      cases result with
      | done => rfl
      | failed reason => rfl
      | panicked => exact if_neg (apart rfl)
    | cons effect effects => rfl
  | resume | perform | respond | record | deliver | tellNumber | tellText | lines | drain
  | advanceTo | leap => rfl

/-- What a stride shows of its run, with its moment. -/
def shownBy (s : Stride) : Option (Nat × Deed) :=
  s.demand.deed?.map fun d => (s.time, d)

/-- But for panics, the deed that a step is is that of **the stride** that it is. -/
theorem deed?_filter (id : Nat) :
    (w.deed? id).filter (fun d => !d.2.isPanic)
      = (w.stride?.filter fun s : Stride => s.run.id = id).bind shownBy := by
  cases stack : w.stack with
  | nil => simp [deed?, stride?, stack]
  | cons frame rest =>
    by_cases goes : frame.acts? = some id
    · cases frame with
      -- a stride shows what it demands, unless the run is gone
      | execute held =>
        obtain rfl := Option.some.inj goes
        rw [stride?_of_execute stack, deed?, stack]
        dsimp only
        rw [if_pos rfl]
        cases found : w.run? held with
        | none => rfl
        | some r =>
          have mine := id_of_run? found
          rw [Option.bind_some, Option.map_some, Option.filter_some]
          have here : decide ((r.nextStride w.now w.calls).run.id = held) = true :=
            decide_eq_true mine
          rw [if_pos here, Option.bind_some, shownBy]
          show _ = (r.progress.next r.cancelled).1.deed?.map fun d => (w.now, d)
          cases (r.progress.next r.cancelled).1 <;> rfl
      | serve held call =>
        have silent : w.stride? = none := by rw [stride?, stack]
        rw [silent, deed?, stack]
        -- of all steps of a call only a panic shows, which is left out
        obtain ⟨service, effects, result⟩ := call
        cases effects with
        | nil =>
          cases result with
          | done => rfl
          | failed reason => rfl
          | panicked =>
            dsimp only
            split
            · cases w.run? id <;> rfl
            · rfl
        | cons effect effects => rfl
      | resume | perform | respond | record | deliver | tellNumber | tellText | lines | drain
      | advanceTo | leap => cases goes
    · rw [deed?_of_acts?_ne stack goes, stride?_filter_of_ne stack (by rintro rfl; exact goes rfl)]
      rfl

/-- But for panics, the deeds of a run are those **of its strides**. -/
theorem deedsOf_filter (moves : List Move) (id : Nat) :
    (w.deedsOf exec moves id).filter (fun d => !d.2.isPanic)
      = (w.stridesOf exec moves id).filterMap shownBy := by
  induction moves generalizing w with
  | nil => rfl
  | cons m moves ih =>
    have first : (w.deedsOf exec [m] id).filter (fun d => !d.2.isPanic)
        = (w.stridesOf exec [m] id).filterMap shownBy := by
      cases m with
      | receive s => rfl
      | step =>
        have through (o : Option Stride) : o.toList.filterMap shownBy = (o.bind shownBy).toList := by
          cases o with
          | none => rfl
          | some s => cases this : shownBy s <;> simp [this]
        rw [deedsOf_step, stridesOf_step, ← Option.toList_filter, deed?_filter, through]
    rw [deedsOf_cons, stridesOf_cons, List.filter_append, List.filterMap_append, first, ih]

/-! ## 3. One move -/

/-- A turn of a run that is **over** comes to nothing. -/
theorem runs_step_of_absent (exec : Executor) {frame : Frame} {rest : List Frame} {id : Nat}
    (stack : w.stack = frame :: rest) (run : frame.run? = some id) (gone : w.run? id = none) :
    (w.step exec).runs = w.runs := by
  let below : World := { w with stack := rest }
  have gone' : below.run? id = none := gone
  have taken : w.step exec = below.act exec frame := by rw [step, stack]
  rw [taken]
  cases frame with
  | execute held =>
    obtain rfl := Option.some.inj run
    show (below.execute exec held).runs = w.runs
    rw [execute, gone']
  | serve held call =>
    obtain rfl := Option.some.inj run
    show (below.serve held call).runs = w.runs
    unfold serve
    split
    · unfold endCall
      split
      · rfl
      · rfl
      · rw [gone']
    · rfl
    · dsimp only
      split
      · rfl
      · refine (List.map_congr_left fun r member => if_neg fun same => ?_).trans (List.map_id _)
        exact List.find?_eq_none.mp gone r member (decide_eq_true same)
  | resume task =>
    cases task with
    | timer index => cases run
    | run held =>
      obtain rfl := Option.some.inj run
      show (below.resumeRun held).runs = w.runs
      rw [resumeRun, gone']
  | perform | respond | record | deliver | tellNumber | tellText | lines | drain | advanceTo
  | leap => cases run

/-- Drains and moves of the clock leave **the runs** as they are. -/
theorem runs_step_of_clock (exec : Executor) {frame : Frame} {rest : List Frame}
    (stack : w.stack = frame :: rest)
    (clock : frame = .drain ∨ (∃ time, frame = .advanceTo time) ∨ ∃ ms, frame = .leap ms) :
    (w.step exec).runs = w.runs := by
  let below : World := { w with stack := rest }
  have taken : w.step exec = below.act exec frame := by rw [step, stack]
  have woken (v : World) : v.wakeDue.runs = v.runs := congrArg Ledger.runs (ledger_wakeDue v)
  rw [taken]
  rcases clock with rfl | ⟨time, rfl⟩ | ⟨ms, rfl⟩
  · show below.drain.runs = w.runs
    unfold drain
    split <;> rfl
  · show (below.advanceTo time).runs = w.runs
    unfold advanceTo
    split
    · split
      · exact woken _
      · rfl
    · rfl
  · exact woken _

/-- What goes on without any turn, **seen from one run**. -/
theorem Extends.runMove (ext : Extends w w') (numbered' : Numbered w') {id : Nat}
    (old : id < w.nextRun) : RunMove (w.run? id) [] (w'.run? id) := by
  cases there : w.run? id with
  | none =>
    rw [ext.run?_of_none old there]
    exact .absent
  | some r =>
    obtain ⟨cancelled, later⟩ := ext.run?_of_some numbered' there
    rw [later]
    exact .stays r cancelled

/-- A move that leaves the runs as they are. -/
theorem runMove_of_runs_eq (same : w'.runs = w.runs) (id : Nat) :
    RunMove (w.run? id) [] (w'.run? id) := by
  rw [World.run?, World.run?, same]
  exact .refl _

/-- **A turn**, seen from one run: its own, or another's. -/
theorem Numbered.runMove_turn (numbered : Numbered w) (numbered' : Numbered (w.step exec))
    {frame : Frame} {rest : List Frame} {mine : Nat} (stack : w.stack = frame :: rest)
    (run : frame.run? = some mine) (id : Nat) :
    RunMove (w.run? id) (w.stridesOf exec [.step] id) ((w.step exec).run? id) := by
  -- without the run its turn comes to nothing
  cases there : w.run? mine with
  | none =>
    have silent : w.stridesOf exec [.step] id = [] := by
      by_cases goes : frame = .execute id
      · subst goes
        obtain rfl := Option.some.inj run
        rw [stridesOf_step, stride?_of_execute stack, there]
        rfl
      · exact stridesOf_step_of_stack stack goes
    rw [silent]
    exact runMove_of_runs_eq (runs_step_of_absent exec stack run there) id
  | some r =>
    obtain rfl := id_of_run? there
    -- its own turn is a stride, a step of a call or a wake-up; another run is not touched
    have turned := turned_step exec numbered stack run (List.mem_of_find?_eq_some there)
    by_cases same : id = r.id
    · subst same
      rw [turned.run?_self numbered' (List.mem_of_find?_eq_some there) fun _ => Run.id_turn, there]
      cases frame with
      | execute held =>
        obtain rfl := Option.some.inj run
        rw [stridesOf_step_of_execute stack there]
        exact Run.runMove_stride exec w.now w.calls r
      | serve held call =>
        rw [stridesOf_step_of_stack stack (by rintro ⟨⟩)]
        exact Run.runMove_served w.now call
      | resume task =>
        rw [stridesOf_step_of_stack stack (by rintro ⟨⟩)]
        exact Run.runMove_resumed w.now
      | perform | respond | record | deliver | tellNumber | tellText | lines | drain | advanceTo
      | leap => cases run
    · have silent : w.stridesOf exec [.step] id = [] := by
        refine stridesOf_step_of_stack stack ?_
        rintro rfl
        exact same (Option.some.inj run)
      rw [silent, turned.run?_of_ne numbered' (fun _ => Run.id_turn) same]
      exact .refl _

/-- **Every move**, seen from one run. -/
theorem Sound.runMove (sound : Sound w) (exec : Executor) (m : Move) {id : Nat}
    (old : id < w.nextRun) :
    RunMove (w.run? id) (w.stridesOf exec [m] id) ((w.move exec m).run? id) := by
  have numbered' := (sound.move exec m).numbered
  cases m with
  | receive s => cases s <;> exact .refl _
  | step =>
    have elsewhere {frame : Frame} {rest : List Frame} (stack : w.stack = frame :: rest)
        (silent : frame.run? = none)
        (goes : RunMove (w.run? id) [] ((w.step exec).run? id)) :
        RunMove (w.run? id) (w.stridesOf exec [.step] id) ((w.step exec).run? id) := by
      rw [stridesOf_step_of_stack stack (by rintro rfl; cases silent)]
      exact goes
    cases stack : w.stack with
    | nil =>
      have still : w.stride? = none := by rw [stride?, stack]
      rw [stridesOf_step, still]
      show RunMove _ [] ((w.step exec).run? id)
      rw [step_idle exec w stack]
      exact .refl _
    | cons frame rest =>
      let below : World := { w with stack := rest }
      have taken : w.step exec = below.act exec frame := by rw [step, stack]
      cases frame with
      | execute | serve =>
        exact sound.toNumbered.runMove_turn numbered' stack rfl id
      | resume task =>
        cases task with
        | run held => exact sound.toNumbered.runMove_turn numbered' stack rfl id
        | timer index =>
          obtain ⟨u, same, -, -, -, acts⟩ := acts_tick below index
          have runs : u.run? id = w.run? id := by
            rw [World.run?, World.run?, show u.runs = w.runs from congrArg Ledger.runs same]
          have nextRun : u.nextRun = w.nextRun := congrArg Ledger.nextRun same
          have ticked : w.step exec = below.tick index := taken
          refine elsewhere stack rfl ?_
          rw [World.move, ticked] at numbered'
          rw [← runs, ticked]
          exact (extends_acts acts).runMove numbered' (nextRun ▸ old)
      | perform | respond | record | deliver | tellNumber | tellText | lines =>
        refine elsewhere stack rfl ?_
        rw [World.move, taken] at numbered'
        rw [taken]
        exact (extends_acts (acts_plain exec below rfl)).runMove numbered' old
      | drain =>
        exact elsewhere stack rfl (runMove_of_runs_eq (runs_step_of_clock exec stack (.inl rfl)) id)
      | advanceTo time =>
        exact elsewhere stack rfl
          (runMove_of_runs_eq (runs_step_of_clock exec stack (.inr (.inl ⟨time, rfl⟩))) id)
      | leap ms =>
        exact elsewhere stack rfl
          (runMove_of_runs_eq (runs_step_of_clock exec stack (.inr (.inr ⟨ms, rfl⟩))) id)

/-! ## 4. A history -/

/-- A run is **never cancelled** in a history. -/
def NeverCancelled (exec : Executor) (w : World) (moves : List Move) (id : Nat) : Prop :=
  ∀ past future, moves = past ++ future →
    ∀ r, (w.after exec past).run? id = some r → r.cancelled = false

/-- A run that is never cancelled **is not cancelled now**. -/
theorem NeverCancelled.head {m : Move} {moves : List Move} {id : Nat}
    (h : NeverCancelled exec w (m :: moves) id) {r : Run} (found : w.run? id = some r) :
    r.cancelled = false :=
  h [] (m :: moves) rfl r found

/-- A run that is never cancelled **is not cancelled later**, either. -/
theorem NeverCancelled.tail {m : Move} {moves : List Move} {id : Nat}
    (h : NeverCancelled exec w (m :: moves) id) : NeverCancelled exec (w.move exec m) moves id :=
  fun past future split => h (m :: past) future (by rw [split, List.cons_append])

/-- A run that is there has one of the numbers given out. -/
theorem Sound.lt_of_run? (sound : Sound w) {id : Nat} {r : Run} (found : w.run? id = some r) :
    id < w.nextRun := by
  rw [← id_of_run? found]
  exact sound.bounded r (List.mem_of_find?_eq_some found)

/-- **What every move keeps of a run** is kept along its course: of the strides taken so far and of
where the run stands, as long as what is asked of the run holds. -/
theorem Sound.course {P : List Stride → Option Run → Prop} {Q : Run → Prop} (sound : Sound w)
    {id : Nat} (old : id < w.nextRun) {moves : List Move}
    (always : ∀ past future, moves = past ++ future →
      ∀ r, (w.after exec past).run? id = some r → Q r)
    (kept : ∀ {taken more run later}, (∀ r ∈ run, Q r) → RunMove run more later → P taken run →
      P (taken ++ more) later)
    (taken : List Stride) (start : P taken (w.run? id)) :
    P (taken ++ w.stridesOf exec moves id) ((w.after exec moves).run? id) := by
  induction moves generalizing w taken with
  | nil =>
    rw [show w.stridesOf exec [] id = [] from rfl, List.append_nil]
    exact start
  | cons m moves ih =>
    rw [stridesOf_cons, ← List.append_assoc]
    refine ih (sound.of_moved (sound.move exec m))
      (Nat.lt_of_lt_of_le old (sound.move exec m).nextRun)
      (fun past future split => always (m :: past) future (by rw [split, List.cons_append])) _ ?_
    exact kept (fun r found => always [] (m :: moves) rfl r found) (sound.runMove exec m old) start

/-- The calls of a run are what its strides **demand**. -/
theorem calls_deedsOf (moves : List Move) (id : Nat) :
    (w.deedsOf exec moves id).filterMap (·.2.call?)
      = (w.stridesOf exec moves id).filterMap (·.demand.call?) := by
  have silent (deeds : List (Nat × Deed)) :
      (deeds.filter fun d => !d.2.isPanic).filterMap (·.2.call?)
        = deeds.filterMap (·.2.call?) := by
    rw [List.filterMap_filter]
    refine List.filterMap_congr fun d _ => ?_
    cases d.2 <;> rfl
  rw [← silent, deedsOf_filter, List.filterMap_filterMap]
  refine List.filterMap_congr fun s _ => ?_
  unfold shownBy
  cases s.demand <;> rfl

/-- **What a run that is not cancelled does** is the same all along its course: the calls made and
the calls left are the calls it had to make, and the summary to come is the same. -/
structure Undisturbed (p : Progress) (taken : List Stride) (later : Option Run) : Prop where
  /-- The calls made are the first of those it had to make; at the end there are no others. -/
  calls : ∃ left, p.callsLeft = taken.filterMap (·.demand.call?) ++ left
    ∧ (∀ r, later = some r → r.progress.callsLeft = left)
    ∧ ((∃ s ∈ taken, s.demand = .finish) → left = [])
  /-- The summary to come does not change. -/
  foreseen : ∀ r, later = some r → r.progress.foreseen = p.foreseen
  /-- It is the one at the end. -/
  summary : ∀ s ∈ taken, s.demand = .finish → s.run.progress.summary = p.foreseen
  /-- Who took the last stride is over. -/
  finished : (∃ s ∈ taken, s.demand = .finish) → later = none

/-- **One move** of a run that is not cancelled. -/
theorem Undisturbed.move {p : Progress} {taken more : List Stride} {run later : Option Run}
    (h : Undisturbed p taken run) (uncancelled : ∀ r ∈ run, r.cancelled = false)
    (move : RunMove run more later) : Undisturbed p (taken ++ more) later := by
  obtain ⟨⟨left, all, kept, closed⟩, foreseen, summary, finished⟩ := h
  -- what takes no stride and leaves the run where it stands
  have still (r r' : Run) (same : r'.progress = r.progress) (here : run = some r) :
      Undisturbed p (taken ++ []) (some r') := by
    rw [List.append_nil]
    refine ⟨⟨left, all, fun s found => ?_, closed⟩, fun s found => ?_, summary, fun last => ?_⟩
    · rw [← Option.some.inj found, same]
      exact kept r here
    · rw [← Option.some.inj found, same]
      exact foreseen r here
    · rw [here] at finished
      cases finished last
  cases move with
  | absent =>
    rw [List.append_nil]
    exact ⟨⟨left, all, by simp, closed⟩, by simp, summary, fun _ => rfl⟩
  | stays r cancelled => exact still r (r.marked cancelled) rfl rfl
  | waits r phase => exact still r { r with phase } rfl rfl
  | notices r cancelled =>
    rw [uncancelled r rfl] at cancelled
    cases cancelled
  | panics r =>
    rw [List.append_nil]
    exact ⟨⟨left, all, by simp, closed⟩, by simp, summary, fun _ => rfl⟩
  | strides r time calls phase unfinished =>
    have ready := uncancelled r rfl
    have stride : (r.nextStride time calls).demand = (r.progress.next false).1 := by
      rw [Run.nextStride, ready]
    have made := r.progress.callsLeft_next
    have going : ¬∃ s ∈ taken, s.demand = .finish := by rintro last; cases finished last
    have last : ¬∃ s ∈ taken ++ [r.nextStride time calls], s.demand = .finish := by
      rintro ⟨s, member, demand⟩
      rcases List.mem_append.mp member with before | new
      · exact going ⟨s, before, demand⟩
      · rw [List.mem_singleton.mp new, Run.nextStride] at demand
        exact unfinished demand
    refine ⟨⟨(r.progress.next false).2.callsLeft, ?_, fun s found => ?_, fun closed => absurd closed last⟩,
      fun s found => ?_, fun s member demand => absurd ⟨s, member, demand⟩ last,
      fun closed => absurd closed last⟩
    · rw [all, ← kept r rfl, made, List.filterMap_append, ← stride, List.append_assoc]
      cases call : (r.nextStride time calls).demand.call? <;> simp [call]
    · rw [← Option.some.inj found, ready]
    · rw [← Option.some.inj found, ready]
      exact r.progress.foreseen_next.trans (foreseen r rfl)
  | finishes r time calls nothing =>
    have none : r.progress.callsLeft = [] := Progress.callsLeft_of_agenda_nil nothing
    have stride : (r.nextStride time calls).demand = .finish := by
      rw [Run.nextStride, Progress.next_of_agenda_nil nothing]
    have left_eq : left = [] := (kept r rfl).symm.trans none
    refine ⟨⟨[], ?_, by simp, fun _ => rfl⟩, by simp, fun s member demand => ?_, fun _ => rfl⟩
    · rw [all, left_eq, List.filterMap_append]
      simp [stride, Demand.call?]
    · rcases List.mem_append.mp member with before | new
      · exact summary s before demand
      · rw [List.mem_singleton.mp new]
        exact (Progress.foreseen_of_agenda_nil nothing).symm.trans (foreseen r rfl)

/-- **The course of a run that is not cancelled**, along any history. -/
theorem Sound.undisturbed (sound : Sound w) {id : Nat} {r : Run} (found : w.run? id = some r)
    {moves : List Move} (uncancelled : NeverCancelled exec w moves id) :
    Undisturbed r.progress (w.stridesOf exec moves id) ((w.after exec moves).run? id) := by
  have start : Undisturbed r.progress [] (w.run? id) := by
    rw [found]
    refine ⟨⟨r.progress.callsLeft, rfl, fun s same => ?_, by simp⟩, fun s same => ?_, by simp,
      by simp⟩
    · rw [Option.some.inj same]
    · rw [Option.some.inj same]
  exact sound.course (sound.lt_of_run? found) uncancelled (fun here move h => h.move here move) [] start

/-- **Strides come to an end**: a run takes no more of them than there is to do, whether it is
cancelled or not. -/
theorem Sound.length_strides_le (sound : Sound w) {id : Nat} {r : Run}
    (found : w.run? id = some r) (moves : List Move) :
    (w.stridesOf exec moves id).length ≤ r.progress.weight + 1 := by
  let left : Option Run → Nat := fun run => run.elim 0 (·.progress.weight + 1)
  suffices h : (w.stridesOf exec moves id).length + left ((w.after exec moves).run? id)
      ≤ r.progress.weight + 1 by omega
  have start : ([] : List Stride).length + left (w.run? id) ≤ r.progress.weight + 1 := by simp [left, found]
  refine sound.course (Q := fun _ => True)
    (P := fun taken run => taken.length + left run ≤ r.progress.weight + 1)
    (sound.lt_of_run? found) (fun _ _ _ _ _ => trivial) (fun {taken more run later} _ move h => ?_) [] start
  rw [List.length_append]
  cases move with
  | absent => exact h
  | stays | waits => exact h
  | notices => exact h
  | panics => exact Nat.le_trans (by simp [left]) h
  | strides s time calls phase unfinished =>
    have less : (s.progress.next s.cancelled).2.weight < s.progress.weight := by
      refine Progress.weight_next_lt (fun nothing => unfinished ?_) s.cancelled
      rw [Progress.next_of_agenda_nil nothing]
    simp only [left, Option.elim_some, List.length_singleton] at h ⊢
    omega
  | finishes s time calls nothing =>
    simp only [left, Option.elim_some, Option.elim_none, List.length_singleton] at h ⊢
    omega

/-- A run keeps its **owner**. -/
theorem Sound.owner_course (sound : Sound w) {id : Nat} {r r' : Run} (found : w.run? id = some r)
    {moves : List Move} (later : (w.after exec moves).run? id = some r') : r'.owner = r.owner := by
  let kept : List Stride → Option Run → Prop := fun _ run => ∀ s ∈ run, s.owner = r.owner
  have start : kept [] (w.run? id) := by
    intro s here
    rw [found] at here
    rw [← Option.some.inj here]
  refine sound.course (P := kept) (Q := fun _ => True) (sound.lt_of_run? found)
    (fun _ _ _ _ _ => trivial) (fun _ move h => ?_) [] start r' later
  cases move with
  | absent | finishes | panics => rintro _ ⟨⟩
  | stays s | waits s | notices s | strides s =>
    intro s' here
    rw [← Option.some.inj here]
    exact h s rfl

/-- Places are **kept along a history**, with their rules. -/
theorem Sound.grows_after (sound : Sound w) (moves : List Move) : Grows w (w.after exec moves) := by
  induction moves generalizing w with
  | nil => exact Grows.refl w
  | cons m moves ih =>
    have moved := sound.move exec m
    exact moved.grows.trans (ih (sound.of_moved moved))

/-- A run of a rule in single or parallel mode is **never cancelled**. -/
theorem Sound.neverCancelled_of_mode (sound : Sound w) {id index generation : Nat} {r : Run}
    (found : w.run? id = some r) (owner : r.owner = .rule index generation) {held : Registration}
    (entry : w.held? index = some held) (mode : held.rule.mode ≠ .restart) (moves : List Move) :
    NeverCancelled exec w moves id := by
  rintro past future - r' later
  have grows : Grows w (w.after exec past) := sound.grows_after past
  obtain ⟨held', entry', rule, -⟩ := grows index held entry
  have sound' : Sound (w.after exec past) := sound.after past
  have tallies := sound'.tallies index held' entry'
  have token : r'.token? index = some ⟨r'.id, generation, r'.cancelled⟩ :=
    Run.token?_eq_some.mpr ⟨(sound.owner_course found later).trans owner, rfl, rfl⟩
  have member := mem_tokens.mpr ⟨r', List.mem_of_find?_eq_some later, token⟩
  refine Bool.eq_false_iff.mpr fun cancelled => ?_
  exact mode (rule ▸ ((tallies.cancelled _ member).mp cancelled).1)

end World

end RuleDispatch
