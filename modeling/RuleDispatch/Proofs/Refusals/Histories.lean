import RuleDispatch.Proofs.Refusals.Strides

/-! # Calls that are refused do nothing

A run that makes calls that are refused does what it does without them. Its histories and those of the run in
which the calls are replaced by actions that are not understood match: the same comes from outside, and
they lead to worlds that are the same but for the number of calls and the records of the refused ones. A call
that is accepted gives one notice.

* `MoreRefusals` — what was recorded, with the refused calls and without them.
* `World.SameButRefusals` — worlds that are the same but for calls that were refused.
* `World.Matches` — histories in which the same happens.
* `World.SameButRefusals.exists_matches`, `World.SameButRefusals.exists_matches_of_muted` — every history
  matches one of the other world.
* `World.WritesOnce` — a call that is accepted.
* `World.refused_calls_do_nothing` — what comes of calls that are refused, and of those that are accepted. -/

namespace RuleDispatch

/-! ## 1. What was recorded -/

/-- The end of a run **with so many calls more**. -/
inductive Entry.CountsMore (n : Nat) : Entry → Entry → Prop where
  /-- A run with a label records its summary. -/
  | summary (label : String) (s : Summary) : CountsMore n (.summary label (s.ahead n)) (.summary label s)
  /-- The end of a run of a rule is noted with its summary. -/
  | finished (rule : String) (s : Summary) :
      CountsMore n (.note (.runFinished rule (s.ahead n))) (.note (.runFinished rule s))

/-- What was recorded **with so many calls that were refused**, and the same without them. With them there are
the call and the note of its failure, one right after the other, and more calls at the end of the run. -/
inductive MoreRefusals : Nat → List (Nat × Entry) → List (Nat × Entry) → Prop where
  /-- At first nothing was recorded. -/
  | none : MoreRefusals 0 [] []
  /-- The same was recorded in both. -/
  | both {n : Nat} {log log' : List (Nat × Entry)} (entry : Nat × Entry) (before : MoreRefusals n log log') :
      MoreRefusals n (entry :: log) (entry :: log')
  /-- One call more was refused. -/
  | refused {n time : Nat} {log log' : List (Nat × Entry)} {service : String} {data : Json}
      {e : Service.PayloadError} (refuses : Service.Refuses service data e)
      (before : MoreRefusals n log log') :
      MoreRefusals (n + 1)
        ((time, .note (.callFailed service e.message)) :: (time, .call service data) :: log) log'
  /-- The run came to its end. -/
  | ended {n time : Nat} {log log' : List (Nat × Entry)} {entry entry' : Entry}
      (counts : entry.CountsMore n entry') (before : MoreRefusals n log log') :
      MoreRefusals n ((time, entry) :: log) ((time, entry') :: log')

/-- What was recorded holds **no call more than itself**. -/
theorem MoreRefusals.refl (log : List (Nat × Entry)) : MoreRefusals 0 log log := by
  induction log with
  | nil => exact .none
  | cons entry log ih => exact .both entry ih

/-- What is recorded **since then** is the same in both. -/
theorem MoreRefusals.append {n : Nat} {log log' : List (Nat × Entry)} (h : MoreRefusals n log log')
    (since : List (Nat × Entry)) : MoreRefusals n (since ++ log) (since ++ log') := by
  induction since with
  | nil => exact h
  | cons entry since ih => exact .both entry ih

/-- What **comes from outside** with a move. -/
def Move.stimulus? : Move → Option Stimulus
  | .step => none
  | .receive s => some s

namespace World

variable {w w' : World} {id n : Nat}

/-- The end of a run that has made more calls **counts them**. -/
theorem countsMore_ending (w : World) (r : Run) (n : Nat) :
    (w.ending (r.against (.ahead r.id n))).CountsMore n (w.ending r) := by
  have summary : (r.against (.ahead r.id n)).progress.summary = r.progress.summary.ahead n :=
    congrArg Progress.summary (Progress.against_ahead r.id n r.progress)
  unfold ending
  rw [summary, Run.owner_against]
  cases r.owner with
  | rule index generation => exact .finished _ _
  | label label => exact .summary _ _

/-! ## 2. Worlds that are the same but for calls that were refused -/

/-- **The same but for calls that were refused**: one run has made so many of them here; there it has other
actions in their place. -/
structure SameButRefusals (id n : Nat) (w w' : World) : Prop where
  /-- All else is the same: what is stored, who listens, the rules, the runs, what is being done. Of the run
  itself, this is whether it halted and was cancelled, its iterations, and what it waits for. -/
  world : ∃ f, Mutes f ∧ (w.against (.editing id f)).unlogged = (w'.against (.ahead id n)).unlogged
  /-- The same was recorded at the same times, but for these calls. -/
  log : MoreRefusals n w.log w'.log

/-- **One step** of worlds that differ in what was recorded before. -/
theorem step_of_unlogged_eq (exec : Executor) (same : w.unlogged = w'.unlogged) :
    (w.step exec).unlogged = (w'.step exec).unlogged
      ∧ ∃ since, (w.step exec).log = since ++ w.log ∧ (w'.step exec).log = since ++ w'.log :=
  after_of_unlogged_eq same (fun _ _ => rfl) [.step]

/-- What a step of a world leads to when one run has made more calls, **beside the step without them**. -/
theorem beside_step_ahead (begun : id < w.nextRun) (busy : w.stack ≠ []) (n : Nat) :
    ((w.against (.ahead id n)).step Service.executor).unlogged
        = ((w.step Service.executor).against (.ahead id n)).unlogged
      ∧ ∀ since log, ((w.against (.ahead id n)).step Service.executor).log = since ++ w.log →
          MoreRefusals n log w.log → MoreRefusals n (since ++ log) (w.step Service.executor).log := by
  rcases step_against_ahead n begun busy with same | ⟨r, rfl, ends⟩
  · refine ⟨by rw [same], fun since log later before => ?_⟩
    rw [← same, log_against_ahead] at later
    rw [later]
    exact before.append since
  · refine ⟨ends.world, fun since log later before => ?_⟩
    -- nothing but the end is recorded, and it counts the calls
    have one : since = [(w.now, w.ending (r.against (.ahead r.id n)))] :=
      List.append_cancel_right (later.symm.trans ends.log')
    rw [one, ends.log]
    exact .ended (countsMore_ending w r n) before

namespace SameButRefusals

/-- The same is **being done** in both. -/
theorem stack (h : SameButRefusals id n w w') : w.stack = w'.stack := by
  obtain ⟨f, -, same⟩ := h.world
  have both : w.stack ++ [] = w'.stack ++ [] := congrArg World.stack same
  rwa [List.append_nil, List.append_nil] at both

/-- **Nothing is being done** in one if it is so in the other. -/
theorem isIdle (h : SameButRefusals id n w w') : w.isIdle = w'.isIdle := by
  rw [World.isIdle, World.isIdle, h.stack]

/-- What comes from outside is **taken up in the same way**. -/
theorem receive (h : SameButRefusals id n w w') (s : Stimulus) :
    SameButRefusals id n (w.receive s) (w'.receive s) := by
  obtain ⟨f, mutes, same⟩ := h.world
  have unlogged_receive (u : World) : (u.receive s).unlogged = u.unlogged.receive s := by
    cases s <;> rfl
  have log_receive (u : World) : (u.receive s).log = u.log := by
    cases s <;> rfl
  constructor
  · refine ⟨f, mutes, ?_⟩
    rw [against_receive, against_receive, unlogged_receive, unlogged_receive, same]
  · rw [log_receive, log_receive]
    exact h.log

/-- **One step** without muted actions, and the step that it is with them: either the next step is the same, or
two steps are one. -/
theorem step (h : SameButRefusals id n w w') (begun : id < w.nextRun) :
    SameButRefusals id n (w.step Service.executor) (w'.step Service.executor)
      ∨ (w.step Service.executor).isIdle = false ∧ SameButRefusals id (n + 1)
          ((w.step Service.executor).step Service.executor) (w'.step Service.executor) := by
  by_cases idle : w.stack = []
  · -- nothing happens in either
    rw [step_idle _ w idle, step_idle _ w' (h.stack ▸ idle)]
    exact .inl h
  obtain ⟨f, mutes, same⟩ := h.world
  have begun' : id < w'.nextRun := by
    have nextRun := congrArg (fun u : World => u.nextRun) same
    exact nextRun ▸ begun
  -- with muted actions there, and with more calls here, both are one world that takes one step
  obtain ⟨steps, since, log, log'⟩ := step_of_unlogged_eq Service.executor same
  obtain ⟨unheard, counts⟩ := beside_step_ahead begun' (h.stack ▸ idle) n
  have recorded := counts since w.log (log_against_ahead w' id n ▸ log') h.log
  rw [← log_against_editing w id f, ← log] at recorded
  cases stepMuted mutes begun idle with
  | @same g mutes' one =>
    refine .inl ⟨⟨g, mutes', ?_⟩, ?_⟩
    · rw [one, steps, unheard]
    · rwa [← one, log_against_editing] at recorded
  | @passes g mutes' service data e refuses busy two =>
    refine .inr ⟨busy, ⟨g, mutes', ?_⟩, ?_⟩
    · have alike := congrArg (fun u : World => u.against (.ahead id 1)) (steps.trans unheard)
      have again := congrArg unlogged (against_ahead_ahead (w'.step Service.executor) id n 1)
      rw [two]
      exact alike.trans again
    · have logs := congrArg World.log two
      rw [log_against_editing] at logs
      rw [logs]
      show MoreRefusals (n + 1) (_ :: _ :: World.log (World.against _ _)) _
      rw [log_against_ahead]
      exact .refused refuses recorded

end SameButRefusals

/-! ## 3. Histories in which the same happens -/

/-- Runs are **numbered on**. -/
theorem nextRun_le_step (exec : Executor) (w : World) : w.nextRun ≤ (w.step exec).nextRun := by
  have kind := stepKind exec w
  generalize w.firing? = firing, w.ending? = ended at kind
  cases kind with
  | @acts u _ same registrations store done =>
    have before : u.nextRun = w.nextRun := congrArg Ledger.nextRun same
    rw [← before]
    exact (extends_acts done).nextRun
  | refits done => exact done.nextRun.ge
  | ends member done => exact done.nextRun.ge

/-- Nothing from outside **starts a run** by itself. -/
theorem nextRun_receive (w : World) (s : Stimulus) : (w.receive s).nextRun = w.nextRun := by
  cases s <;> rfl

/-- Histories **match** when the same comes from outside, each time while nothing is being done, and the worlds
that they lead to are the same but for calls that were refused. -/
structure Matches (id : Nat) (w w' : World) (moves moves' : List Move) : Prop where
  /-- Nothing comes from outside while something is being done. -/
  orderly : Orderly Service.executor w moves
  orderly' : Orderly Service.executor w' moves'
  /-- The same comes from outside, in order. -/
  stimuli : moves.filterMap Move.stimulus? = moves'.filterMap Move.stimulus?
  /-- In the end the worlds are the same but for calls that were refused. -/
  same : ∃ n, SameButRefusals id n (w.after Service.executor moves) (w'.after Service.executor moves')

namespace Matches

variable {moves moves' : List Move}

/-- Histories match with **the same from outside** in front. -/
theorem receive {s : Stimulus} (idle : w.isIdle = true) (idle' : w'.isIdle = true)
    (later : Matches id (w.receive s) (w'.receive s) moves moves') :
    Matches id w w' (.receive s :: moves) (.receive s :: moves') where
  orderly := ⟨idle, later.orderly⟩
  orderly' := ⟨idle', later.orderly'⟩
  stimuli := congrArg (List.cons s) later.stimuli
  same := later.same

/-- Histories match with **a step in both** in front. -/
theorem step (later : Matches id (w.step Service.executor) (w'.step Service.executor) moves moves') :
    Matches id w w' (.step :: moves) (.step :: moves') where
  orderly := later.orderly
  orderly' := later.orderly'
  stimuli := later.stimuli
  same := later.same

/-- Histories match with **the same two steps** in front. -/
theorem pass (later : Matches id ((w.step Service.executor).step Service.executor)
      (w'.step Service.executor) moves moves') :
    Matches id w w' (.step :: .step :: moves) (.step :: moves') where
  orderly := later.orderly
  orderly' := later.orderly'
  stimuli := later.stimuli
  same := later.same

end Matches

namespace SameButRefusals

/-- Every history **with muted actions** matches one without. -/
theorem exists_matches_of_muted (h : SameButRefusals id n w w') (begun : id < w.nextRun)
    {moves' : List Move} (orderly : Orderly Service.executor w' moves') :
    ∃ moves, Matches id w w' moves moves' := by
  induction moves' generalizing w w' n with
  | nil => exact ⟨[], trivial, trivial, rfl, n, h⟩
  | cons m moves' ih =>
    cases m with
    | receive s =>
      obtain ⟨idle, later⟩ := orderly
      obtain ⟨moves, found⟩ := ih (h.receive s) ((nextRun_receive w s).symm ▸ begun) later
      exact ⟨_, found.receive (h.isIdle ▸ idle) idle⟩
    | step =>
      have begun₁ := begun.trans_le (nextRun_le_step Service.executor w)
      rcases h.step begun with one | ⟨-, two⟩
      · obtain ⟨moves, found⟩ := ih one begun₁ orderly
        exact ⟨_, found.step⟩
      · have begun₂ := begun₁.trans_le (nextRun_le_step Service.executor _)
        obtain ⟨moves, found⟩ := ih two begun₂ orderly
        exact ⟨_, found.pass⟩

/-- Every history **without muted actions** matches one with them, once a call that is being refused is
over. -/
theorem exists_matches (h : SameButRefusals id n w w') (begun : id < w.nextRun) {moves : List Move}
    (orderly : Orderly Service.executor w moves) :
    ∃ more ≤ 1, ∃ moves', Matches id w w' (moves ++ List.replicate more .step) moves' := by
  -- a call that is refused takes two moves at once
  induction length : moves.length using Nat.strong_induction_on generalizing moves w w' n with
  | _ k ih =>
    match moves with
    | [] => exact ⟨0, Nat.zero_le 1, [], trivial, trivial, rfl, n, h⟩
    | .receive s :: later =>
      obtain ⟨idle, orderly⟩ := orderly
      obtain ⟨more, few, moves', found⟩ := ih later.length (by simp [← length]) (h.receive s)
        ((nextRun_receive w s).symm ▸ begun) orderly rfl
      exact ⟨more, few, _, found.receive idle (h.isIdle ▸ idle)⟩
    | .step :: later =>
      have begun₁ := begun.trans_le (nextRun_le_step Service.executor w)
      rcases h.step begun with one | ⟨busy, two⟩
      · obtain ⟨more, few, moves', found⟩ := ih later.length (by simp [← length]) one begun₁ orderly rfl
        exact ⟨more, few, _, found.step⟩
      · have begun₂ := begun₁.trans_le (nextRun_le_step Service.executor _)
        match later with
        | [] =>
          refine ⟨1, le_rfl, [.step], ?_⟩
          exact Matches.pass ⟨trivial, trivial, rfl, n + 1, two⟩
        | .receive s :: later =>
          -- nothing comes from outside before the call is over
          rw [show (World.step _ w).isIdle = true from orderly.1] at busy
          cases busy
        | .step :: later =>
          have shorter : later.length < k := by
            simp only [← length, List.length_cons]
            omega
          obtain ⟨more, few, moves', found⟩ := ih later.length shorter two begun₂ orderly rfl
          exact ⟨more, few, _, found.pass⟩

end SameButRefusals

/-! ## 4. Runs with muted actions -/

/-- A run that begins with **muted actions** is the same but for calls that will be refused. -/
theorem sameButRefusals_spawn (fresh : ∀ r ∈ w.runs, r.id ≠ w.nextRun) (owner : Owner) (cancelled : Bool)
    {actions actions' : List Action} (muted : List.Forall₂ Action.Muted actions actions') :
    SameButRefusals w.nextRun 0 (w.spawn owner actions cancelled) (w.spawn owner actions' cancelled) := by
  obtain ⟨f, mutes, leaves⟩ := exists_mutes (.cons (.list muted) .nil)
  have others (s : Backdrop) (spares : ∀ id, id ≠ w.nextRun → s.Spares id) :
      w.runs.map (·.against s) = w.runs := by
    refine (List.map_congr_left fun r member => ?_).trans (List.map_id _)
    rw [Run.against, (spares r.id (fresh r member)).progress]
    rfl
  refine ⟨⟨f, mutes, ?_⟩, .refl _⟩
  unfold spawn against unlogged
  dsimp only
  rw [List.map_append, List.map_append, others _ fun _ => Backdrop.spares_editing f,
    others _ fun _ => Backdrop.spares_ahead 0]
  simp [Run.against, Progress.against, Progress.start, Backdrop.editing, Backdrop.ahead, leaves]

/-! ## 5. Calls that are accepted -/

variable {r : Run} {rest : List Frame} {service : String} {data : Json} {notice : Notice}

/-- A call **writes once**: three steps begin it, the last of which is its write. -/
structure WritesOnce (w : World) (r : Run) (rest : List Frame) (service : String) (notice : Notice) :
    Prop where
  /-- Before the third step nothing is written. -/
  before : ∀ steps ≤ 2, (w.after Service.executor (List.replicate steps .step)).store = w.store
  /-- The third step is the write. -/
  written : (w.after Service.executor (List.replicate 3 .step)).store
    = notice.edits.foldl Store.edit w.store
  /-- Those who listen are to be told then, and nothing is left to be done for the call. -/
  told : ∃ round : Frame, (w.after Service.executor (List.replicate 3 .step)).stack
      = round :: .respond .done :: .serve r.id ⟨service, [], .done⟩ :: rest
    ∧ round.isRound = true ∧ round.hearings = notice.calls w.bus w.store
  /-- Once they were told the run goes on, and nothing else is different. -/
  ends : ∀ u : World, u.stack = .serve r.id ⟨service, [], .done⟩ :: rest →
    u.step Service.executor = { u with stack := .execute r.id :: rest }

/-- A notice makes **its edits** in the store. -/
theorem store_tell (w : World) (notice : Notice) :
    (w.tell notice).store = notice.edits.foldl Store.edit w.store := by
  cases notice <;> rfl

/-- **A call that is accepted** writes once. -/
theorem StrideNext.writesOnce (h : StrideNext w r rest)
    (calls : (r.progress.next r.cancelled).1 = .call service data)
    (writes : Service.Writes service data notice) : WritesOnce w r rest service notice := by
  obtain ⟨op, reply, performs⟩ := writes.exists_reply
  have replies (calls : Nat) :
      Service.executor calls service data = { effects := [.act op false] } := reply
  let called : World :=
    { (World.modifyRun { w with stack := rest } r.id fun s =>
        { s with progress := (r.progress.next r.cancelled).2 }).record (.call service data) with
      calls := w.calls + 1 }
  have first : w.step Service.executor = called.push [.serve r.id ⟨service, [.act op false], .done⟩] := by
    rw [step_of_call _ h.stack h.found (Prod.ext calls rfl), callService, replies]
    rfl
  have second : (w.step Service.executor).step Service.executor
      = called.push [.perform op, .serve r.id ⟨service, [], .done⟩] := by
    rw [first]
    rfl
  have third : ((w.step Service.executor).step Service.executor).step Service.executor
      = (called.push [.respond .done, .serve r.id ⟨service, [], .done⟩]).tell notice := by
    rw [second]
    exact performs _
  refine ⟨fun steps few => ?_, ?_, ?_, fun u top => ?_⟩
  · obtain rfl | rfl | rfl : steps = 0 ∨ steps = 1 ∨ steps = 2 := by omega
    · rfl
    · show (w.step Service.executor).store = w.store
      rw [first]
      rfl
    · show ((w.step Service.executor).step Service.executor).store = w.store
      rw [second]
      rfl
  · refine (congrArg World.store third).trans ?_
    exact store_tell _ notice
  · obtain ⟨round, stack', isRound, hearings⟩ :=
      exists_stack_tell (called.push [.respond .done, .serve r.id ⟨service, [], .done⟩]) notice
    exact ⟨round, (congrArg World.stack third).trans stack', isRound, hearings⟩
  · rw [step, top]
    rfl

/-- **Calls that are refused do nothing.** A run of actions in which some calls that are refused are muted does
what it does without: each history has one that matches, in both directions. A call is refused exactly if its
payload is not accepted by a built-in service, and one that is accepted writes once, under the entity that the
payload names. -/
theorem refused_calls_do_nothing (w : World) (fresh : ∀ r ∈ w.runs, r.id ≠ w.nextRun) (owner : Owner)
    (cancelled : Bool) {actions muted : List Action} (mutes : List.Forall₂ Action.Muted actions muted) :
    (∀ moves, Orderly Service.executor (w.spawn owner actions cancelled) moves → ∃ more ≤ 1, ∃ moves',
        Matches w.nextRun (w.spawn owner actions cancelled) (w.spawn owner muted cancelled)
          (moves ++ List.replicate more .step) moves')
      ∧ (∀ moves', Orderly Service.executor (w.spawn owner muted cancelled) moves' → ∃ moves,
          Matches w.nextRun (w.spawn owner actions cancelled) (w.spawn owner muted cancelled) moves moves')
      ∧ (∀ service data, (∃ e, Service.Refuses service data e)
          ↔ service ∈ ["store.set_numeric", "store.set_string"]
            ∧ ∀ notice, ¬ Service.Writes service data notice)
      ∧ ∀ (u : World) (r : Run) (rest : List Frame) (service : String) (data : Json) (notice : Notice),
          StrideNext u r rest → (r.progress.next r.cancelled).1 = .call service data →
          Service.Writes service data notice → WritesOnce u r rest service notice := by
  have same := sameButRefusals_spawn fresh owner cancelled mutes
  have begun : w.nextRun < (w.spawn owner actions cancelled).nextRun := Nat.lt_succ_self _
  refine ⟨fun moves orderly => ?_, fun moves' orderly => ?_, fun service data => ?_, ?_⟩
  · exact same.exists_matches begun orderly
  · exact same.exists_matches_of_muted begun orderly
  · exact Service.exists_refuses_iff
  · intro u r rest service data notice next calls writes
    exact next.writesOnce calls writes

/-- A payload that is **accepted**: it names a lamp, and gives a number. -/
def lampPayload : Json :=
  .obj [("entity", .str "lamp"), ("value", .num (.real 1 (by decide)))]

/-- What may be done **in a hall**: a number is written without a payload twice, then one is written of the lamp,
and then there is a wait. -/
def lampActions : List Action :=
  [.repeatCount 2 [.serviceCall "store.set_numeric" .null],
    .serviceCall "store.set_numeric" lampPayload, .wait 5]

/-- The same with **the calls that are refused muted**. -/
def lampActionsMuted : List Action :=
  [.repeatCount 2 [.unknown],
    .serviceCall "store.set_numeric" lampPayload, .wait 5]

/-- The hall, in which a run of some actions **has begun**. -/
def begunHall (actions : List Action) : World :=
  hall.spawn (.label "a") actions false

/-- **Two calls are refused** and a third one is accepted, in a hall whose lamp is listened to: what follows is
matched without the refused ones, in both directions, and the third call writes the number once, of which the
listener is told. -/
theorem refused_calls_do_nothing_lamp :
    (∀ r ∈ hall.runs, r.id ≠ hall.nextRun)
      ∧ List.Forall₂ Action.Muted lampActions lampActionsMuted
      ∧ (∃ more ≤ 1, ∃ moves', Matches hall.nextRun (begunHall lampActions) (begunHall lampActionsMuted)
        (Move.played (.advance 5) 33 ++ List.replicate more .step) moves')
      ∧ (∃ moves, Matches hall.nextRun (begunHall lampActions) (begunHall lampActionsMuted) moves
        (Move.played (.advance 5) 33))
      ∧ (∀ notice, ¬ Service.Writes "store.set_numeric" .null notice)
      ∧ (∃ u r rest, u = (begunHall lampActions).after Service.executor (Move.played (.advance 5) 12)
        ∧ StrideNext u r rest ∧ WritesOnce u r rest "store.set_numeric" (.number "lamp" 1))
      ∧ ∃ u, u = (begunHall lampActions).after Service.executor (Move.played (.advance 5) 33)
        ∧ u.isIdle = true ∧ u.store.number? "lamp" = some 1 ∧ u.store.text? "state" = some "on" := by
  have fresh : ∀ r ∈ hall.runs, r.id ≠ hall.nextRun := by
    intro r member
    cases member
  have refuses : Service.Refuses "store.set_numeric" .null .missingEntity := rfl
  have mutes : List.Forall₂ Action.Muted lampActions lampActionsMuted :=
    .cons (.inside (.cons (.refused refuses) .nil)) (.cons (.same _) (.cons (.same _) .nil))
  obtain ⟨matched, matching, refused, accepted⟩ := refused_calls_do_nothing hall fresh (.label "a") false mutes
  have writes : Service.Writes "store.set_numeric" lampPayload (.number "lamp" 1) :=
    @Service.Writes.number _ "lamp" (.real 1 (by decide)) rfl rfl
  have next : ∃ r rest, StrideNext ((begunHall lampActions).after Service.executor (Move.played (.advance 5) 12))
      r rest ∧ (r.progress.next r.cancelled).1 = .call "store.set_numeric" lampPayload :=
    ⟨_, [.drain, .advanceTo 5, .respond .done], ⟨rfl, rfl⟩, rfl⟩
  refine ⟨fresh, mutes, matched _ (orderly_played rfl _ 33), matching _ (orderly_played rfl _ 33),
    ((refused _ _).mp ⟨_, refuses⟩).2, ?_, _, rfl, by decide +kernel⟩
  obtain ⟨r, rest, stride, calls⟩ := next
  exact ⟨_, r, rest, rfl, stride, accepted _ r rest _ _ _ stride calls writes⟩

end World

end RuleDispatch
