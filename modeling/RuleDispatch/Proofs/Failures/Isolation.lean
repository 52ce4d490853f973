import RuleDispatch.Proofs.Failures.Twins

/-! # Failures stay inside their run

A service call that fails is noted, and the run goes on as if it had not failed. A service call that
panics is the end of its run; to all others it is as if the call had returned and the run had stopped
then. Both are said of two histories at once, in which everything is the same but for what the failure
itself leaves behind.

* `World.SameButFailures`, `World.sameButFailures` — two histories that differ in which calls fail.
* `World.Stops`, `World.AsIfStopped` — a history with a panic, and one with a stop in its place.
* `World.Poised.asIfStopped` — a call that panics is to all others as one followed by a stop.
* `failures_stay_in_their_runs` — whatever becomes of a service call, the others do not notice. -/

namespace RuleDispatch

/-- Two executors **differ at most in which calls fail**: a call does the same before it returns, and
it panics in both or in none. -/
def Executor.SameButFailures (exec exec' : Executor) : Prop :=
  ∀ calls service data, (exec calls service data).effects = (exec' calls service data).effects
    ∧ (exec calls service data).result.hushed = (exec' calls service data).result.hushed

/-- Executors that differ in their failures only are the same **once these are hushed up**. -/
theorem Executor.SameButFailures.hushed {exec exec' : Executor} (same : exec.SameButFailures exec') :
    exec.hushed = exec'.hushed := by
  funext calls service data
  obtain ⟨effects, result⟩ := same calls service data
  simp only [Executor.hushed, effects, result]

namespace World

variable {exec exec' : Executor} {w : World} {id : Nat}

/-! ## 1. Calls that fail -/

/-- What is **the same in two histories** that differ in which calls fail. -/
structure SameButFailures (exec exec' : Executor) (w : World) (moves : List Move) : Prop where
  /-- Every run calls the same services at the same moments with the same data, and ends as it does. -/
  deeds : ∀ id, w.deedsOf exec moves id = w.deedsOf exec' moves id
  /-- The same rules are proposed for firing at the same moments, and the same ones get a run. -/
  decisions : w.decisions exec moves = w.decisions exec' moves
  /-- The same runs come to their end, with the same summaries. -/
  reports : w.reports exec moves = w.reports exec' moves
  /-- The same is recorded, but for the notes of calls that failed. -/
  log : (w.after exec moves).log.filter (fun e => !e.2.isFailure)
    = (w.after exec' moves).log.filter fun e => !e.2.isFailure
  /-- All else is the same, but for whether the calls under way are going to fail. -/
  world : (w.after exec moves).behind .hush = (w.after exec' moves).behind .hush

/-- **Whether calls fail** shows in the notes of it and nowhere else. -/
theorem sameButFailures (same : exec.SameButFailures exec') (w : World) (moves : List Move) :
    SameButFailures exec exec' w moves := by
  have unseen := unseen_hush exec w moves
  have unseen' := unseen_hush exec' w moves
  rw [same.hushed] at unseen
  have world := unseen.behind_after.trans unseen'.behind_after.symm
  exact
    { deeds := fun id => (unseen.deedsOf id).symm.trans (unseen'.deedsOf id)
      decisions := unseen.decisions.symm.trans unseen'.decisions
      reports := unseen.reports.symm.trans unseen'.reports
      log := congrArg World.log world
      world }

/-! ## 2. Calls that panic -/

/-- A call that panicked after some moves, and **the stop in its place**: as many steps as the run
takes to come to its end stand for the one in which it panics. -/
structure Stops (exec : Executor) (w : World) (id : Nat) (during later : List Move) (exec' : Executor)
    (w' : World) (steps : Nat) : Prop where
  /-- With the stop, too, nothing comes from outside while something is being done. -/
  orderly : Orderly exec' w' (Move.step :: during ++ List.replicate steps Move.step ++ later)
  /-- Until the call ends, the worlds are the same but for the run. -/
  before : ∀ past future, during = past ++ future →
    (w.after exec (.step :: past)).besides id = (w'.after exec' (.step :: past)).besides id
  /-- Then the run panics here and comes to its end there, at the same moment; nothing else goes on
  until it is over and its slot is told, and the worlds that are left are the same. -/
  closes : ∃ left, Closes exec (w.after exec (.step :: during)) id .panic 1 left
    ∧ Closes exec' (w'.after exec' (.step :: during)) id .finish steps left
  /-- All told, the histories are the same for all others. -/
  others : SameForOthers id exec w (Move.step :: during ++ .step :: later)
    exec' w' (Move.step :: during ++ List.replicate steps Move.step ++ later)
  /-- From then on all is the same, but for what was recorded of the end of the run. -/
  after : ∀ past future, later = past ++ future →
    (w.after exec (Move.step :: during ++ .step :: past)).unlogged
      = (w'.after exec' (Move.step :: during ++ List.replicate steps Move.step ++ past)).unlogged

/-- **As if the call had returned and been followed by a stop**: what comes of the world in which a run
makes a call that is going to panic, beside a world in which the call returns and the run is to stop
after it. -/
inductive AsIfStopped (exec : Executor) (w : World) (id : Nat) (exec' : Executor) (w' : World) :
    List Move → Prop where
  /-- The call is still under way. -/
  | underWay {future : List Move} (lasts : (w.after exec (.step :: future)).run? id ≠ none)
      (orderly : Orderly exec' w' (.step :: future))
      (others : SameForOthers id exec w (.step :: future) exec' w' (.step :: future)) :
      AsIfStopped exec w id exec' w' future
  /-- The call panicked on the way. -/
  | panicked {during later : List Move} {steps : Nat}
      (stops : Stops exec w id during later exec' w' steps) :
      AsIfStopped exec w id exec' w' (during ++ .step :: later)

/-- Twins whose run is closed show **the stop in place of the panic**. -/
theorem Twins.Closed.stops {during later : List Move} {steps : Nat} {w' : World}
    (twins : Twins.Closed exec w id during exec' w' steps)
    (orderly : Orderly exec w (Move.step :: during ++ .step :: later)) :
    Stops exec w id during later exec' w' steps := by
  have whole (past : List Move) : Move.step :: during ++ List.replicate 1 Move.step ++ past
      = Move.step :: during ++ .step :: past := by
    rw [List.append_assoc]
    rfl
  exact
    { orderly := twins.orderly (whole later ▸ orderly)
      before := fun past future split => by
        have unseen := twins.unseen
        rw [split] at unseen
        exact twins.toTwins.besides unseen.past
      closes := twins.closes
      others := whole later ▸ twins.others
      after := fun past _ _ => whole past ▸ (twins.after past).1 }

/-- **A call that panics** is to all others as one that returned, with a stop after it. -/
theorem Poised.asIfStopped (h : Poised w) (sound : Sound w) {future : List Move}
    (orderly : Orderly exec w (.step :: future)) {t : Nat} {service : String} {data : Json}
    (calls : w.deed? id = some (t, .call service data))
    (panics : (exec w.calls service data).result = .panicked) :
    AsIfStopped exec w id (exec.returning w.calls) (w.stopping id) future := by
  have twins := h.twins sound calls panics
  obtain ⟨doomed, made, old⟩ := sound.doom_of_call calls panics future
  obtain ⟨poised', orderly'⟩ := h.move sound exec orderly
  have sound' := sound.of_moved (sound.move exec .step)
  by_cases gone : ((w.step exec).after exec future).run? id = none
  · obtain ⟨during, later, t', rfl, ends⟩ := poised'.exists_panic sound' orderly' old doomed gone
    obtain ⟨doomed', -⟩ := sound.doom_of_call calls panics during
    obtain ⟨first, -⟩ := orderly_append.mp orderly'
    -- the run lasts until its call ends
    obtain ⟨_, _, r, stack, found⟩ := exists_of_panic ends
    obtain rfl := id_of_run? found
    have unseen := poised'.unseen_pardon sound' first old made doomed' (found ▸ nofun)
    obtain ⟨steps, left, panicked, finishes⟩ :=
      (poised'.after sound' first).exists_closes exec (exec.returning w.calls) stack found
    have twin := twins.behind_after unseen
    exact .panicked (Twins.Closed.stops ⟨twins, unseen, left, panicked, twin ▸ finishes⟩ orderly)
  · have unseen := poised'.unseen_pardon sound' orderly' old made doomed gone
    exact .underWay gone (twins.orderly unseen orderly) (twins.others unseen)

end World

/-! ## 3. Whatever becomes of a call -/

/-- **Failures stay in their runs.** Two executors that differ at most in which calls fail make
histories that are the same but for the notes of calls that failed: every run makes the same calls at
the same moments and ends in the same way, the same firings are decided, and the same summaries come of
them. And a call that panics is to all others as a call that returned and was followed by a stop: until
it ends the worlds are the same but for its run, the slot is told at the same point, and the other runs
and all firings, then and later, are the same. -/
theorem failures_stay_in_their_runs :
    (∀ exec exec' : Executor, exec.SameButFailures exec' →
      ∀ (w : World) (moves : List Move), World.SameButFailures exec exec' w moves)
    ∧ ∀ (exec : Executor) (wallClock : Timestamp) (past : List Move) (w : World),
      w = (World.empty wallClock).after exec past →
      ∀ (id t : Nat) (service : String) (data : Json), w.deed? id = some (t, .call service data) →
      (exec w.calls service data).result = .panicked →
      ∀ future : List Move, Orderly exec (.empty wallClock) (past ++ .step :: future) →
      w.AsIfStopped exec id (exec.returning w.calls) (w.stopping id) future := by
  refine ⟨fun exec exec' same => World.sameButFailures same, ?_⟩
  rintro exec wallClock past w rfl id t service data calls panics future orderly
  obtain ⟨before, on⟩ := orderly_append.mp orderly
  exact (World.Poised.after (World.poised_empty wallClock) (World.sound_empty wallClock)
    before).asIfStopped ((World.sound_empty wallClock).after past) on calls panics

/-- The first call ends as it may, and all others return. -/
def firstCall (result : CallResult) : Executor := fun calls _ _ =>
  if calls = 0 then { result } else {}

/-- The light is switched on, and triggered once more later on. -/
theorem failures_stay_in_their_runs_light :
    let past := Move.played (.operation (.register (some (nightLight .single)))) 1
      ++ Move.played (.operation (.trigger "light")) 1 ++ Move.played (.advance 10) 7
    let future := List.replicate 10 Move.step ++ Move.played (.operation (.trigger "light")) 1
    (World.empty .first).SameButFailures (firstCall (.failed "dark")) (firstCall .done)
        (past ++ .step :: future)
      ∧ let w := (World.empty .first).after (firstCall .panicked) past
        w.AsIfStopped (firstCall .panicked) 0 ((firstCall .panicked).returning w.calls) (w.stopping 0)
          future := by
  intro past future
  obtain ⟨failing, panicking⟩ := failures_stay_in_their_runs
  refine ⟨failing _ _ (fun calls service data => ?_) _ _, ?_⟩
  · unfold firstCall
    split_ifs <;> exact ⟨rfl, rfl⟩
  · have before : Orderly (firstCall .panicked) (.empty .first) past :=
      orderly_append.mpr ⟨orderly_append.mpr ⟨orderly_played rfl _ _, orderly_played rfl _ _⟩,
        orderly_played rfl _ _⟩
    have on : Orderly (firstCall .panicked) ((World.empty .first).after (firstCall .panicked) past)
        (List.replicate 11 .step ++ Move.played (.operation (.trigger "light")) 1) :=
      orderly_append.mpr ⟨orderly_replicate _ _ _, orderly_played (by cbv) _ _⟩
    have orderly : Orderly (firstCall .panicked) (.empty .first) (past ++ .step :: future) :=
      orderly_append.mpr ⟨before, on⟩
    exact panicking _ .first past _ rfl 0 5 "on" .null (by cbv) (by cbv) future orderly

end RuleDispatch
