import RuleDispatch.Proofs.Runs.Outlook

/-! # A run follows its unrolling

A run of a list of actions that is left alone does what the list says with its repetitions written
out: it makes the calls before the first stop, in order, each when the waits and the calls before it
are over, and then comes to its end. When the clock is only ever advanced, this can be written down
as a timetable before the run begins.

* `timetable`, `schedule_eq_timetable` — the moments of a list without repetitions.
* `World.Begun`, `World.Spawned` — a run that waits for its first turn, not cancelled or maybe so.
* `World.Follows` — what the run does, and `World.Poised.punctual` when.
* `runs_follow_unrolling` — every run that is not cancelled does this. -/

namespace RuleDispatch

/-! ## 1. Timetables -/

/-- How long a **wait** lasts: as long as it says, but no longer than the longest sleep. -/
def waitSpan (ms : UInt64) : Nat :=
  min ms.toNat World.longestSleep

/-- How long a **service call** lasts: as long as its pauses together. -/
def Response.duration (r : Response) : Nat :=
  (r.pauses.map fun ms => min ms World.longestSleep).sum

/-- The **timetable** of actions that begin at some moment. Every call stands at the moment at which
the waits and the calls before it are over, and so does the end, which a stop brings at once. `span`
says how long waits last and `durations` how long the calls of the run last, of which `made` were
made before. -/
def timetable (span : UInt64 → Nat) (durations : Nat → Nat) :
    Nat → Nat → List Action → List (Nat × Deed)
  | time, _, [] => [(time, .finish)]
  | time, made, .serviceCall service data :: rest =>
    (time, .call service data) :: timetable span durations (time + durations made) (made + 1) rest
  | time, made, .wait ms :: rest => timetable span durations (time + span ms) made rest
  | time, _, .stop :: _ => [(time, .finish)]
  | time, made, .repeatCount _ _ :: rest => timetable span durations time made rest
  | time, made, .unknown :: rest => timetable span durations time made rest

section

variable {wake : Nat → Nat} {answers : Nat → Response} {time : Nat}

/-- Sleepers that wake up in time sleep **as long as they were to**. -/
theorem sleepUntil_of_exact (exact : ∀ d, time ≤ d → wake d = d) (ms : Nat) :
    sleepUntil wake time ms = time + min ms World.longestSleep := by
  unfold sleepUntil
  split_ifs with empty
  · rw [empty, Nat.zero_min, Nat.add_zero]
  · exact exact _ (Nat.le_add_right _ _)

/-- Where the clock is punctual, sleeps take **the sum of their lengths**. -/
theorem sleepThrough_of_exact (exact : ∀ d, time ≤ d → wake d = d) (sleeps : List Nat) :
    sleepThrough wake time sleeps
      = time + (sleeps.map fun ms => min ms World.longestSleep).sum := by
  induction sleeps generalizing time with
  | nil => rfl
  | cons ms rest ih =>
    have first := sleepUntil_of_exact exact ms
    have later : ∀ d, time + min ms World.longestSleep ≤ d → wake d = d :=
      fun d after => exact d (Nat.le_trans (Nat.le_add_right _ _) after)
    calc sleepThrough wake time (ms :: rest)
        = sleepThrough wake (sleepUntil wake time ms) rest := rfl
      _ = time + min ms World.longestSleep
            + (rest.map fun ms => min ms World.longestSleep).sum := by rw [first, ih later]
      _ = _ := by rw [List.map_cons, List.sum_cons, Nat.add_assoc]

/-- When sleepers wake up in time and no call panics, actions come to **what the timetable says**. -/
theorem schedule_eq_timetable (exact : ∀ d, time ≤ d → wake d = d)
    (returns : ∀ made, (answers made).panics = false) (made : Nat) (actions : List Action) :
    schedule wake answers time made actions
      = timetable waitSpan (fun made => (answers made).duration) time made actions := by
  induction actions generalizing time made with
  | nil => rfl
  | cons action rest ih =>
    -- whatever is later than now wakes up in time as well
    have later (span : Nat) : ∀ d, time + span ≤ d → wake d = d :=
      fun d after => exact d (Nat.le_trans (Nat.le_add_right _ _) after)
    cases action with
    | serviceCall service data =>
      have lasts : sleepThrough wake time (answers made).pauses = time + (answers made).duration :=
        sleepThrough_of_exact exact _
      simp only [schedule, timetable, returns made, lasts, ih (later _), Bool.false_eq_true, if_false]
    | wait ms =>
      have lasts : sleepUntil wake time ms.toNat = time + waitSpan ms :=
        sleepUntil_of_exact exact _
      simp only [schedule, timetable, lasts, ih (later _)]
    | stop => rfl
    | repeatCount => exact ih exact made
    | unknown => exact ih exact made

end

/-! ## 2. A run that begins -/

namespace World

variable {exec : Executor} {w w' : World}

/-- A run of some actions that **waits for its first turn**. -/
structure Begun (w : World) (id : Nat) (owner : Owner) (actions : List Action) : Prop where
  run : w.run? id = some { id, owner, progress := .start actions }
  queued : .run id ∈ w.ready

/-- A run of some actions that **waits for its first turn**, cancelled by now or not. -/
structure Spawned (w : World) (id : Nat) (owner : Owner) (actions : List Action) : Prop where
  run : ∃ cancelled, w.run? id = some { id, owner, progress := .start actions, cancelled }
  queued : .run id ∈ w.ready

/-- A run that begins was not cancelled so far. -/
theorem Begun.spawned {id : Nat} {owner : Owner} {actions : List Action}
    (begun : w.Begun id owner actions) : w.Spawned id owner actions :=
  ⟨⟨false, begun.run⟩, begun.queued⟩

/-- What a run that waits for its first turn is going to do is what its unrolling comes to, **whether
it was cancelled or not**. -/
theorem Poised.outlook_spawned (h : Poised w) {id : Nat} {owner : Owner} {actions : List Action}
    (spawned : w.Spawned id owner actions) (future : List Move) (answers : Nat → Response) :
    w.outlook future answers id
      = schedule (w.wakes future) answers w.now 0 (Action.unrollAll actions) := by
  obtain ⟨cancelled, run⟩ := spawned.run
  have idle : turnIn id w.stack = none :=
    turnIn_eq_none fun f member acts =>
      (h.turn f member id (Frame.run?_of_acts? acts)).1 spawned.queued
  rw [outlook, run, idle]
  show schedule _ _ _ _ (Progress.start actions).due = _
  rw [Progress.due_start]
  rfl

/-- When **the clock is only advanced**, everybody wakes up in time. -/
theorem wakes_of_advancing {future : List Move} (advancing : ∀ ms, .jump ms ∉ w.clockMoves future)
    {d : Nat} (h : w.now ≤ d) : w.wakes future d = d := by
  rw [wakes, wakeAt_eq_max advancing]
  exact Nat.max_eq_right h

/-- The record of a run that **came to its end**. -/
def reportOf (w : World) (owner : Owner) (summary : Summary) : Entry :=
  match owner with
  | .rule index _ => .note (.runFinished (w.ruleIdAt index) summary)
  | .label label => .summary label summary

/-- The last step of a run **records its summary**. -/
theorem log_step_of_finish (exec : Executor) {id t : Nat} (h : w.deed? id = some (t, .finish)) :
    ∃ r, w.run? id = some r ∧ w.stride? = some (r.nextStride w.now w.calls)
      ∧ (r.nextStride w.now w.calls).demand = .finish
      ∧ (w.step exec).log = (t, w.reportOf r.owner r.progress.summary) :: w.log := by
  -- only a stride shows that a run finishes
  have stack : ∃ rest, w.stack = .execute id :: rest := by
    unfold deed? at h
    split at h
    · next run rest stack =>
      split at h
      · next same => exact ⟨rest, same ▸ stack⟩
      · cases h
    · split at h
      · obtain ⟨_, -, same⟩ := Option.map_eq_some_iff.mp h
        cases same
      · cases h
    · cases h
  obtain ⟨rest, stack⟩ := stack
  rw [deed?, stack] at h
  dsimp only at h
  rw [if_pos rfl] at h
  obtain ⟨r, found, shown⟩ := Option.bind_eq_some_iff.mp h
  obtain ⟨d, demanded, same⟩ := Option.map_eq_some_iff.mp shown
  obtain ⟨rfl, rfl⟩ := Prod.mk.inj same
  have finish : (r.progress.next r.cancelled).1 = .finish := by
    cases demand : (r.progress.next r.cancelled).1 with
    | finish => rfl
    | nothing | call | wait | stop =>
      rw [demand] at demanded
      cases demanded
  -- a run finishes when nothing is left on its agenda
  have nothing : r.progress.agenda = [] := by
    by_contra left
    exact Progress.next_ne_finish left r.cancelled finish
  refine ⟨r, found, by rw [stride?_of_execute stack, found]; rfl, finish, ?_⟩
  have taken : w.step exec = execute { w with stack := rest } exec id := by rw [step, stack]; rfl
  have found' : run? { w with stack := rest } id = some r := found
  rw [taken, execute, found']
  dsimp only
  rw [Progress.next_of_agenda_nil nothing]
  dsimp only [meet, finishRun, reportOf]
  cases r.owner <;> rfl

/-! ## 3. What the run does -/

/-- What a run of some actions does **in whatever order things happen**, as long as it is not
cancelled. -/
structure Follows (w : World) (exec : Executor) (moves : List Move) (id : Nat) (owner : Owner)
    (actions : List Action) : Prop where
  /-- It makes the calls of its unrolling, in order, and all of them by its end. -/
  calls : ∃ left, Action.calls actions = (w.deedsOf exec moves id).filterMap (·.2.call?) ++ left
    ∧ ((∃ s ∈ w.stridesOf exec moves id, s.demand = .finish) → left = [])
  /-- It takes no more strides than there is to do. -/
  strides : (w.stridesOf exec moves id).length ≤ (Progress.start actions).weight + 1
  /-- Its last step records its summary. -/
  summary : ∀ past future t, moves = past ++ .step :: future →
    (w.after exec past).deed? id = some (t, .finish) →
    ((w.after exec past).step exec).log
      = (t, (w.after exec past).reportOf owner (Action.summary actions)) :: (w.after exec past).log

/-- A run that is not cancelled **follows its unrolling**. -/
theorem Sound.follows (sound : Sound w) {moves : List Move} {id : Nat} {owner : Owner}
    {actions : List Action} (begun : w.Begun id owner actions)
    (uncancelled : NeverCancelled exec w moves id) : w.Follows exec moves id owner actions := by
  have course := sound.undisturbed begun.run uncancelled
  obtain ⟨left, all, -, closed⟩ := course.calls
  refine ⟨⟨left, ?_, closed⟩, sound.length_strides_le begun.run moves, ?_⟩
  · rw [calls_deedsOf, ← Progress.callsLeft_start]
    exact all
  · rintro past future t rfl finish
    obtain ⟨r, found, stride, demand, log⟩ := log_step_of_finish exec finish
    have owner_eq : r.owner = owner := sound.owner_course begun.run found
    have taken : r.nextStride (w.after exec past).now (w.after exec past).calls
        ∈ w.stridesOf exec (past ++ .step :: future) id := by
      refine List.mem_filter.mpr ⟨?_, decide_eq_true (id_of_run? found)⟩
      rw [strides, shown_append]
      refine List.mem_append_right _ (List.mem_append_left _ ?_)
      rw [stride]
      exact List.mem_singleton_self _
    have summary : r.progress.summary = Action.summary actions :=
      (course.summary _ taken demand).trans (Progress.foreseen_start actions)
    rw [log, owner_eq, summary]

/-- A run that begins does so **at the moments to which its actions come**. -/
theorem Poised.punctual (h : Poised w) (sound : Sound w) {moves : List Move}
    (orderly : Orderly exec w moves) {id : Nat} {owner : Owner} {actions : List Action}
    (begun : w.Begun id owner actions) (uncancelled : NeverCancelled exec w moves id)
    {answers : Nat → Response}
    (answered : ∀ s ∈ w.stridesOf exec moves id, s.Answered exec answers) :
    w.Punctual exec moves id
      (schedule (w.wakes moves) answers w.now 0 (Action.unrollAll actions)) := by
  rw [← h.outlook_spawned begun.spawned]
  exact h.punctual_outlook sound orderly (sound.lt_of_run? begun.run) uncancelled answered

/-- While the clock is only advanced these are **the moments of the timetable**. -/
theorem schedule_wakes {moves : List Move} (advancing : ∀ ms, .jump ms ∉ w.clockMoves moves)
    {answers : Nat → Response} (returns : ∀ made, (answers made).panics = false)
    (actions : List Action) :
    schedule (w.wakes moves) answers w.now 0 actions
      = timetable waitSpan (fun made => (answers made).duration) w.now 0 actions :=
  schedule_eq_timetable (fun _ => wakes_of_advancing advancing) returns 0 actions

end World

/-! ## 4. Every run -/

/-- **Runs follow the unrolling of their actions.** Whatever else goes on, a run of some actions that
is not cancelled makes the calls of its unrolling up to the first stop, in order, and its last step
records how many these were, how many iterations were begun, and whether there was a stop. In an
orderly history it makes them at the moments to which its waits and its calls come; while the clock is
only advanced and the calls return, these are the moments at which the waits and the calls before
them are over. -/
theorem runs_follow_unrolling (exec : Executor) (wallClock : Timestamp) (past moves : List Move)
    (w : World) (reached : w = (World.empty wallClock).after exec past) (id : Nat) (owner : Owner)
    (actions : List Action) (begun : w.Begun id owner actions)
    (uncancelled : World.NeverCancelled exec w moves id) :
    w.Follows exec moves id owner actions
    ∧ (Orderly exec (.empty wallClock) (past ++ moves) → ∀ answers : Nat → Response,
      (∀ s ∈ w.stridesOf exec moves id, s.Answered exec answers) →
      w.Punctual exec moves id
        (schedule (w.wakes moves) answers w.now 0 (Action.unrollAll actions)))
    ∧ ((∀ ms, .jump ms ∉ w.clockMoves moves) → ∀ answers : Nat → Response,
      (∀ made, (answers made).panics = false) →
      schedule (w.wakes moves) answers w.now 0 (Action.unrollAll actions)
        = timetable waitSpan (fun made => (answers made).duration) w.now 0
          (Action.unrollAll actions)) := by
  have sound : World.Sound w := reached ▸ (World.sound_empty wallClock).after past
  refine ⟨sound.follows begun uncancelled, fun orderly answers answered => ?_,
    fun advancing answers returns => World.schedule_wakes advancing returns _⟩
  obtain ⟨before, after⟩ := orderly_append.mp orderly
  rw [← reached] at after
  have poised : World.Poised w :=
    reached ▸ (World.poised_empty wallClock).after (World.sound_empty wallClock) before
  exact poised.punctual sound after begun uncancelled answered

/-- A light that waits a little, and is then turned on. -/
theorem runs_follow_unrolling_light :
    ((World.empty .first).after noEffects
        (Move.played (.operation (.register (some (nightLight .single)))) 1
          ++ Move.played (.operation (.trigger "light")) 1)).deedsOf noEffects
      (Move.played (.advance 10) 14) 0
    = [(5, .call "on" .null), (5, .finish)] := by
  have follows := runs_follow_unrolling noEffects .first
    (Move.played (.operation (.register (some (nightLight .single)))) 1
      ++ Move.played (.operation (.trigger "light")) 1)
    (Move.played (.advance 10) 14) _ rfl 0 (.rule 0 1) (nightLight .single).actions
    ⟨rfl, List.mem_singleton_self _⟩
    (World.Sound.neverCancelled_of_mode ((World.sound_empty .first).after _) rfl rfl rfl
      (by decide) _)
  have orderly : Orderly noEffects (.empty .first)
      ((Move.played (.operation (.register (some (nightLight .single)))) 1
        ++ Move.played (.operation (.trigger "light")) 1) ++ Move.played (.advance 10) 14) :=
    orderly_append.mpr ⟨orderly_append.mpr ⟨orderly_played rfl _ _, orderly_played rfl _ _⟩,
      orderly_played rfl _ _⟩
  have timetable_eq := follows.2.2 (fun ms jumps => ?_) (fun _ => ⟨[], false⟩) fun _ => rfl
  · have punctual := follows.2.1 orderly (fun _ => ⟨[], false⟩) (fun _ _ _ _ _ => rfl)
    rw [timetable_eq] at punctual
    exact (punctual.rest ⟨by cbv, by cbv⟩).trans (by cbv)
  · have clock : ClockMove.jump ms ∈ [.advance 10] := jumps
    cases List.mem_singleton.mp clock

/-- A wait of more than thirty years is **over after thirty years**: what comes next is done before
the moment that the waits written down add up to. -/
theorem long_waits_end_early :
    ¬ ((World.empty .first).after noEffects
        (Move.played (.operation (.run "a"
          (some [.wait 946080000001, .serviceCall "x" .null]))) 1)).deedsOf noEffects
      (Move.played (.advance 946080000000) 14) 0
      <+: timetable UInt64.toNat (fun _ => 0) 0 0
        (Action.unrollAll [.wait 946080000001, .serviceCall "x" .null]) := by
  have early : ((World.empty .first).after noEffects
        (Move.played (.operation (.run "a"
          (some [.wait 946080000001, .serviceCall "x" .null]))) 1)).deedsOf noEffects
      (Move.played (.advance 946080000000) 14) 0
    = [(946080000000, .call "x" .null), (946080000000, .finish)] := by cbv
  have written : timetable UInt64.toNat (fun _ => 0) 0 0
      (Action.unrollAll [.wait 946080000001, .serviceCall "x" .null])
    = [(946080000001, .call "x" .null), (946080000001, .finish)] := rfl
  rw [early, written]
  intro begins
  cases (List.cons_prefix_cons.mp begins).1

end RuleDispatch
