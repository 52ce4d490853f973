import RuleDispatch.Proofs.Runs.Prospect
import RuleDispatch.Proofs.Slots.Restart

/-! # What remains of a run that was cancelled

A run that was cancelled has one thing left to do: to come to its end. A wait does not hold it up,
since cancelling wakes who waits, and the clock does not move before whoever is awake had a turn. Only
a service call that is pending does, until it returns.

* `World.Prompt` — who is cancelled in a wait is awake; `World.Prompt.move`: in orderly histories.
* `Run.remains`, `World.remains` — the one deed that is left, and its moment.
* `World.Prompt.punctual_remains` — it is done at that moment. -/

namespace RuleDispatch

/-! ## 1. Nobody who is cancelled stays asleep -/

/-- A turn leaves **a turn** to a run that is cancelled and in a wait. -/
theorem Run.exists_turn (exec : Executor) (now calls : Nat) {r later : Run} {frame : Frame}
    (run : frame.run? = some r.id) (found : (r.turn exec now calls frame).1 = some later)
    (cancelled : later.cancelled = true) (waits : later.inWait = true) :
    ∃ f ∈ (r.turn exec now calls frame).2, f.run? = some r.id := by
  cases frame with
  | execute id =>
    unfold turn stride at found ⊢
    dsimp only at found ⊢
    cases demand : (r.progress.next r.cancelled).1 with
    | nothing | stop => exact ⟨_, List.mem_singleton_self _, rfl⟩
    | call service data => exact ⟨_, List.mem_singleton_self _, rfl⟩
    | wait ms =>
      -- a run that is cancelled begins no wait
      rw [demand] at found
      dsimp only at found ⊢
      have marked : later.cancelled = r.cancelled := by
        split at found <;> rw [← Option.some.inj found]
      have silent := r.progress.begins_next_true
      rw [← cancelled, marked, demand] at silent
      cases silent
    | finish =>
      rw [demand] at found
      cases found
  | serve id call =>
    obtain ⟨service, effects, result⟩ := call
    unfold turn served at found ⊢
    match effects with
    | [] =>
      dsimp only at found ⊢
      split at found
      · cases found
      · next returns =>
        rw [if_neg returns]
        exact ⟨_, List.mem_singleton_self _, rfl⟩
    | .act op recorded :: rest =>
      exact ⟨_, List.mem_append_right _ (List.mem_singleton_self _), rfl⟩
    | .pause ms :: rest =>
      dsimp only at found ⊢
      split at found
      · next empty =>
        rw [if_pos empty]
        exact ⟨_, List.mem_singleton_self _, rfl⟩
      · -- a pause in a service call is no wait
        rw [← Option.some.inj found] at waits
        cases waits
  | resume task =>
    unfold turn resumed at found ⊢
    dsimp only at found ⊢
    cases phase : r.phase with
    | ready => exact ⟨_, List.mem_singleton_self _, rfl⟩
    | waiting deadline ms =>
      rw [phase] at found
      dsimp only at found ⊢
      -- the wait is over, or it is cut short since the run was cancelled
      by_cases due : deadline ≤ now
      · rw [if_pos due]
        exact ⟨_, List.mem_singleton_self _, rfl⟩
      · rw [if_neg due] at found ⊢
        by_cases mark : r.cancelled = true
        · rw [if_pos mark]
          exact ⟨_, List.mem_singleton_self _, rfl⟩
        · rw [if_neg mark] at found
          rw [← Option.some.inj found] at cancelled
          exact absurd cancelled mark
    | calling deadline call =>
      rw [phase] at found
      dsimp only at found ⊢
      by_cases due : deadline ≤ now
      · rw [if_pos due]
        exact ⟨_, List.mem_singleton_self _, rfl⟩
      · rw [if_neg due] at found
        rw [← Option.some.inj found, inWait, phase] at waits
        cases waits
  | perform | respond | record | deliver | tellNumber | tellText | lines | drain | advanceTo
  | leap => cases run

namespace World

variable {exec : Executor} {w w' : World}

/-- Who is **cancelled in a wait is awake**: it is ready or has its turn. -/
def Prompt (w : World) : Prop :=
  ∀ id r, w.run? id = some r → r.cancelled = true → r.inWait = true →
    .run id ∈ w.ready ∨ ∃ f ∈ w.stack, f.run? = some id

/-- In a world in which nothing happened yet nobody sleeps. -/
theorem prompt_empty (wallClock : Timestamp) : Prompt (empty wallClock) := by
  intro id r found
  cases found

/-- The runs, the queue and the turns are **all that matters**. -/
theorem Prompt.congr (h : Prompt w) (runs : w'.runs = w.runs)
    (ready : ∀ task ∈ w.ready, task ∈ w'.ready)
    (turns : ∀ f ∈ w.stack, f.run? ≠ none → f ∈ w'.stack) : Prompt w' := by
  intro id r found cancelled waits
  rw [run?, runs] at found
  rcases h id r found cancelled waits with queued | ⟨f, there, run⟩
  · exact .inl (ready _ queued)
  · exact .inr ⟨f, turns f there (by simp [run]), run⟩

/-- Something that is no run's turn is **taken off the stack**. -/
theorem Prompt.below (h : Prompt w) {frame : Frame} {rest : List Frame}
    (stack : w.stack = frame :: rest) (none : frame.run? = none) :
    Prompt { w with stack := rest } := by
  refine h.congr rfl (fun _ => id) fun f there run => ?_
  rw [stack] at there
  refine (List.mem_cons.mp there).resolve_left ?_
  rintro rfl
  exact run none

/-- What goes on without any turn **wakes whom it cancels**. -/
theorem Prompt.extends (h : Prompt w) (ext : Extends w w') : Prompt w' := by
  intro id r found cancelled waits
  obtain ⟨frames, -, stack⟩ := ext.stack
  rcases ext.roused id r found cancelled waits with before | queued
  · rcases h id r before cancelled waits with queued | ⟨f, there, run⟩
    · exact .inl (ext.ready _ queued)
    · exact .inr ⟨f, stack ▸ List.mem_append_right _ there, run⟩
  · exact .inl queued

/-- Before a turn, whoever else is awake **is ready**. -/
theorem Prompt.ready_of_ne (h : Prompt w) (poised : Poised w) {frame : Frame} {rest : List Frame}
    {id other : Nat} (stack : w.stack = frame :: rest) (run : frame.run? = some other)
    (apart : id ≠ other) {r : Run} (found : w.run? id = some r) (cancelled : r.cancelled = true)
    (waits : r.inWait = true) : .run id ∈ w.ready := by
  rcases h id r found cancelled waits with queued | ⟨f, there, mine⟩
  · exact queued
  · rw [stack] at there
    rcases List.mem_cons.mp there with rfl | below
    · rw [run] at mine
      exact absurd (Option.some.inj mine).symm apart
    · rw [poised.run?_below stack run f below] at mine
      cases mine

/-- **A turn** keeps everybody awake who was cancelled. -/
theorem Prompt.step_turn (h : Prompt w) (poised : Poised w) (sound : Sound w) (exec : Executor)
    {frame : Frame} {rest : List Frame} {id : Nat} (stack : w.stack = frame :: rest)
    (run : frame.run? = some id) : Prompt (w.step exec) := by
  have numbered' := (sound.move exec .step).numbered
  obtain ⟨-, r, member, rfl, -⟩ := poised.turn frame (stack ▸ List.mem_cons_self) id run
  have turned := turned_step exec sound.toNumbered stack run member
  intro other r' found cancelled waits
  by_cases mine : other = r.id
  · -- its turn leaves it another one
    subst mine
    rw [turned.run?_self numbered' member fun _ => Run.id_turn] at found
    obtain ⟨f, there, turn⟩ := Run.exists_turn exec w.now w.calls run found cancelled waits
    exact .inr ⟨f, turned.stack ▸ List.mem_append_left _ there, turn⟩
  · -- the others are where they were, and nobody else had a turn
    rw [turned.run?_of_ne numbered' (fun _ => Run.id_turn) mine] at found
    exact .inl (turned.ready ▸ h.ready_of_ne poised stack run mine found cancelled waits)

/-- **Giving a turn** keeps everybody awake who was. -/
theorem Prompt.step_drain (h : Prompt w) (exec : Executor) {rest : List Frame}
    (stack : w.stack = .drain :: rest) : Prompt (w.step exec) := by
  cases queue : w.ready with
  | nil =>
    rw [step_drain_of_nil exec stack queue]
    exact h.below stack rfl
  | cons task tasks =>
    rw [step_drain_of_cons exec stack queue]
    intro id r found cancelled waits
    rcases h id r found cancelled waits with queued | ⟨f, there, run⟩
    · rw [queue] at queued
      rcases List.mem_cons.mp queued with rfl | later
      · exact .inr ⟨_, List.mem_cons_self, rfl⟩
      · exact .inl later
    · exact .inr ⟨f, List.mem_cons_of_mem _ (stack ▸ there), run⟩

/-- While **the clock** comes next, nobody who was cancelled is in a wait. -/
theorem Prompt.inWait_of_clocked (h : Prompt w) (clock : Clocked w.stack) (queue : w.ready = [])
    {id : Nat} {r : Run} (found : w.run? id = some r) (cancelled : r.cancelled = true) :
    r.inWait = false := by
  by_contra waits
  rcases h id r found cancelled (eq_true_of_ne_false waits) with queued | ⟨f, there, run⟩
  · rw [queue] at queued
    cases queued
  · rw [clock.run?_eq_none f there] at run
    cases run

/-- **Every step** keeps everybody awake who is cancelled in a wait. -/
theorem Prompt.step (h : Prompt w) (poised : Poised w) (sound : Sound w) (exec : Executor) :
    Prompt (w.step exec) := by
  cases stack : w.stack with
  | nil =>
    rw [step_idle exec w stack]
    exact h
  | cons frame rest =>
    rcases poised.clocked_or_layers stack with ⟨clock, queue⟩ | plain | ⟨id, run⟩ | ⟨index, rfl⟩
      | rfl
    · have moved : frame = .drain ∨ (∃ time, frame = .advanceTo time) ∨ ∃ ms, frame = .leap ms := by
        rw [stack] at clock
        cases clock with
        | advancing time => exact .inr (.inl ⟨time, rfl⟩)
        | leaping ms => exact .inr (.inr ⟨ms, rfl⟩)
      -- nobody who was cancelled is in a wait when the clock moves
      intro id r found cancelled waits
      rw [run?, runs_step_of_clock exec stack moved] at found
      rw [h.inWait_of_clocked clock queue found cancelled] at waits
      cases waits
    · have taken : w.step exec = act { w with stack := rest } exec frame := by
        rw [World.step, stack]
      -- what is done between two turns wakes whom it cancels
      rw [taken]
      exact (h.below stack (Frame.run?_of_isPlain plain)).extends
        (extends_acts (acts_plain exec _ plain))
    · exact h.step_turn poised sound exec stack run
    · have taken : w.step exec = tick { w with stack := rest } index := by
        rw [World.step, stack]
        rfl
      -- the timer is set again first, which is no matter for runs
      obtain ⟨u, same, place, -, -, acts⟩ := acts_tick { w with stack := rest } index
      have runs : u.runs = w.runs := congrArg Ledger.runs same
      have ready : u.ready = w.ready := congrArg Ledger.ready same
      have popped : Prompt u := by
        refine (h.below stack rfl).congr runs (fun _ member => ready ▸ member) fun f there _ => ?_
        rcases place with place | place
        · exact place ▸ there
        · exact place ▸ List.mem_cons_of_mem _ there
      rw [taken]
      exact popped.extends (extends_acts acts)
    · exact h.step_drain exec stack

/-- **Every move of an orderly history** does. -/
theorem Prompt.move (h : Prompt w) (poised : Poised w) (sound : Sound w) (exec : Executor)
    (m : Move) : Prompt (w.move exec m) := by
  cases m with
  | step => exact h.step poised sound exec
  | receive s =>
    cases s <;>
      exact h.congr rfl (fun _ => id) fun f there _ => List.mem_append_right _ there

/-- **Orderly histories** keep everybody awake who is cancelled in a wait. -/
theorem Prompt.after (h : Prompt w) (poised : Poised w) (sound : Sound w) {moves : List Move}
    (orderly : Orderly exec w moves) : Prompt (w.after exec moves) := by
  induction moves generalizing w with
  | nil => exact h
  | cons m moves ih =>
    obtain ⟨poised', later⟩ := poised.move sound exec orderly
    exact ih (h.move poised sound exec m) poised' (sound.of_moved (sound.move exec m)) later

end World

/-! ## 2. What remains -/

namespace Run

/-- How a run that was cancelled **comes to its end with a service call**: when the call returns, or
in its panic. -/
def closing (wake : Nat → Nat) (time : Nat) (call : Call) : List (Nat × Deed) :=
  [(sleepThrough wake time (pausesOf call.effects),
    if call.result = .panicked then .panic else .finish)]

/-- What **remains of a run that was cancelled**, from where it stands: in a service call, to come to
its end when the call returns; anywhere else, in a wait as well, to come to its end now. -/
def remains (wake : Nat → Nat) (now : Nat) (r : Run) : Option Frame → List (Nat × Deed)
  | some (.serve _ call) => closing wake now call
  | some (.execute _) => [(now, .finish)]
  | _ =>
    match r.phase with
    | .ready | .waiting _ _ => [(now, .finish)]
    | .calling deadline call => closing wake (wake deadline) call

/-- It does not matter for it whether the run was cancelled just now. -/
theorem blind_remains : Prospect.Blind remains :=
  fun _ _ _ _ => rfl

variable {wake : Nat → Nat} {now : Nat} {r : Run}

/-- What remains hangs on later moments only **while a service call is pending**. -/
theorem patient_remains (calling : r.inWait = false) : Prospect.Patient remains r := by
  intro wake wake' now now' d late waits same
  have first := same d (Nat.le_refl d)
  unfold deadline? at waits
  unfold inWait at calling
  unfold remains
  cases phase : r.phase with
  | ready =>
    rw [phase] at waits
    cases waits
  | waiting deadline ms =>
    rw [phase] at calling
    cases calling
  | calling deadline call =>
    rw [phase] at waits
    obtain rfl := Option.some.inj waits
    have pauses := sleepThrough_congr late
      (fun d' later => same d' (Nat.le_of_lt (Nat.lt_of_le_of_lt (late deadline) later)))
      (pausesOf call.effects)
    simp only [closing, ← first, pauses]

/-- A stride takes off **the end** that it is. -/
theorem remains_stride (exec : Executor) (calls : Nat) (cancelled : r.cancelled = true) :
    [(now, Deed.finish)]
      = ((r.progress.next r.cancelled).1.deed?.map fun d => (now, d)).toList
        ++ Prospect.later remains wake now r.id (r.stride exec now calls) := by
  have silent := r.progress.begins_next_true
  unfold stride
  rw [cancelled]
  generalize r.progress.next true = taken at silent
  obtain ⟨demand, p⟩ := taken
  cases demand with
  | nothing | stop => simp [Prospect.later, remains, Demand.deed?]
  | call | wait => cases silent
  | finish => rfl

/-- A step of a service call takes off **the panic** that it is, if it is one. -/
theorem remains_served (call : Call) :
    closing wake now call
      = (servedDeed? now call).toList
        ++ Prospect.later remains wake now r.id (r.served now call) := by
  obtain ⟨service, effects, result⟩ := call
  match effects with
  | [] =>
    cases result with
    | done | failed =>
      simp [Prospect.later, served, remains, closing, servedDeed?, pausesOf, sleepThrough]
    | panicked => rfl
  | .act op recorded :: rest =>
    have plain : ∀ f ∈ (.perform op :: if recorded then [.record] else [] : List Frame),
        f.isPlain = true := by
      cases recorded <;> simp [Frame.isPlain]
    unfold served
    simp only [Prospect.later, Option.elim_some]
    rw [turnIn_append_of_isPlain plain, turnIn_serve]
    rfl
  | .pause ms :: rest =>
    unfold served
    simp only
    split_ifs with empty
    · simp only [Prospect.later, Option.elim_some, turnIn_serve, remains, closing, pausesOf,
        sleepThrough, List.filterMap_cons, List.foldl_cons, sleepUntil, empty, if_true]
      rfl
    · simp only [Prospect.later, Option.elim_some, turnIn_nil, remains, closing, pausesOf,
        sleepThrough, List.filterMap_cons, List.foldl_cons, sleepUntil, empty, if_false]
      rfl

/-- **Waking up** changes nothing. -/
theorem remains_resumed (come : ∀ d, d ≤ now → wake d = now) :
    r.remains wake now none = Prospect.later remains wake now r.id (r.resumed now) := by
  unfold resumed
  cases phase : r.phase with
  | ready => simp [Prospect.later, remains, phase]
  | waiting deadline ms =>
    simp only
    split_ifs <;> simp [Prospect.later, remains, phase]
  | calling deadline call =>
    simp only
    split_ifs with due
    · simp only [Prospect.later, Option.elim_some, turnIn_serve, remains, phase, come _ due]
    · simp only [Prospect.later, Option.elim_some, turnIn_nil, remains, phase]

end Run

namespace World

variable {exec : Executor} {w : World}

/-- What **remains of a run that was cancelled** in the world; nothing when it is over. -/
def remains (w : World) (future : List Move) (id : Nat) : List (Nat × Deed) :=
  w.prospect Run.remains future id

/-- A run that was cancelled **stays cancelled**. -/
theorem Sound.cancelled_move (sound : Sound w) (exec : Executor) (m : Move) {id : Nat}
    (old : id < w.nextRun) (cancelled : ∀ r, w.run? id = some r → r.cancelled = true) :
    ∀ r, (w.move exec m).run? id = some r → r.cancelled = true := by
  have move := sound.runMove exec m old
  generalize w.run? id = run, w.stridesOf exec [m] id = taken,
    (w.move exec m).run? id = later at move cancelled
  intro r' found
  cases move with
  | absent | finishes | panics => cases found
  | stays r mark =>
    rw [← Option.some.inj found]
    show (r.cancelled || mark) = true
    rw [cancelled r rfl, Bool.true_or]
  | waits r | notices r | strides r =>
    rw [← Option.some.inj found]
    exact cancelled r rfl

/-- **One move** takes off the deed that it is, and what remains after it remains. -/
theorem Prompt.remains_move (h : Prompt w) (poised : Poised w) (sound : Sound w) {m : Move}
    {future : List Move} (orderly : Orderly exec w (m :: future)) {id : Nat}
    (old : id < w.nextRun) (cancelled : ∀ r, w.run? id = some r → r.cancelled = true) :
    w.remains (m :: future) id = w.deedsOf exec [m] id ++ (w.move exec m).remains future id := by
  cases m with
  | receive s => exact (prospect_receive orderly.1 s Run.blind_remains future id).symm
  | step =>
    exact poised.prospect_step sound Run.blind_remains old
      (fun clock queue r found =>
        Run.patient_remains (h.inWait_of_clocked clock queue found (cancelled r found)))
      fun r found =>
        ⟨fun _ => Run.remains_stride exec w.calls (cancelled r found),
          fun call => Run.remains_served call,
          Run.remains_resumed fun d => w.wakes_of_le _⟩

/-- **An orderly history** takes off the deeds that it is, and what remains after it remains. -/
theorem Prompt.remains_after (h : Prompt w) (poised : Poised w) (sound : Sound w)
    {moves : List Move} (orderly : Orderly exec w moves) {id : Nat} (old : id < w.nextRun)
    (cancelled : ∀ r, w.run? id = some r → r.cancelled = true) :
    w.remains moves id = w.deedsOf exec moves id ++ (w.after exec moves).remains [] id
      ∧ ∀ r, (w.after exec moves).run? id = some r → r.cancelled = true := by
  induction moves generalizing w with
  | nil => exact ⟨rfl, cancelled⟩
  | cons m moves ih =>
    obtain ⟨poised', later⟩ := poised.move sound exec orderly
    have moved := sound.move exec m
    have first := h.remains_move poised sound orderly old cancelled
    obtain ⟨rest, marked⟩ := ih (h.move poised sound exec m) poised' (sound.of_moved moved) later
      (Nat.lt_of_lt_of_le old moved.nextRun) (sound.cancelled_move exec m old cancelled)
    refine ⟨?_, marked⟩
    rw [first, rest, ← List.append_assoc, ← deedsOf_cons]
    rfl

/-- At rest, a run that was cancelled is over or **in a service call** that returns later. -/
theorem Prompt.lt_of_mem_remains (h : Prompt w) (poised : Poised w) (rest : w.AtRest)
    {future : List Move} {id : Nat} (cancelled : ∀ r, w.run? id = some r → r.cancelled = true)
    {deed : Nat × Deed} (member : deed ∈ w.remains future id) : w.now < deed.1 := by
  rw [remains, prospect] at member
  cases found : w.run? id with
  | none =>
    rw [found] at member
    cases member
  | some r =>
    have mine := id_of_run? found
    have asleep : ∀ i, .run i ∉ w.ready ∧ ∀ f ∈ w.stack, f.run? ≠ some i := by
      rw [rest.1, rest.2]
      simp
    -- whoever is cancelled in a wait would be awake
    have calling : r.inWait = false := by
      by_contra waits
      rcases h id r found (cancelled r found) (eq_true_of_ne_false waits) with queued | ⟨f, there, run⟩
      · exact (asleep id).1 queued
      · exact (asleep id).2 f there run
    rcases poised.attended r (List.mem_of_find?_eq_some found) with queued | ⟨f, there, run⟩
      | ⟨d, waits, later⟩
    · exact absurd queued (asleep r.id).1
    · exact absurd run ((asleep r.id).2 f there)
    · rw [found, rest.1] at member
      unfold Run.deadline? at waits
      unfold Run.inWait at calling
      obtain ⟨_, _, _, phase, _⟩ := r
      cases phase with
      | ready => cases waits
      | waiting => cases calling
      | calling deadline call =>
        obtain rfl : deadline = d := Option.some.inj waits
        have wakes := w.le_wakes future deadline
        have returns : w.wakes future deadline
            ≤ sleepThrough (w.wakes future) (w.wakes future deadline) (pausesOf call.effects) :=
          le_sleepThrough (w.le_wakes future) _
        rw [List.mem_singleton.mp member]
        exact Nat.lt_of_lt_of_le later (Nat.le_trans wakes returns)

/-- In an orderly history a run that was cancelled does **the one thing that remains**, in time. -/
theorem Prompt.punctual_remains (h : Prompt w) (poised : Poised w) (sound : Sound w)
    {moves : List Move} (orderly : Orderly exec w moves) {id : Nat} {r : Run}
    (found : w.run? id = some r) (cancelled : r.cancelled = true) :
    w.Punctual exec moves id (w.remains moves id) := by
  have marked : ∀ r', w.run? id = some r' → r'.cancelled = true := by
    intro r' same
    rw [found] at same
    rw [← Option.some.inj same, cancelled]
  obtain ⟨split, marked'⟩ :=
    h.remains_after poised sound orderly (sound.lt_of_run? found) marked
  refine poised.punctual_of_split sound orderly split
    (fun rest deed => (h.after poised sound orderly).lt_of_mem_remains
      (poised.after sound orderly) rest marked') fun none => ?_
  cases there : (w.after exec moves).run? id with
  | none => rfl
  | some r' =>
    rw [remains, prospect, there] at none
    unfold Run.remains Run.closing at none
    dsimp only [Option.elim_some] at none
    split at none
    · cases none
    · cases none
    · split at none <;> cases none

end World

end RuleDispatch
