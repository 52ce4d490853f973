import RuleDispatch.Proofs.Runs.Prospect

/-! # What a run is going to do

At every moment the deeds that a run is still going to do can be read off: from where it stands,
from what it has still to do, and from the moves of the clock to come. As long as the run is not
cancelled, every move of the world keeps to them: it takes off the deed that it is and leaves the
others as they are.

* `Run.outlook`, `World.outlook` — the deeds to come.
* `World.Poised.outlook_move` — one move keeps to them.
* `World.Poised.outlook_after` — so does every orderly history. -/

namespace RuleDispatch

/-! ## 1. A run alone -/

/-- The service call that a stride makes is **answered as foreseen**. -/
def Stride.Answered (exec : Executor) (answers : Nat → Response) (s : Stride) : Prop :=
  ∀ service data, s.demand = .call service data →
    (exec s.calls service data).response = answers s.run.progress.summary.serviceCalls

namespace Run

variable (wake : Nat → Nat) (answers : Nat → Response)

/-- The deeds of a run that **goes on with its actions** at some moment. -/
def onward (r : Run) (time : Nat) : List (Nat × Deed) :=
  schedule wake answers time r.progress.summary.serviceCalls r.progress.due

/-- The deeds of a run that **goes on with a service call** at some moment. -/
def onwardFrom (r : Run) (time : Nat) (call : Call) : List (Nat × Deed) :=
  if call.result = .panicked then [(sleepThrough wake time (pausesOf call.effects), .panic)]
  else r.onward wake answers (sleepThrough wake time (pausesOf call.effects))

/-- The **deeds to come** of a run, from where it stands: with a frame that goes on with it, or from
what it waits for. -/
def outlook (now : Nat) (r : Run) : Option Frame → List (Nat × Deed)
  | some (.serve _ call) => r.onwardFrom wake answers now call
  | some (.execute _) => r.onward wake answers now
  | _ =>
    match r.phase with
    | .ready => r.onward wake answers now
    | .waiting deadline _ => r.onward wake answers (wake deadline)
    | .calling deadline call => r.onwardFrom wake answers (wake deadline) call

variable {wake answers} {now : Nat} {r : Run}

/-- What a run is going to do is read off **from where it stands**. -/
abbrev foresight (answers : Nat → Response) : Prospect :=
  fun wake now r => r.outlook wake answers now

/-- Whether a run was cancelled does not matter for it. -/
theorem blind_foresight (answers : Nat → Response) : (foresight answers).Blind :=
  fun _ _ _ _ => rfl

/-- **A stride** takes off the deed that it is. -/
theorem outlook_stride (exec : Executor) {calls : Nat} (uncancelled : r.cancelled = false)
    (answered : (r.nextStride now calls).Answered exec answers) :
    r.onward wake answers now
      = ((r.progress.next r.cancelled).1.deed?.map fun d => (now, d)).toList
        ++ (foresight answers).later wake now r.id (r.stride exec now calls) := by
  have takes := r.progress.takes_next
  have made := r.progress.summary_next.1
  have agree : ∀ service data, (r.progress.next false).1 = .call service data →
      (exec calls service data).response = answers r.progress.summary.serviceCalls := by
    intro service data demanded
    exact answered service data (by rw [nextStride, uncancelled, demanded])
  unfold onward stride
  rw [uncancelled]
  generalize r.progress.next false = taken at takes made agree
  obtain ⟨demand, p⟩ := taken
  dsimp only at takes made agree ⊢
  generalize left_eq : r.progress.due = left, later_eq : p.due = later at takes
  -- what was due is what the stride took off, and what is due after it
  cases takes with
  | nothing =>
    simp only [Prospect.later, foresight, Option.elim_some, turnIn_execute, outlook, onward, later_eq]
    rw [made]
    rfl
  | call service data =>
    have agree := agree service data rfl
    simp only [Prospect.later, foresight, Option.elim_some, turnIn_serve, outlook, onwardFrom, onward, later_eq,
      made, schedule, ← agree, Reply.response, decide_eq_true_iff]
    rfl
  | wait ms =>
    simp only [schedule, sleepUntil]
    split_ifs with empty
    · simp only [Prospect.later, foresight, Option.elim_some, turnIn_execute, outlook, onward, later_eq]
      rw [made]
      rfl
    · simp only [Prospect.later, foresight, Option.elim_some, turnIn_nil, outlook, onward, later_eq]
      rw [made]
      rfl
  | stop =>
    simp only [Prospect.later, foresight, Option.elim_some, turnIn_execute, outlook, onward, later_eq]
    rfl
  | finish => rfl

/-- **A step of a service call** takes off the panic that it is, if it is one. -/
theorem outlook_served (call : Call) :
    r.onwardFrom wake answers now call
      = (servedDeed? now call).toList ++ (foresight answers).later wake now r.id (r.served now call) := by
  obtain ⟨service, effects, result⟩ := call
  match effects with
  | [] =>
    cases result with
    | done => simp [Prospect.later, foresight, served, outlook, onwardFrom, servedDeed?, pausesOf, sleepThrough]
    | failed reason =>
      simp [Prospect.later, foresight, served, outlook, onwardFrom, servedDeed?, pausesOf, sleepThrough]
    | panicked => rfl
  | .act op recorded :: rest =>
    have plain : ∀ f ∈ (.perform op :: if recorded then [.record] else [] : List Frame),
        f.isPlain = true := by
      cases recorded <;> simp [Frame.isPlain]
    unfold served
    simp only [Prospect.later, foresight, Option.elim_some]
    rw [turnIn_append_of_isPlain plain, turnIn_serve]
    rfl
  | .pause ms :: rest =>
    unfold served
    simp only
    split_ifs with empty
    · simp only [Prospect.later, foresight, Option.elim_some, turnIn_serve, outlook, onwardFrom, pausesOf,
        sleepThrough, List.filterMap_cons, List.foldl_cons, sleepUntil, empty, if_true]
      rfl
    · simp only [Prospect.later, foresight, Option.elim_some, turnIn_nil, outlook, onwardFrom, pausesOf,
        sleepThrough, List.filterMap_cons, List.foldl_cons, sleepUntil, empty, if_false]
      rfl

/-- **Waking up** leaves the deeds to come as they are. -/
theorem outlook_resumed (come : ∀ d, d ≤ now → wake d = now) (uncancelled : r.cancelled = false) :
    r.outlook wake answers now none
      = (foresight answers).later wake now r.id (r.resumed now) := by
  unfold resumed
  cases phase : r.phase with
  | ready =>
    simp only [Prospect.later, foresight, Option.elim_some, turnIn_execute, outlook, phase]
  | waiting deadline ms =>
    simp only [uncancelled, Bool.false_eq_true, if_false]
    split_ifs with due
    · simp only [Prospect.later, foresight, Option.elim_some, turnIn_execute, outlook, phase, come _ due]
      rfl
    · simp only [Prospect.later, foresight, Option.elim_some, turnIn_nil]
  | calling deadline call =>
    simp only
    split_ifs with due
    · simp only [Prospect.later, foresight, Option.elim_some, turnIn_serve, outlook, phase, come _ due]
      rfl
    · simp only [Prospect.later, foresight, Option.elim_some, turnIn_nil]

/-- Who waits for a moment depends on **later moments** only. -/
theorem outlook_of_waiting {wake' : Nat → Nat} {now' d : Nat} (late : ∀ d, d ≤ wake d)
    (waits : r.deadline? = some d) (same : ∀ d', d ≤ d' → wake d' = wake' d') :
    r.outlook wake answers now none = r.outlook wake' answers now' none := by
  -- the run wakes at the same moment in both, and what it does comes later still
  have first := same d (Nat.le_refl d)
  have after (d' : Nat) (later : wake d < d') : wake d' = wake' d' :=
    same d' (Nat.le_of_lt (Nat.lt_of_le_of_lt (late d) later))
  unfold deadline? at waits
  unfold outlook
  cases phase : r.phase with
  | ready =>
    rw [phase] at waits
    cases waits
  | waiting deadline ms =>
    rw [phase] at waits
    obtain rfl := Option.some.inj waits
    simp only [onward, ← first]
    exact schedule_congr late after answers _ _
  | calling deadline call =>
    rw [phase] at waits
    obtain rfl := Option.some.inj waits
    -- a call comes to its end after its pauses, and the agenda goes on from there
    have pauses := sleepThrough_congr late after (pausesOf call.effects)
    have longer : wake deadline ≤ sleepThrough wake (wake deadline) (pausesOf call.effects) :=
      le_sleepThrough late _
    simp only [onwardFrom, onward, ← first, ← pauses]
    split_ifs
    · rfl
    · exact schedule_congr late
        (fun d' later => after d' (Nat.lt_of_le_of_lt longer later)) answers _ _

/-- So what it is going to do waits with it. -/
theorem patient_foresight (answers : Nat → Response) (r : Run) :
    (foresight answers).Patient r :=
  fun _ _ _ _ _ late waits same => outlook_of_waiting late waits same

/-- The deeds to come of a run that waits are done **no earlier** than that. -/
theorem le_of_mem_outlook (late : ∀ d, d ≤ wake d) {d : Nat} (waits : r.deadline? = some d)
    {deed : Nat × Deed} (member : deed ∈ r.outlook wake answers now none) : d ≤ deed.1 := by
  unfold deadline? at waits
  unfold outlook at member
  cases phase : r.phase with
  | ready =>
    rw [phase] at waits
    cases waits
  | waiting deadline ms =>
    rw [phase] at waits member
    obtain rfl := Option.some.inj waits
    exact Nat.le_trans (late _) (le_of_mem_schedule late answers member)
  | calling deadline called =>
    rw [phase] at waits member
    obtain rfl := Option.some.inj waits
    simp only [onwardFrom] at member
    split at member
    · rw [List.mem_singleton.mp member]
      exact Nat.le_trans (late _) (le_sleepThrough late _)
    · exact Nat.le_trans (Nat.le_trans (late _) (le_sleepThrough late _))
        (le_of_mem_schedule late answers member)

/-- A run that goes on has something to come. -/
theorem outlook_ne_nil (turn : Option Frame) : r.outlook wake answers now turn ≠ [] := by
  have more (time : Nat) : r.onward wake answers time ≠ [] := schedule_ne_nil wake answers _ _ _
  have moreFrom (time : Nat) (call : Call) : r.onwardFrom wake answers time call ≠ [] := by
    unfold onwardFrom
    split
    · intro h; cases h
    · exact more _
  unfold outlook
  split
  · exact moreFrom _ _
  · exact more _
  · split
    · exact more _
    · exact more _
    · exact moreFrom _ _

end Run

/-! ## 2. In the world -/

namespace World

variable {exec : Executor} {w w' : World}

/-- The **deeds to come** of a run; none when it is over. -/
def outlook (w : World) (future : List Move) (answers : Nat → Response) (id : Nat) :
    List (Nat × Deed) :=
  (w.run? id).elim [] fun r => r.outlook (w.wakes future) answers w.now (turnIn id w.stack)

/-- When neither the run nor the clock is touched, the **outlook stays**. -/
theorem outlook_congr {future future' : List Move} {answers : Nat → Response} {id : Nat}
    (now : w'.now = w.now) (turn : turnIn id w'.stack = turnIn id w.stack)
    (clock : w'.clockMoves future' = w.clockMoves future)
    (run : (w'.run? id).map (·.marked true) = (w.run? id).map (·.marked true)) :
    w'.outlook future' answers id = w.outlook future answers id :=
  prospect_congr (Run.blind_foresight answers) now turn clock run

/-- **One move** takes off the deed that it is and keeps to the rest of the outlook. -/
theorem Poised.outlook_move (h : Poised w) (sound : Sound w) {m : Move} {future : List Move}
    (orderly : Orderly exec w (m :: future)) {id : Nat} (old : id < w.nextRun)
    {answers : Nat → Response} (uncancelled : ∀ r, w.run? id = some r → r.cancelled = false)
    (answered : ∀ s ∈ w.stridesOf exec [m] id, s.Answered exec answers) :
    w.outlook (m :: future) answers id
      = w.deedsOf exec [m] id ++ (w.move exec m).outlook future answers id := by
  have blind := Run.blind_foresight answers
  cases m with
  | receive s => exact (prospect_receive orderly.1 s blind future id).symm
  | step =>
    refine h.prospect_step sound blind old (fun _ _ r _ => Run.patient_foresight answers r)
      fun r found => ⟨fun strides => ?_, fun call => Run.outlook_served call, ?_⟩
    · rw [id_of_run? found] at strides
      exact Run.outlook_stride exec (uncancelled r found)
        (answered _ (strides ▸ List.mem_singleton_self _))
    · exact Run.outlook_resumed (fun d => w.wakes_of_le _) (uncancelled r found)

/-! ## 3. A history -/

/-- **An orderly history** takes off the deeds that it is and keeps to the rest of the outlook, as
long as the run is not cancelled. -/
theorem Poised.outlook_after (h : Poised w) (sound : Sound w) {moves : List Move}
    (orderly : Orderly exec w moves) {id : Nat} (old : id < w.nextRun) {answers : Nat → Response}
    (uncancelled : NeverCancelled exec w moves id)
    (answered : ∀ s ∈ w.stridesOf exec moves id, s.Answered exec answers) :
    w.outlook moves answers id
      = w.deedsOf exec moves id ++ (w.after exec moves).outlook [] answers id := by
  induction moves generalizing w with
  | nil => rfl
  | cons m moves ih =>
    rw [stridesOf_cons] at answered
    obtain ⟨poised, later⟩ := h.move sound exec orderly
    have moved := sound.move exec m
    have first := h.outlook_move sound orderly old (fun r => uncancelled.head)
      fun s member => answered s (List.mem_append_left _ member)
    have rest := ih poised (sound.of_moved moved) later (Nat.lt_of_lt_of_le old moved.nextRun)
      uncancelled.tail fun s member => answered s (List.mem_append_right _ member)
    rw [first, rest, ← List.append_assoc, ← deedsOf_cons]
    rfl

/-- A run that goes on has **something to come**. -/
theorem outlook_ne_nil {future : List Move} {answers : Nat → Response} {id : Nat} {r : Run}
    (found : w.run? id = some r) : w.outlook future answers id ≠ [] := by
  rw [outlook, found]
  exact Run.outlook_ne_nil (turnIn id w.stack)

/-- At rest, what is to come **comes later**. -/
theorem Poised.lt_of_mem_outlook (h : Poised w) (rest : w.AtRest) {future : List Move}
    {answers : Nat → Response} {id : Nat} {deed : Nat × Deed}
    (member : deed ∈ w.outlook future answers id) : w.now < deed.1 := by
  rw [outlook] at member
  cases found : w.run? id with
  | none =>
    rw [found] at member
    cases member
  | some r =>
    rw [found, rest.1] at member
    rcases h.attended r (List.mem_of_find?_eq_some found) with queued | ⟨f, there, -⟩ | ⟨d, waits, later⟩
    · rw [rest.2] at queued
      cases queued
    · rw [rest.1] at there
      cases there
    · -- it waits for a later moment, and does nothing before it
      exact Nat.lt_of_lt_of_le later (Run.le_of_mem_outlook (w.le_wakes future) waits member)

/-- In an orderly history a run that is not cancelled does **what it was going to do**, in time. -/
theorem Poised.punctual_outlook (h : Poised w) (sound : Sound w) {moves : List Move}
    (orderly : Orderly exec w moves) {id : Nat} (old : id < w.nextRun)
    (uncancelled : NeverCancelled exec w moves id) {answers : Nat → Response}
    (answered : ∀ s ∈ w.stridesOf exec moves id, s.Answered exec answers) :
    w.Punctual exec moves id (w.outlook moves answers id) := by
  refine h.punctual_of_split sound orderly
    (h.outlook_after sound orderly old uncancelled answered)
    (fun rest deed => (h.after sound orderly).lt_of_mem_outlook rest) fun none => ?_
  cases found : (w.after exec moves).run? id with
  | none => rfl
  | some r => exact absurd none (outlook_ne_nil found)

end World

end RuleDispatch
