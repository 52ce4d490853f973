import RuleDispatch.Proofs.Runs.Timetable
import RuleDispatch.Proofs.Slots.Restart

/-! # What a run does that may be cancelled

A run looks before every action whether it was cancelled, and a wait that is cut short looks as
well. From then on it takes no action any more, and what it has taken up to then are the first
actions of its unrolling. Its summary says what stopped it: a stop that came first, or the
cancellation.

* `executed` — the actions that strides carry out.
* `Heeds` — what the strides of a run so far and its progress have to do with its actions.
* `World.Sound.heeds` — this holds all along its course.
* `World.Heeded` — what follows for the calls and the summary of the run. -/

namespace RuleDispatch

/-! ## 1. Actions carried out -/

/-- Whether a demand is **that of an action**: to call, to wait, or to stop. -/
def Demand.isAction : Demand → Bool
  | .call _ _ | .wait _ | .stop => true
  | .nothing | .finish => false

/-- What an action **demands** when it is carried out. Repetitions and what is not understood demand
nothing; unrolled lists hold neither. -/
def Action.demand : Action → Demand
  | serviceCall service data => .call service data
  | wait ms => .wait ms.toNat
  | stop => .stop
  | repeatCount _ _ | unknown => .nothing

/-- The **actions that strides carry out**, in order. -/
def executed (taken : List Stride) : List Demand :=
  (taken.map (·.demand)).filter (·.isAction)

/-- The **calls that strides make**, in order. -/
def callsMade (taken : List Stride) : List (String × Json) :=
  taken.filterMap (·.demand.call?)

/-- With one stride more, **its action** was executed too, if it has one. -/
theorem executed_concat (taken : List Stride) (s : Stride) :
    executed (taken ++ [s])
      = executed taken ++ if s.demand.isAction then [s.demand] else [] := by
  rw [executed, executed, List.map_append, List.filter_append]
  cases idle : s.demand.isAction <;> simp [idle]

/-- With one stride more, **its call** was made too, if it makes one. -/
theorem callsMade_concat (taken : List Stride) (s : Stride) :
    callsMade (taken ++ [s]) = callsMade taken ++ s.demand.call?.toList := by
  rw [callsMade, callsMade, List.filterMap_append]
  cases call : s.demand.call? <;> simp [call]

/-- A demand that is no action is no call, and no stop. -/
theorem Demand.call?_of_idle {d : Demand} (idle : d.isAction = false) : d.call? = none := by
  cases d <;> first | rfl | cases idle

/-- A run that was cancelled takes **the step that it would take anyway, or notices** it. -/
theorem Progress.next_true (p : Progress) :
    p.next true = p.next false
      ∨ ((p.next true).1.isAction = false
        ∧ (p.next true).2.summary = p.summary.checkHalt true) := by
  obtain ⟨agenda, s⟩ := p
  match agenda with
  | [] => exact .inl rfl
  | .list [] :: rest => exact .inl rfl
  | .loop 0 actions :: rest => exact .inl rfl
  | .loop (count + 1) actions :: rest => exact .inl rfl
  | .list (action :: actions) :: rest =>
    have halts : (s.checkHalt true).halted = true := by
      cases halted : s.halted <;> simp [Summary.checkHalt, halted]
    have taken : next ⟨.list (action :: actions) :: rest, s⟩ true
        = (.nothing, ⟨rest, s.checkHalt true⟩) := by
      unfold next
      exact if_pos halts
    rw [taken]
    exact .inr ⟨rfl, rfl⟩

/-! ## 2. Actions, strides, and progress -/

/-- What the **strides of a run** have to do with its actions, when its progress is `p`. -/
structure Heeds (actions : List Action) (taken : List Stride) (p : Progress) : Prop where
  /-- The calls made are the first ones, and all others are left unless the cancellation was
  noticed. -/
  calls : ∃ left, Action.calls actions = callsMade taken ++ left
    ∧ (p.summary.cancelled = false → left = p.callsLeft)
  /-- Until something halts the run, the actions carried out and those left make up the unrolling. -/
  actions : p.summary.halted = false →
    (Action.unrollAll actions).map Action.demand = executed taken ++ p.due.map Action.demand
  /-- Who notices that it was cancelled halts. -/
  halted : p.summary.cancelled = true → p.summary.halted = true
  /-- Who was stopped has halted, and does not look any more whether it was cancelled. -/
  stopped : (∃ s ∈ taken, s.demand = .stop) → p.summary.halted = true ∧ p.summary.cancelled = false
  /-- The summary counts the calls made. -/
  count : p.summary.serviceCalls = (callsMade taken).length

namespace Heeds

variable {actions : List Action} {taken : List Stride} {p : Progress}

/-- Before its first step. -/
theorem start (actions : List Action) : Heeds actions [] (.start actions) where
  calls := ⟨_, rfl, fun _ => (Progress.callsLeft_start actions).symm⟩
  actions _ := by simp [executed]
  halted h := by cases h
  stopped h := by simp at h
  count := rfl

/-- A stride that carries out no action **changes nothing**. -/
theorem idle (h : Heeds actions taken p) {s : Stride} (idle : s.demand.isAction = false) :
    Heeds actions (taken ++ [s]) p := by
  have calls : callsMade (taken ++ [s]) = callsMade taken := by
    rw [callsMade_concat, Demand.call?_of_idle idle, Option.toList_none, List.append_nil]
  have same : executed (taken ++ [s]) = executed taken := by
    rw [executed_concat, idle]
    exact List.append_nil _
  refine ⟨calls ▸ h.calls, same ▸ h.actions, h.halted, ?_, calls ▸ h.count⟩
  rintro ⟨s', member, stop⟩
  rcases List.mem_append.mp member with before | new
  · exact h.stopped ⟨s', before, stop⟩
  · rw [List.mem_singleton.mp new] at stop
    rw [stop] at idle
    cases idle

/-- **Looking whether it was cancelled**: a run that has halted does not look, any other halts. -/
theorem checked (h : Heeds actions taken p) {later : Progress}
    (looked : later.summary = p.summary.checkHalt true) : Heeds actions taken later := by
  have halts : later.summary.halted = true := by
    rw [looked]
    cases halted : p.summary.halted <;> simp [Summary.checkHalt, halted]
  have done (halted : p.summary.halted = true) : later.summary = p.summary := by
    rw [looked, Summary.checkHalt, halted]
    rfl
  have none (q : Progress) (halted : q.summary.halted = true) : q.callsLeft = [] := by
    rw [Progress.callsLeft, Progress.due, if_pos halted]
    rfl
  obtain ⟨left, all, rest⟩ := h.calls
  refine
    { calls := ⟨left, all, fun unnoticed => ?_⟩
      actions := fun going => ?_
      halted := fun _ => halts
      stopped := fun stop => ⟨halts, ?_⟩
      count := ?_ }
  · -- only a run that had halted before does not notice
    cases halted : p.summary.halted with
    | true =>
      rw [done halted] at unnoticed
      rw [rest unnoticed, none p halted, none later halts]
    | false =>
      rw [looked, Summary.checkHalt, halted] at unnoticed
      cases unnoticed
  · rw [halts] at going
    cases going
  · obtain ⟨halted, unnoticed⟩ := h.stopped stop
    rw [done halted, unnoticed]
  · rw [← h.count, looked, Summary.checkHalt]
    split <;> rfl

/-- **A step of a run that was not cancelled** takes one action off, at most. -/
theorem next_false (h : Heeds actions taken p) {s : Stride} (demand : s.demand = (p.next false).1) :
    Heeds actions (taken ++ [s]) (p.next false).2 := by
  obtain ⟨made, halts, notices⟩ := p.summary_next
  have takes := p.takes_next
  have left_next := p.callsLeft_next
  rw [← demand] at made halts takes left_next
  obtain ⟨left, all, rest⟩ := h.calls
  refine
    { calls := ?_
      actions := fun going => ?_
      halted := fun noticed => ?_
      stopped := ?_
      count := by rw [made, h.count, callsMade_concat, List.length_append] }
  · -- the calls left before are the call made, if any, and those left now
    rw [callsMade_concat]
    cases unnoticed : p.summary.cancelled with
    | false =>
      refine ⟨(p.next false).2.callsLeft, ?_, fun _ => rfl⟩
      rw [all, rest unnoticed, left_next, List.append_assoc]
    | true =>
      -- who noticed it has halted, and makes no call any more
      have halted : p.summary.halted = true := h.halted unnoticed
      have none : s.demand.call? = none := by
        have nothing : p.callsLeft = [] := by
          rw [Progress.callsLeft, Progress.due, if_pos halted]
          rfl
        rw [nothing] at left_next
        exact Option.toList_eq_nil_iff.mp (List.append_eq_nil_iff.mp left_next.symm).1
      refine ⟨left, by rw [none, all]; simp, fun now => ?_⟩
      rw [notices, unnoticed] at now
      cases now
  · -- the step took the first action off, if it was one
    rw [going] at halts
    obtain ⟨before, unstopped⟩ := Bool.or_eq_false_iff.mp halts.symm
    rw [h.actions before, executed_concat]
    generalize s.demand = d, p.due = due, (p.next false).2.due = later at takes unstopped
    cases takes with
    | stop => cases unstopped
    | nothing | call | wait | finish => simp [Demand.isAction, Action.demand]
  · rw [notices] at noticed
    rw [halts, h.halted noticed, Bool.true_or]
  · rintro ⟨s', member, stop⟩
    rw [halts, notices]
    rcases List.mem_append.mp member with before | new
    · obtain ⟨halted, unnoticed⟩ := h.stopped ⟨s', before, stop⟩
      exact ⟨by rw [halted, Bool.true_or], unnoticed⟩
    · obtain rfl := List.mem_singleton.mp new
      refine ⟨by rw [stop]; exact Bool.or_true _, ?_⟩
      -- a run that has halted comes to no stop, so it had not noticed anything
      cases unnoticed : p.summary.cancelled with
      | false => rfl
      | true =>
        have due : p.due = [] := by rw [Progress.due, if_pos (h.halted unnoticed)]
        rw [stop, due] at takes
        cases takes

/-- **A step**, whether the run was cancelled or not. -/
theorem next (h : Heeds actions taken p) {s : Stride} {cancelled : Bool}
    (demand : s.demand = (p.next cancelled).1) :
    Heeds actions (taken ++ [s]) (p.next cancelled).2 := by
  cases cancelled with
  | false => exact h.next_false demand
  | true =>
    rcases p.next_true with same | ⟨idle, looked⟩
    · rw [same] at demand ⊢
      exact h.next_false demand
    · exact (h.checked looked).idle (demand ▸ idle)

end Heeds

/-! ## 3. The course of a run -/

namespace World

variable {exec : Executor} {w : World}

/-- **All along its course** the strides of a run heed its actions. -/
theorem Sound.heeds (sound : Sound w) {id : Nat} {owner : Owner} {actions : List Action}
    (spawned : w.Spawned id owner actions) (moves : List Move) :
    callsMade (w.stridesOf exec moves id) <+: Action.calls actions
      ∧ ∀ r ∈ (w.after exec moves).run? id,
        Heeds actions (w.stridesOf exec moves id) r.progress
          ∧ (r.progress.summary.cancelled = true → r.cancelled = true) := by
  obtain ⟨cancelled, found⟩ := spawned.run
  let kept : List Stride → Option Run → Prop := fun taken run =>
    callsMade taken <+: Action.calls actions
      ∧ ∀ r ∈ run, Heeds actions taken r.progress
        ∧ (r.progress.summary.cancelled = true → r.cancelled = true)
  -- the calls made are the first ones, as long as the run goes on
  have goes {taken : List Stride} {r : Run} (h : Heeds actions taken r.progress)
      (noticed : r.progress.summary.cancelled = true → r.cancelled = true) :
      kept taken (some r) := by
    obtain ⟨left, all, -⟩ := h.calls
    refine ⟨⟨left, all.symm⟩, fun r' same => ?_⟩
    rw [← Option.some.inj same]
    exact ⟨h, noticed⟩
  have start : kept [] (w.run? id) := by
    rw [found]
    exact goes (.start actions) fun noticed => by cases noticed
  refine sound.course (P := kept) (Q := fun _ => True) (sound.lt_of_run? found)
    (fun _ _ _ _ _ => trivial) (fun {taken more run later} _ move h => ?_) [] start
  cases move with
  | absent => simpa using h
  | panics r =>
    rw [List.append_nil]
    exact ⟨h.1, by simp⟩
  | stays r mark =>
    -- it may be cancelled meanwhile, which it has still to notice
    obtain ⟨heeds, noticed⟩ := h.2 r rfl
    rw [List.append_nil]
    refine goes heeds fun seen => ?_
    show (r.cancelled || mark) = true
    rw [noticed seen, Bool.true_or]
  | waits r phase =>
    obtain ⟨heeds, noticed⟩ := h.2 r rfl
    rw [List.append_nil]
    exact goes heeds noticed
  | notices r cancelled =>
    obtain ⟨heeds, -⟩ := h.2 r rfl
    rw [List.append_nil]
    exact goes (heeds.checked rfl) fun _ => cancelled
  | strides r time calls phase unfinished =>
    obtain ⟨heeds, noticed⟩ := h.2 r rfl
    refine goes (heeds.next rfl) fun seen => ?_
    cases cancelled : r.cancelled with
    | true => rfl
    | false =>
      -- without a cancellation there is nothing to notice
      have same : (r.progress.next r.cancelled).2.summary.cancelled = true := seen
      rw [cancelled, r.progress.summary_next.2.2] at same
      rw [← cancelled, noticed same]
  | finishes r time calls nothing =>
    -- the last stride carries out no action, so the calls are those of before
    obtain ⟨heeds, -⟩ := h.2 r rfl
    have last : (r.nextStride time calls).demand.isAction = false := by
      rw [Run.nextStride, Progress.next_of_agenda_nil nothing]
      rfl
    obtain ⟨left, all, -⟩ := (heeds.idle last).calls
    exact ⟨⟨left, all.symm⟩, by simp⟩

/-- What a run does that **may be cancelled** at any moment, in whatever order things happen. -/
structure Heeded (w : World) (exec : Executor) (moves : List Move) (id : Nat) (owner : Owner)
    (actions : List Action) : Prop where
  /-- Its calls are the first ones of its unrolling. -/
  calls : (w.deedsOf exec moves id).filterMap (·.2.call?) <+: Action.calls actions
  /-- Once it is cancelled it begins no call and no wait. -/
  quiet : ∀ past future r, moves = past ++ future → (w.after exec past).run? id = some r →
    r.cancelled = true → ∀ s ∈ (w.after exec past).stridesOf exec future id,
      s.demand.begins = false
  /-- Its last step records a summary. A run that notices that it was cancelled has halted; one that
  was stopped first does not notice it; one that has not halted has carried out all actions of its
  unrolling. -/
  summary : ∀ past future t, moves = past ++ .step :: future →
    (w.after exec past).deed? id = some (t, .finish) →
    ∃ s : Summary,
      ((w.after exec past).step exec).log
        = (t, (w.after exec past).reportOf owner s) :: (w.after exec past).log
      ∧ s.serviceCalls = ((w.deedsOf exec past id).filterMap (·.2.call?)).length
      ∧ (s.cancelled = true → s.halted = true)
      ∧ (s.cancelled = true → ∃ r, (w.after exec past).run? id = some r ∧ r.cancelled = true)
      ∧ ((∃ s' ∈ w.stridesOf exec past id, s'.demand = .stop) → s.cancelled = false)
      ∧ (s.halted = false →
        executed (w.stridesOf exec past id) = (Action.unrollAll actions).map Action.demand)

/-- Every run **heeds its actions and its cancellation**. -/
theorem Sound.heeded (sound : Sound w) (exec : Executor) (moves : List Move) {id : Nat}
    {owner : Owner} {actions : List Action} (spawned : w.Spawned id owner actions) :
    w.Heeded exec moves id owner actions := by
  refine
    { calls := calls_deedsOf moves id ▸ (sound.heeds spawned moves).1
      quiet := fun past future r _ found cancelled s taken =>
        (sound.after past).begins_of_cancelled found cancelled taken
      summary := ?_ }
  rintro past future t - finish
  obtain ⟨cancelled, begun⟩ := spawned.run
  obtain ⟨r, found, -, demand, log⟩ := log_step_of_finish exec finish
  obtain ⟨heeds, noticed⟩ := (sound.heeds spawned past).2 r found
  have owner_eq : r.owner = owner := sound.owner_course begun found
  refine ⟨r.progress.summary, by rw [log, owner_eq], ?_, heeds.halted,
    fun seen => ⟨r, found, noticed seen⟩, fun stop => (heeds.stopped stop).2, fun going => ?_⟩
  · rw [heeds.count, calls_deedsOf]
    rfl
  · -- nothing is left to do at its last step
    have nothing : r.progress.agenda = [] := by
      by_contra left
      exact Progress.next_ne_finish left r.cancelled demand
    have due : r.progress.due = [] := by simp [Progress.due, nothing]
    rw [heeds.actions going, due, List.map_nil, List.append_nil]

end World

end RuleDispatch
