import RuleDispatch.Proofs.Failures.Histories
import RuleDispatch.Proofs.Relevance.Steps

/-! # Histories in lockstep

Two histories go in lockstep when the worlds are akin all along: the same comes from outside, what is
disregarded apart, and corresponding events are stamped alike. Then the same rules are proposed for firing
at the same moments, the same become of them, the same services are called, the same runs come to their
end, and the slots are the same.

* `World.Lockstep` — two histories in lockstep.
* `World.SameForRules` — what is the same for the rules. -/

namespace RuleDispatch

/-- What happens next, without what is disregarded. -/
noncomputable def Disregard.move (c : Disregard) : Move → Move
  | .step => .step
  | .receive s => .receive (c.stimulus s)

namespace World

variable {c : Disregard} {stamp stamp' : Timestamp → Timestamp} {w w' : World} {exec exec' : Executor}
  {moves moves' : List Move}

/-! ## 1. Views of one step -/

/-- The first things to be done in worlds that are akin are **the same**. -/
theorem Akin.twin (h : Akin c stamp stamp' w w') :
    (w.stack = [] ∧ w'.stack = [])
      ∨ ∃ f rest f' rest', w.stack = f :: rest ∧ w'.stack = f' :: rest' ∧ f.Twin c stamp stamp' f' := by
  have both : w.stack.map (·.under (c.guise stamp)) = w'.stack.map (·.under (c.guise stamp')) :=
    h.read World.stack
  cases stack : w.stack with
  | nil =>
    rw [stack] at both
    exact .inl ⟨rfl, List.map_eq_nil_iff.mp both.symm⟩
  | cons f rest =>
    rw [stack] at both
    obtain ⟨f', rest', stack', first, -⟩ := List.map_eq_cons_iff.mp both.symm
    exact .inr ⟨f, rest, f', rest', rfl, stack', Frame.twin_of_under first.symm⟩

/-- The rule that a handler fires. -/
theorem Akin.handlerRule? (h : Akin c stamp stamp' w w') (inStep : InStep stamp stamp') {e e' : Event}
    (name : e.name = e'.name) (time : stamp e.timestamp = stamp' e'.timestamp) (handler : Handler) :
    w.handlerRule? e handler = w'.handlerRule? e' handler := by
  cases handler with
  | target target => rfl
  | watcher index =>
    unfold World.handlerRule?
    dsimp only
    rcases h.watcher index with ⟨none, none'⟩ | ⟨x, x', found, found', same⟩
    · rw [none, none']
      rfl
    · obtain ⟨matcher, target, -, disposed⟩ := Watcher.mk.inj same
      obtain ⟨outcome, -⟩ := inStep.observe matcher e.name time
      rw [found, found', Option.bind_some, Option.bind_some, ← name, ← outcome]
      unfold Watcher.rule?
      rw [disposed, target]

/-- The rule that an operation proposes for firing. -/
theorem Akin.proposed?_perform (h : Akin c stamp stamp' w w') {op op' : Operation}
    (same : c.SameOp op op') : w.proposed? (.perform op) = w'.proposed? (.perform op') := by
  cases same with
  | rigid rigid =>
    cases op with
    | trigger id => exact h.read (·.ruleIndex? id)
    | _ => rfl
  | _ => rfl

/-- **Which rule is proposed for firing** is the same. -/
theorem Akin.firing? (h : Akin c stamp stamp' w w') (inStep : InStep stamp stamp') :
    w.firing? = w'.firing? := by
  unfold World.firing?
  rcases h.twin with ⟨stack, stack'⟩ | ⟨f, rest, f', rest', stack, stack', twin⟩
  · rw [stack, stack']
    rfl
  · rw [stack, stack', List.head?_cons, List.head?_cons, Option.bind_some, Option.bind_some]
    cases twin with
    | perform same => exact h.proposed?_perform same
    | deliver name time handlers =>
      cases handlers with
      | nil => rfl
      | cons handler handlers => exact h.handlerRule? inStep name time handler
    | tellNumber key value listeners => cases listeners <;> rfl
    | resume task =>
      cases task with
      | run id => rfl
      | timer index => exact h.read (·.timerRule? index)
    | _ => rfl

/-- **What becomes of it** is the same, if the rules read nothing that is disregarded. -/
theorem Akin.decision? (h : Akin c stamp stamp' w w') (unread : c.Unread w)
    (inStep : InStep stamp stamp') : w.decision? = w'.decision? := by
  have takes (r : Registration) (member : r ∈ w.registrations) : w.takes r = w'.takes r := by
    cases disposed : r.disposed with
    | true => simp [World.takes, disposed]
    | false =>
      have reads := readsAlike_of_unread unread stamp r member disposed
      have reads' := readsAlike_of_unread (h.unread unread) stamp' r (h.registrations ▸ member) disposed
      rw [World.takes, World.takes, ← reads, ← reads', h]
  have accepted (index : Nat) :
      (w.registrations[index]?).any w.takes = (w'.registrations[index]?).any w'.takes := by
    rw [← h.registrations]
    cases found : w.registrations[index]? with
    | none => rfl
    | some r => exact takes r (List.mem_of_getElem? found)
  unfold World.decision? World.accepted? World.acceptedOf
  rw [← h.firing? inStep, h.now]
  simp only [accepted]

/-- **Which run comes to its end**, and what it leaves to report, is the same. -/
theorem Akin.report? (h : Akin c stamp stamp' w w') : w.report? = w'.report? := by
  unfold World.report? World.ending?
  rcases h.twin with ⟨stack, stack'⟩ | ⟨f, rest, f', rest', stack, stack', twin⟩
  · rw [stack, stack']
  · rw [stack, stack']
    cases twin with
    | execute id =>
      dsimp only
      rcases h.run? id with ⟨none, none'⟩ | ⟨r, r', found, found', same⟩
      · rw [none, none']
      · obtain ⟨number, owner, progress, -, -⟩ := Run.mk.inj same
        -- the end of a run shows in what it has done, which no guise changes
        have done : r.progress = r'.progress := progress
        rw [found, found', Option.filter_some, Option.filter_some, done]
        split_ifs
        · rw [Option.map_some, Option.map_some, Run.report, Run.report, done, owner, number]
        · rfl
    | @serve id call call' same =>
      obtain ⟨service, effects, result⟩ := call
      obtain ⟨service', effects', result'⟩ := call'
      obtain ⟨rfl, effects_same, rfl⟩ := Call.mk.inj same
      cases effects with
      | nil =>
        obtain rfl := List.map_eq_nil_iff.mp effects_same.symm
        cases result with
        | panicked =>
          dsimp only
          rcases h.run? id with ⟨none, none'⟩ | ⟨r, r', found, found', same⟩
          · rw [none, none']
          · obtain ⟨number, owner, progress, -, -⟩ := Run.mk.inj same
            have done : r.progress = r'.progress := progress
            rw [found, found', Option.map_some, Option.map_some, Run.report, Run.report, done, owner,
              number]
        | done | failed => rfl
      | cons effect rest =>
        obtain ⟨effect', rest', rfl, -, -⟩ := List.map_eq_cons_iff.mp effects_same.symm
        rfl
    | _ => rfl

/-! ## 2. Lockstep -/

/-- Two histories go **in lockstep**: the worlds are akin all along, no registered rule reads what is
disregarded, and events that are emitted are stamped alike. -/
inductive Lockstep (c : Disregard) (stamp stamp' : Timestamp → Timestamp) (exec exec' : Executor) :
    World → List Move → World → List Move → Prop
  /-- Nothing more happens. -/
  | nil {w w' : World} (akin : Akin c stamp stamp' w w') :
      Lockstep c stamp stamp' exec exec' w [] w' []
  /-- A step in both, in akin worlds whose rules read nothing that is disregarded. -/
  | step {w w' : World} {moves moves' : List Move} (akin : Akin c stamp stamp' w w')
      (unread : c.Unread w)
      (later : Lockstep c stamp stamp' exec exec' (w.step exec) moves (w'.step exec') moves') :
      Lockstep c stamp stamp' exec exec' w (.step :: moves) w' (.step :: moves')
  /-- Something comes from outside in both. -/
  | receive {w w' : World} {s s' : Stimulus} {moves moves' : List Move}
      (later : Lockstep c stamp stamp' exec exec' (w.receive s) moves (w'.receive s') moves') :
      Lockstep c stamp stamp' exec exec' w (.receive s :: moves) w' (.receive s' :: moves')

/-- **In the end**, too, the worlds are akin. -/
theorem Lockstep.after (h : Lockstep c stamp stamp' exec exec' w moves w' moves') :
    Akin c stamp stamp' (w.after exec moves) (w'.after exec' moves') := by
  induction h with
  | nil akin => exact akin
  | step _ _ _ ih => exact ih
  | receive _ ih => exact ih

/-- **What the histories show** is the same, if what each of their steps shows is. -/
theorem Lockstep.shown {α : Type} {view : World → Option α}
    (h : Lockstep c stamp stamp' exec exec' w moves w' moves')
    (same : ∀ {u u'}, Akin c stamp stamp' u u' → c.Unread u → view u = view u') :
    World.shown exec view w moves = World.shown exec' view w' moves' := by
  induction h with
  | nil akin => rfl
  | step akin unread _ ih =>
    rw [World.shown, World.shown, same akin unread, ih]
  | receive _ ih => exact ih

/-- The event that a line of the console emits. -/
def lineEvent? (clock : Timestamp) (line : String) : Option Event :=
  (lineNotice? clock line).bind Notice.event?

/-- Lines that are the same **emit events of one name**, or none. -/
theorem cases_lineEvent? {line line' : String} (same : c.SameLine line line') {clock clock' : Timestamp}
    (clocks : c.contents = false → clock = clock') :
    (lineEvent? clock line = none ∧ lineEvent? clock' line' = none)
      ∨ ∃ e e', lineEvent? clock line = some e ∧ lineEvent? clock' line' = some e' ∧ e.name = e'.name
        ∧ (c.contents = false → e = e') := by
  unfold lineEvent? lineNotice?
  cases same with
  | one =>
    cases Command.read line with
    | error e => exact .inl ⟨rfl, rfl⟩
    | ok command =>
      cases command with
      | emit name data =>
        exact .inr ⟨_, _, rfl, rfl, rfl, fun heeded => by rw [clocks heeded]⟩
      | setNumber | setText | get => exact .inl ⟨rfl, rfl⟩
  | emission contents read read' =>
    rw [read, read']
    exact .inr ⟨_, _, rfl, rfl, rfl, fun heeded => absurd contents (Bool.eq_false_iff.mp heeded)⟩

/-- A rigid operation **emits nothing**. -/
theorem emission?_of_isRigid {op : Operation} {rest : List Frame} (stack : w.stack = .perform op :: rest)
    (rigid : op.isRigid = true) : w.emission? = none := by
  rw [World.emission?, notice?, stack]
  cases op <;> first | rfl | cases rigid

/-- Worlds that are akin **emit events of one name**, or none of them emits one. Without anything
disregarded of it, it is one event. -/
theorem Akin.emission? (h : Akin c stamp stamp' w w') :
    (w.emission? = none ∧ w'.emission? = none)
      ∨ ∃ e e', w.emission? = some e ∧ w'.emission? = some e' ∧ e.name = e'.name
        ∧ (c.contents = false → e = e') := by
  have clock (heeded : c.contents = false) : w.wallClock = w'.wallClock := by
    have same := h.read World.wallClock
    simpa only [under, Disregard.guise, heeded, Bool.false_eq_true, if_false] using same
  rcases h.twin with ⟨stack, stack'⟩ | ⟨f, rest, f', rest', stack, stack', twin⟩
  · left
    simp [World.emission?, notice?, stack, stack']
  · cases twin with
    | perform same =>
      cases same with
      | rigid rigid => exact .inl ⟨emission?_of_isRigid stack rigid, emission?_of_isRigid stack' rigid⟩
      | emit name same =>
        -- without disregard both emit at one moment, by clocks that are akin
        refine .inr ⟨_, _, emission?_emit stack, emission?_emit stack', rfl, fun heeded => ?_⟩
        obtain ⟨rfl, rfl⟩ := same heeded
        rw [h.now]
      | line same =>
        rw [World.emission?, World.emission?, notice?, notice?, stack, stack']
        exact cases_lineEvent? same clock
      | console | subscribe | listenNumber | listenText | watch | timer =>
        left
        simp [World.emission?, notice?, stack, stack']
    | @lines lines lines' same shown shown' =>
      rw [World.emission?, World.emission?, notice?, notice?, stack, stack']
      cases lines with
      | nil =>
        obtain rfl := List.map_eq_nil_iff.mp same.symm
        exact .inl ⟨rfl, rfl⟩
      | cons line rest =>
        obtain ⟨line', rest', rfl, first, -⟩ := List.map_eq_cons_iff.mp same.symm
        rcases Disregard.sameLine_of_line first.symm with ⟨rfl, rfl⟩ | ⟨text, text', rfl, rfl, akin⟩
        · exact .inl ⟨rfl, rfl⟩
        · exact cases_lineEvent? akin clock
    | _ =>
      left
      simp [World.emission?, notice?, stack, stack']

/-- Histories of worlds that are akin go in lockstep **as far as nothing is disregarded of what is
emitted**: the same comes from outside, and no rule reads a value that is disregarded. -/
theorem Akin.lockstep (h : Akin c stamp stamp w w') (heeded : c.contents = false)
    (inStep : InStep stamp stamp) (moves : List Move)
    (unread : ∀ past future, moves = past ++ future → c.Unread (w.after exec past)) :
    Lockstep c stamp stamp exec exec w moves w' moves := by
  have replies : c.SameReplies exec exec := fun _ _ _ => ⟨rfl, rfl⟩
  -- by induction on what comes: that no rule reads what is disregarded is known at every moment
  induction moves generalizing w w' with
  | nil => exact .nil h
  | cons m moves ih =>
    have later : ∀ past future, moves = past ++ future → c.Unread ((w.move exec m).after exec past) :=
      fun past future split => unread (m :: past) future (congrArg (m :: ·) split)
    cases m with
    | receive s => exact .receive (ih (h.receive rfl) later)
    | step =>
      refine .step h (unread [] _ rfl) (ih (h.step (unread [] _ rfl) replies inStep ?_) later)
      intro e e' emits emits'
      -- nothing is disregarded of the event, so it is one and the same
      rcases h.emission? with ⟨none, -⟩ | ⟨e₀, e₀', emits₀, emits₀', -, same⟩
      · rw [none] at emits
        cases emits
      · obtain rfl : e₀ = e := Option.some.inj (emits₀.symm.trans emits)
        obtain rfl : e₀' = e' := Option.some.inj (emits₀'.symm.trans emits')
        rw [same heeded]

/-- The **events that are emitted** in a history. -/
def emissions (exec : Executor) (w : World) (moves : List Move) : List Event :=
  World.shown exec World.emission? w moves

/-- Histories of worlds that are akin go in lockstep **as far as corresponding events are stamped
alike**: the same comes from outside and the replies are the same, what is disregarded apart. -/
theorem Akin.lockstep_of_emissions (h : Akin c stamp stamp' w w') (replies : c.SameReplies exec exec')
    (inStep : InStep stamp stamp') (heeds : ∀ s, c.values s = false)
    (same : moves.map c.move = moves'.map c.move)
    (stamped : List.Forall₂ (fun e e' => stamp e.timestamp = stamp' e'.timestamp)
      (w.emissions exec moves) (w'.emissions exec' moves')) :
    Lockstep c stamp stamp' exec exec' w moves w' moves' := by
  induction moves generalizing w w' moves' with
  | nil =>
    obtain rfl := List.map_eq_nil_iff.mp same.symm
    exact .nil h
  | cons m moves ih =>
    obtain ⟨m', rest', rfl, first, later⟩ := List.map_eq_cons_iff.mp same.symm
    have unread : c.Unread w := fun _ _ _ _ _ s _ => heeds s
    cases m with
    | receive s =>
      cases m' with
      | step => cases first
      | receive s' =>
        have one : c.stimulus s = c.stimulus s' := (Move.receive.inj first).symm
        exact .receive (ih (h.receive one) later.symm stamped)
    | step =>
      cases m' with
      | receive => cases first
      | step =>
        -- either both steps emit an event, the first of those that are left, or none does
        rw [emissions, emissions, World.shown, World.shown] at stamped
        rcases h.emission? with ⟨none, none'⟩ | ⟨e, e', emits, emits', -, -⟩
        · rw [none, none'] at stamped
          refine .step h unread (ih (h.step unread replies inStep ?_) later.symm stamped)
          intro e e' emits
          rw [none] at emits
          cases emits
        · rw [emits, emits'] at stamped
          obtain ⟨head, tail⟩ := List.forall₂_cons.mp stamped
          refine .step h unread (ih (h.step unread replies inStep ?_) later.symm tail)
          intro e₀ e₀' emits₀ emits₀'
          obtain rfl : e = e₀ := Option.some.inj (emits.symm.trans emits₀)
          obtain rfl : e' = e₀' := Option.some.inj (emits'.symm.trans emits₀')
          exact head

/-! ## 3. What is the same for the rules -/

/-- The **services called** so far, with the moments and the data, the latest first. -/
def serviceCalls (w : World) : List (Nat × String × Json) :=
  w.log.filterMap fun record =>
    match record.2 with
    | .call service data => some (record.1, service, data)
    | _ => none

/-- What is **the same for the rules** in two histories. -/
structure SameForRules (exec : Executor) (w : World) (moves : List Move) (exec' : Executor) (w' : World)
    (moves' : List Move) : Prop where
  /-- The same services are called at the same moments with the same data. -/
  calls : (w.after exec moves).serviceCalls = (w'.after exec' moves').serviceCalls
  /-- The same rules are proposed for firing at the same moments, and the same ones get a run. -/
  decisions : w.decisions exec moves = w'.decisions exec' moves'
  /-- The same runs come to their end, with the same summaries. -/
  reports : w.reports exec moves = w'.reports exec' moves'
  /-- The slots of all rules are the same in the end. -/
  slots : (w.after exec moves).registrations.map (·.slot)
    = (w'.after exec' moves').registrations.map (·.slot)
  /-- The same is recorded of rules and runs: what became of every firing, and every summary. -/
  log : (w.after exec moves).log.filter (·.2.isSteady) = (w'.after exec' moves').log.filter (·.2.isSteady)

/-- The service calls are among **the records that are kept**. -/
theorem serviceCalls_eq (w : World) :
    w.serviceCalls = (w.log.filter (·.2.isSteady)).filterMap fun record =>
      match record.2 with
      | .call service data => some (record.1, service, data)
      | _ => none := by
  rw [serviceCalls, List.filterMap_filter]
  refine List.filterMap_congr fun record _ => ?_
  obtain ⟨time, entry⟩ := record
  cases entry <;> first | rfl | simp

/-- **Histories in lockstep** are the same for the rules. -/
theorem Lockstep.sameForRules (h : Lockstep c stamp stamp' exec exec' w moves w' moves')
    (inStep : InStep stamp stamp') : SameForRules exec w moves exec' w' moves' where
  calls := by
    rw [serviceCalls_eq, serviceCalls_eq, show List.filter _ _ = List.filter _ _ from h.after.read World.log]
  decisions := h.shown fun akin unread => akin.decision? unread inStep
  reports := h.shown fun akin _ => akin.report?
  slots := by rw [h.after.registrations]
  log := h.after.read World.log

end World

end RuleDispatch
