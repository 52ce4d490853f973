import RuleDispatch.Proofs.Slots.Moves

/-! # Slots account for runs

The slot of a rule is a counter, a generation and the active run; what it stands for is the runs of
the rule that go on. Along every history the generations that were given out are those of the runs
that are over and of those that go on, each once, so no end of a run is ever counted twice or
missed. In single mode this means that a rule never has two runs.

* `World.acceptances`, `World.endedTokens` — the firings accepted and the runs over in a history.
* `World.Accounted` — what the slot of a rule says about its runs.
* `World.Sound.accounted` — it says so after every history. -/

namespace RuleDispatch

namespace World

/-- The rules whose firings are **accepted in a history**, one after another. -/
def acceptances (exec : Executor) (w : World) (moves : List Move) : List Nat :=
  shown exec accepted? w moves

/-- The tokens of the runs of a registration that are **over in a history**. -/
def endedTokens (exec : Executor) (w : World) (moves : List Move) (index : Nat) : List Token :=
  (w.ended exec moves).filterMap (·.token? index)

/-! ## 1. One move -/

/-- A run that is due to end goes on until then. -/
theorem mem_runs_of_endedBy {w : World} {m : Move} {r : Run} (h : w.endedBy m = some r) :
    r ∈ w.runs := by
  cases m with
  | receive s => cases h
  | step =>
    change w.ending? = some r at h
    unfold ending? at h
    split at h
    · exact List.mem_of_find?_eq_some (Option.filter_eq_some_iff.mp h).1
    · exact List.mem_of_find?_eq_some h
    · cases h

/-- A rule whose firing is accepted is there. -/
theorem exists_entry_of_acceptedBy {w : World} {m : Move} {index : Nat}
    (h : w.acceptedBy m = some index) : ∃ r, w.held? index = some r := by
  cases m with
  | receive s => cases h
  | step =>
    have taken := (Option.filter_eq_some_iff.mp h).2
    cases registered : w.registrations[index]? with
    | none => simp [registered] at taken
    | some r => exact ⟨r.bare, held?_of_registration registered⟩

/-- What one move does to the slot **in any place**, whether there is a rule or not. -/
theorem Sound.slotMove {w : World} (sound : Sound w) (exec : Executor) (m : Move) (index : Nat) :
    ∃ mode, (w.slot index).Tallies mode (w.tokens index)
      ∧ SlotMove mode w.nextRun (w.slot index) (w.tokens index) (w.acceptedBy m = some index)
        ((w.endedBy m).bind (·.token? index)) ((w.move exec m).slot index)
        ((w.move exec m).tokens index) := by
  have moved := sound.move exec m
  cases later : (w.move exec m).held? index with
  | some r' =>
    refine ⟨r'.rule.mode, sound.tallies_slot moved.grows later, ?_⟩
    rw [slot_of_entry later]
    exact moved.slots index r' later
  | none =>
    -- a place that is not taken afterwards was not taken before
    have before : w.held? index = none := by
      refine Option.eq_none_iff_forall_ne_some.mpr fun r entry => ?_
      obtain ⟨r', there, -⟩ := moved.grows index r entry
      rw [later] at there
      cases there
    have accepted : w.acceptedBy m ≠ some index := by
      intro taken
      obtain ⟨r, there⟩ := exists_entry_of_acceptedBy taken
      rw [before] at there
      cases there
    have tokens := sound.tokens_eq_nil before
    have ended : (w.endedBy m).bind (·.token? index) = none := by
      refine Option.eq_none_iff_forall_ne_some.mpr fun t closed => ?_
      obtain ⟨r, ending, token⟩ := Option.bind_eq_some_iff.mp closed
      have member := mem_tokens.mpr ⟨r, mem_runs_of_endedBy ending, token⟩
      rw [tokens] at member
      cases member
    have idle : w.slot index = {} := by rw [slot, before]; rfl
    refine ⟨.single, ?_, ?_⟩
    · rw [idle, tokens]
      exact RunSlot.tallies_idle _
    · rw [ended, tokens, idle, slot, later, moved.numbered.tokens_eq_nil later,
        decide_eq_false accepted]
      exact .still

/-! ## 2. A history -/

/-- What is accepted in a history is what is accepted **at its first move**, and then later. -/
theorem acceptances_cons (exec : Executor) (w : World) (m : Move) (moves : List Move) :
    w.acceptances exec (m :: moves)
      = (w.acceptedBy m).toList ++ (w.move exec m).acceptances exec moves := by
  cases m <;> rfl

/-- The tokens that end in a history are those that end **at its first move**, and then later. -/
theorem endedTokens_cons (exec : Executor) (w : World) (m : Move) (moves : List Move)
    (index : Nat) :
    w.endedTokens exec (m :: moves) index
      = ((w.endedBy m).bind (·.token? index)).toList
        ++ (w.move exec m).endedTokens exec moves index := by
  cases m with
  | receive s => rfl
  | step =>
    have first : w.ending?.toList.filterMap (·.token? index)
        = (w.ending?.bind (·.token? index)).toList := by
      cases w.ending? with
      | none => rfl
      | some r => cases token : r.token? index <;> simp [token]
    calc (w.ending?.toList ++ (w.step exec).ended exec moves).filterMap (·.token? index)
        = w.ending?.toList.filterMap (·.token? index)
            ++ (w.step exec).endedTokens exec moves index := List.filterMap_append
      _ = _ := by rw [first]; rfl

/-- Whether a rule is the one accepted, as a count. -/
theorem count_toList (accepted : Option Nat) (index : Nat) :
    accepted.toList.count index = (decide (accepted = some index)).toNat := by
  cases accepted with
  | none => rfl
  | some other => by_cases same : other = index <;> simp [same]

/-- **Generations are given out one by one**, and every one that was given out belongs to one run,
over or going on. -/
theorem Sound.accounts {w : World} (sound : Sound w) (exec : Executor) (moves : List Move)
    (index : Nat) :
    ((w.after exec moves).slot index).generation
        = (w.slot index).generation + (w.acceptances exec moves).count index
    ∧ List.Perm
        ((w.endedTokens exec moves index ++ (w.after exec moves).tokens index).map (·.generation))
        ((w.tokens index).map (·.generation)
          ++ List.range' ((w.slot index).generation + 1) ((w.acceptances exec moves).count index)) := by
  induction moves generalizing w with
  | nil => simp [acceptances, endedTokens, ended]
  | cons m moves ih =>
    obtain ⟨mode, tallies, change⟩ := sound.slotMove exec m index
    obtain ⟨generation, perm⟩ := ih (sound.of_moved (sound.move exec m))
    rw [acceptances_cons, endedTokens_cons, after_cons, List.count_append, count_toList]
    generalize (w.move exec m).slot index = slot', (w.move exec m).tokens index = tokens',
      (w.endedBy m).bind (·.token? index) = closed, decide (w.acceptedBy m = some index) = accepted
      at change generation perm ⊢
    cases change with
    | still =>
      rw [Bool.toNat_false, Nat.zero_add]
      exact ⟨generation, perm⟩
    | accepts _ =>
      have kept : (yieldTokens (w.tokens index) ((w.slot index).preempts mode)).map (·.generation)
          = (w.tokens index).map (·.generation) := by
        cases (w.slot index).preempts mode with
        | none => rfl
        | some id =>
          rw [yieldTokens, List.map_map]
          exact List.map_congr_left fun t _ => Token.generation_cancelIf id t
      rw [RunSlot.generation_begin] at generation perm
      rw [Bool.toNat_true, Nat.add_comm 1, List.range'_succ]
      refine ⟨by omega, perm.trans (List.Perm.of_eq ?_)⟩
      rw [List.map_append, kept, List.append_assoc]
      rfl
    | @ends t member =>
      rw [Bool.toNat_false, Nat.zero_add]
      refine ⟨generation, ?_⟩
      -- the generation of the run that is over moves from those going on to those over
      have split : ((w.tokens index).map (·.generation)).Perm
          (t.generation :: ((w.tokens index).filter (·.run ≠ t.run)).map (·.generation)) := by
        rw [tallies.filter_run_eq_erase member]
        exact (List.perm_cons_erase member).map _
      calc ([t] ++ (w.move exec m).endedTokens exec moves index
            ++ ((w.move exec m).after exec moves).tokens index).map (·.generation)
          = t.generation :: ((w.move exec m).endedTokens exec moves index
              ++ ((w.move exec m).after exec moves).tokens index).map (·.generation) := rfl
        List.Perm _ _ := perm.cons t.generation
        List.Perm _ _ := (split.append_right _).symm

/-! ## 3. What a slot says -/

/-- What the **slot of a rule** says about the runs of the rule that go on, and what firing the rule
next comes to. -/
structure Accounted (exec : Executor) (w : World) (index : Nat) (r : Registration) : Prop where
  /-- It counts them. -/
  running : r.slot.running = (w.tokens index).length
  /-- A run that is over was counted until then. -/
  released : ∀ t, w.ending?.bind (·.token? index) = some t →
    t ∈ w.tokens index ∧ ((w.step exec).slot index).running + 1 = r.slot.running
  /-- It holds the latest run exactly while that one goes on. -/
  active : ∀ id, r.slot.active = some id
    ↔ ∃ t ∈ w.tokens index, t.run = id ∧ t.generation = r.slot.generation
  /-- Otherwise it holds none. -/
  inactive : r.slot.active = none ↔ ∀ t ∈ w.tokens index, t.generation ≠ r.slot.generation
  /-- It is running while a run goes on. -/
  isRunning : r.slot.isRunning = true ↔ w.tokens index ≠ []
  /-- So is the rule, as far as it is registered. -/
  ruleRunning : ∀ id, w.ruleIndex? id = some index →
    (w.isRunning id = true ↔ w.tokens index ≠ [])
  /-- In single mode at most one run goes on. -/
  single : r.rule.mode = .single → (w.tokens index).length ≤ 1
  /-- In single mode a firing whose conditions hold starts a run exactly when none goes on. -/
  singleFiring : r.rule.mode = .single → w.firing? = some index → r.disposed = false →
    allHold w.store.reading r.rule.conditions = true →
    (w.tokens index = [] →
      (w.step exec).tokens index = [⟨w.nextRun, r.slot.generation + 1, false⟩])
    ∧ (w.tokens index ≠ [] → (w.step exec).runs = w.runs)
  /-- In parallel mode it always starts one. -/
  parallelFiring : r.rule.mode = .parallel → w.firing? = some index → r.disposed = false →
    allHold w.store.reading r.rule.conditions = true →
    (w.step exec).tokens index
      = w.tokens index ++ [⟨w.nextRun, r.slot.generation + 1, false⟩]
  /-- In these two modes no run is ever cancelled. -/
  uncancelled : r.rule.mode ≠ .restart → ∀ t ∈ w.tokens index, t.cancelled = false

/-- **A firing that is accepted** starts a run, and the one that gives way is cancelled. -/
theorem Sound.tokens_step_of_takes {w : World} (sound : Sound w) (exec : Executor) {index : Nat}
    {r : Registration} (registered : w.registrations[index]? = some r)
    (firing : w.firing? = some index) (takes : w.takes r = true) :
    (w.step exec).tokens index
      = yieldTokens (w.tokens index) (r.slot.preempts r.rule.mode)
        ++ [⟨w.nextRun, r.slot.generation + 1, false⟩] := by
  have entry : w.held? index = some r.bare := held?_of_registration registered
  have moved := sound.move exec .step
  obtain ⟨r', later, rule, -⟩ := moved.grows index _ entry
  have accepted : w.acceptedBy .step = some index := by
    show w.acceptedOf w.firing? = some index
    rw [firing, acceptedOf, Option.filter_some, registered, Option.any_some, takes]
    rfl
  have change := moved.slots index r' later
  rw [accepted, slot_of_entry entry, rule, decide_eq_true rfl] at change
  exact change.of_accepted.2

/-- In a sound world **every slot accounts** for the runs of its rule. -/
theorem Sound.accounted {w : World} (sound : Sound w) (exec : Executor) {index : Nat}
    {r : Registration} (registered : w.registrations[index]? = some r) :
    Accounted exec w index r := by
  have entry : w.held? index = some r.bare := held?_of_registration registered
  have slot : w.slot index = r.slot := slot_of_registration registered
  have tallies : r.slot.Tallies r.rule.mode (w.tokens index) := by
    simpa using sound.tallies index r.bare entry
  refine
    { running := tallies.running
      released := fun t closed => ?_
      active := tallies.active
      inactive := tallies.active_eq_none_iff
      isRunning := tallies.isRunning_iff
      ruleRunning := fun id found => ?_
      single := tallies.single
      singleFiring := fun mode firing live hold => ?_
      parallelFiring := fun mode firing live hold => ?_
      uncancelled := fun mode t member => ?_ }
  -- the step ends this run, so its move counts the slot down by one
  · obtain ⟨mode, -, change⟩ := sound.slotMove exec .step index
    have ended : (w.endedBy .step).bind (·.token? index) = some t := closed
    rw [ended, slot] at change
    obtain ⟨member, after, -⟩ := change.of_ended
    have counted : 0 < r.slot.running := tallies.running ▸ List.length_pos_of_mem member
    refine ⟨member, ?_⟩
    have one : ((w.step exec).slot index).running = r.slot.running - 1 := congrArg (·.running) after
    omega
  · rw [World.isRunning, found, Option.bind_some, registered]
    exact tallies.isRunning_iff
  · rw [mode] at tallies
    have takes : w.takes r = r.slot.accepts .single := by rw [World.takes, live, hold, mode]; rfl
    constructor
    -- nothing of the rule runs, so the firing is taken
    · intro none
      rw [sound.tokens_step_of_takes exec registered firing
        (takes.trans (tallies.accepts_single_iff.mpr none)), none, mode]
      rfl
    · intro some
      -- something of the rule runs, so the firing is refused and the runs stay as they are
      have refused : w.takes r = false :=
        takes.trans (Bool.eq_false_iff.mpr (some ∘ tallies.accepts_single_iff.mp))
      obtain ⟨stack, same⟩ := ledger_step_of_refused exec firing registered refused
      exact congrArg Ledger.runs same
  · have takes : w.takes r = true := by rw [World.takes, live, hold, mode]; rfl
    rw [sound.tokens_step_of_takes exec registered firing takes, mode]
    rfl
  · refine Bool.eq_false_iff.mpr fun cancelled => ?_
    exact mode ((tallies.cancelled t member).mp cancelled).1

end World

/-- **Slots account for runs.** After every history — whatever fires, in whatever order runs get on
and come to their end — the generation of a rule's slot is the number of its firings that were
accepted, each generation up to it belongs to exactly one run, over or going on, and the slot
accounts for those that go on. -/
theorem slots_account_for_runs (exec : Executor) (wallClock : Timestamp) (past : List Move)
    (index : Nat) (r : Registration)
    (registered : ((World.empty wallClock).after exec past).registrations[index]? = some r) :
    r.slot.generation = ((World.empty wallClock).acceptances exec past).count index
    ∧ List.Perm
        (((World.empty wallClock).endedTokens exec past index
          ++ ((World.empty wallClock).after exec past).tokens index).map (·.generation))
        (List.range' 1 r.slot.generation)
    ∧ ((World.empty wallClock).after exec past).Accounted exec index r := by
  have start := World.sound_empty wallClock
  have slot : (((World.empty wallClock).after exec past).slot index) = r.slot :=
    World.slot_of_registration registered
  obtain ⟨generation, perm⟩ := start.accounts exec past index
  have counted : r.slot.generation
      = ((World.empty wallClock).acceptances exec past).count index := by
    rw [← slot, generation]
    exact Nat.zero_add _
  refine ⟨counted, ?_, (start.after past).accounted exec registered⟩
  rw [counted]
  exact perm

/-- A light in single mode, with a run that waits and a second firing on its way. -/
theorem slots_account_for_runs_light :
    ∃ r, ((World.empty .first).after noEffects
        (Move.played (.operation (.register (some (nightLight .single)))) 1
          ++ Move.played (.operation (.trigger "light")) 1
          ++ Move.played (.advance 1) 6
          ++ [.receive (.operation (.trigger "light"))])).registrations[0]? = some r
      ∧ r.slot.running = 1 := by
  refine ⟨_, rfl, ?_⟩
  have accounts := slots_account_for_runs noEffects .first
    (Move.played (.operation (.register (some (nightLight .single)))) 1
      ++ Move.played (.operation (.trigger "light")) 1
      ++ Move.played (.advance 1) 6
      ++ [.receive (.operation (.trigger "light"))]) 0 _ rfl
  exact accounts.2.2.running

end RuleDispatch
