import RuleDispatch.Proofs.Runs.Timetable
import RuleDispatch.Proofs.Slots.Accounting

/-! # Restart mode keeps the newest run only

In restart mode a new run takes the place of the one before. The earlier one may still be on its
way — in a wait, in a service call, not yet begun — but from then on it begins nothing: a run begins
calls and waits only while it is the latest of its rule. The latest run on the other hand is never
cancelled by the rule, so it does what it would do alone.

* `World.beginnings` — the generations of the runs that begin calls and waits.
* `World.Sound.generation_eq_of_begins` — who begins something is of the latest generation.
* `World.Restarts` — what restart mode means for the runs of a rule.
* `restart_keeps_newest` — it means so in every world that can be reached. -/

namespace RuleDispatch

/-- The generation of the run of a rule that **begins a call or a wait** with a stride. -/
def Stride.generation? (index : Nat) (s : Stride) : Option Nat :=
  match s.run.owner with
  | .rule place generation =>
    if place = index ∧ s.demand.begins = true then some generation else none
  | .label _ => none

/-- A run begins something for a rule when it is one of the rule's runs. -/
theorem Stride.generation?_eq_some {index generation : Nat} {s : Stride} :
    s.generation? index = some generation
      ↔ s.run.owner = .rule index generation ∧ s.demand.begins = true := by
  unfold generation?
  cases s.run.owner with
  | label label => simp
  | rule place given =>
    by_cases here : place = index <;> simp [here, and_comm]

/-- A run that was cancelled **begins nothing** with its next step. -/
theorem Progress.begins_next_true (p : Progress) : (p.next true).1.begins = false := by
  obtain ⟨agenda, s⟩ := p
  match agenda with
  | [] => rfl
  | .list [] :: rest => rfl
  | .loop 0 actions :: rest => rfl
  | .loop (count + 1) actions :: rest => rfl
  | .list (action :: actions) :: rest =>
    have halts : (s.checkHalt true).halted = true := by
      cases halted : s.halted <;> simp [Summary.checkHalt, halted]
    unfold next
    dsimp only
    rw [if_pos halts]
    rfl

namespace World

variable {exec : Executor} {w : World}

/-- The **generations of the runs of a rule that begin calls and waits** in a history, one after
another. -/
def beginnings (exec : Executor) (w : World) (moves : List Move) (index : Nat) : List Nat :=
  (w.strides exec moves).filterMap (Stride.generation? index)

/-! ## 1. One stride -/

/-- In restart mode, **who begins something is of the latest generation**. -/
theorem Sound.generation_eq_of_begins (sound : Sound w) {index generation : Nat}
    {r : Registration} (entry : w.held? index = some r) (mode : r.rule.mode = .restart)
    {s : Stride} (stride : w.stride? = some s) (begins : s.generation? index = some generation) :
    generation = (w.slot index).generation := by
  obtain ⟨owner, begun⟩ := Stride.generation?_eq_some.mp begins
  have tallies := sound.tallies index r entry
  obtain ⟨held, member, rfl⟩ : ∃ held ∈ w.runs, s = held.nextStride w.now w.calls := by
    unfold stride? at stride
    split at stride
    · obtain ⟨held, found, rfl⟩ := Option.map_eq_some_iff.mp stride
      exact ⟨held, List.mem_of_find?_eq_some found, rfl⟩
    · cases stride
  have token : held.token? index = some ⟨held.id, generation, held.cancelled⟩ :=
    Run.token?_eq_some.mpr ⟨owner, rfl, rfl⟩
  have there := mem_tokens.mpr ⟨held, member, token⟩
  -- who begins something is not cancelled, and those of earlier generations are
  have uncancelled : held.cancelled = false := by
    refine Bool.eq_false_iff.mpr fun cancelled => ?_
    rw [Run.nextStride, cancelled, Progress.begins_next_true] at begun
    cases begun
  have bounded := (tallies.bounded _ there).2
  have latest : ¬ generation < r.slot.generation := by
    intro earlier
    have := (tallies.cancelled _ there).mpr ⟨mode, earlier⟩
    rw [uncancelled] at this
    cases this
  rw [slot_of_entry entry]
  show generation = r.slot.generation
  exact Nat.le_antisymm bounded (Nat.not_lt.mp latest)

/-! ## 2. A history -/

/-- Generations **only grow**. -/
theorem Sound.generation_le (sound : Sound w) (exec : Executor) (moves : List Move) (index : Nat) :
    (w.slot index).generation ≤ ((w.after exec moves).slot index).generation := by
  rw [(sound.accounts exec moves index).1]
  exact Nat.le_add_right _ _

/-- The runs that begin are those of **the one part**, and then those of the other. -/
theorem beginnings_append (past future : List Move) (index : Nat) :
    w.beginnings exec (past ++ future) index
      = w.beginnings exec past index ++ (w.after exec past).beginnings exec future index := by
  rw [beginnings, strides, shown_append, List.filterMap_append]
  rfl

/-- From now on **no earlier run begins anything**. -/
theorem Sound.le_of_mem_beginnings (sound : Sound w) {index : Nat} {r : Registration}
    (entry : w.held? index = some r) (mode : r.rule.mode = .restart) {moves : List Move}
    {generation : Nat} (member : generation ∈ w.beginnings exec moves index) :
    (w.slot index).generation ≤ generation := by
  obtain ⟨s, taken, begins⟩ := List.mem_filterMap.mp member
  obtain ⟨past, future, rfl, stride⟩ := exists_of_mem_shown taken
  have grows : Grows w (w.after exec past) := sound.grows_after past
  obtain ⟨r', entry', rule, -⟩ := grows index r entry
  rw [(sound.after past).generation_eq_of_begins entry' (rule ▸ mode) stride begins]
  exact sound.generation_le exec past index

/-- The generations of those who begin something **never decrease**. -/
theorem Sound.pairwise_beginnings (sound : Sound w) {index : Nat} {r : Registration}
    (entry : w.held? index = some r) (mode : r.rule.mode = .restart) (moves : List Move) :
    (w.beginnings exec moves index).Pairwise (· ≤ ·) := by
  induction moves generalizing w r with
  | nil => exact .nil
  | cons m moves ih =>
    have moved := sound.move exec m
    have later := sound.of_moved moved
    obtain ⟨r', entry', rule, -⟩ := moved.grows index r entry
    have split : w.beginnings exec (m :: moves) index
        = w.beginnings exec [m] index ++ (w.move exec m).beginnings exec moves index :=
      beginnings_append [m] moves index
    rw [split]
    -- what begins in one step is of the generation that the slot has then
    have first : ∀ g ∈ w.beginnings exec [m] index, g = (w.slot index).generation := by
      intro g member
      obtain ⟨s, taken, begins⟩ := List.mem_filterMap.mp member
      cases m with
      | receive => cases taken
      | step =>
        have stride : w.stride? = some s := by
          rw [strides, shown, shown_nil, List.append_nil] at taken
          exact Option.mem_toList.mp taken
        exact sound.generation_eq_of_begins entry mode stride begins
    refine List.pairwise_append.mpr ⟨?_, ih later entry' (rule ▸ mode), fun g now g' after => ?_⟩
    · exact List.Pairwise.imp_of_mem (fun a b _ => Nat.le_of_eq ((first _ a).trans (first _ b).symm))
        (List.pairwise_of_forall (R := fun _ _ => True) fun _ _ => trivial)
    -- the slot may have moved on meanwhile, and whoever begins later is of its generation at least
    · rw [first g now]
      refine Nat.le_trans (sound.generation_le exec [m] index) ?_
      exact later.le_of_mem_beginnings entry' (rule ▸ mode) after

/-! ## 3. Runs that are not cancelled -/

/-- A run of a rule that is not cancelled is **never cancelled** as long as no firing of the rule is
accepted. -/
theorem Sound.neverCancelled_of_unfired (sound : Sound w) {id index generation : Nat} {r : Run}
    (found : w.run? id = some r) (owner : r.owner = .rule index generation)
    (uncancelled : r.cancelled = false) {moves : List Move}
    (none : (w.acceptances exec moves).count index = 0) : NeverCancelled exec w moves id := by
  rintro past future rfl r' later
  have sound' : Sound (w.after exec past) := sound.after past
  have still : ((w.after exec past).slot index).generation = (w.slot index).generation := by
    rw [acceptances, shown_append, List.count_append] at none
    rw [(sound.accounts exec past index).1, acceptances, Nat.eq_zero_of_add_eq_zero_right none]
    rfl
  have member := List.mem_of_find?_eq_some found
  have there := (isSome_held?_iff _ _).mpr (sound.owned r member index _ owner)
  obtain ⟨held, entry⟩ := Option.isSome_iff_exists.mp there
  have grows : Grows w (w.after exec past) := sound.grows_after past
  obtain ⟨held', entry', rule, -⟩ := grows index held entry
  rw [slot_of_entry entry, slot_of_entry entry'] at still
  have token : r.token? index = some ⟨r.id, generation, r.cancelled⟩ :=
    Run.token?_eq_some.mpr ⟨owner, rfl, rfl⟩
  have token' : r'.token? index = some ⟨r'.id, generation, r'.cancelled⟩ :=
    Run.token?_eq_some.mpr ⟨(sound.owner_course found later).trans owner, rfl, rfl⟩
  -- whether a run is cancelled hangs on the mode and on the generations only
  have before := (sound.tallies index held entry).cancelled _ (mem_tokens.mpr ⟨r, member, token⟩)
  have after := (sound'.tallies index held' entry').cancelled _
    (mem_tokens.mpr ⟨r', List.mem_of_find?_eq_some later, token'⟩)
  rw [rule, still] at after
  rw [← uncancelled]
  exact Bool.eq_iff_iff.mpr (after.trans before.symm)

/-- A run that was cancelled **begins nothing** any more. -/
theorem Sound.begins_of_cancelled (sound : Sound w) {id : Nat} {r : Run}
    (found : w.run? id = some r) (cancelled : r.cancelled = true) {moves : List Move} {s : Stride}
    (member : s ∈ w.stridesOf exec moves id) : s.demand.begins = false := by
  -- along the course of the run: it has begun nothing, and it stays marked
  let kept : List Stride → Option Run → Prop := fun taken run =>
    (∀ s ∈ taken, s.demand.begins = false) ∧ ∀ r ∈ run, r.cancelled = true
  have start : kept [] (w.run? id) := by
    refine ⟨by simp, fun r' here => ?_⟩
    rw [found] at here
    rw [← Option.some.inj here, cancelled]
  have all : kept ([] ++ w.stridesOf exec moves id) ((w.after exec moves).run? id) := by
    refine sound.course (Q := fun _ => True) (sound.lt_of_run? found) (fun _ _ _ _ _ => trivial)
      (fun {taken more run later} _ move h => ?_) [] start
    obtain ⟨idle, marked⟩ := h
    cases move with
    | absent => exact ⟨by simpa using idle, by simp⟩
    | panics => exact ⟨by simpa using idle, by simp⟩
    | stays r mark =>
      refine ⟨by simpa using idle, fun r' here => ?_⟩
      rw [← Option.some.inj here]
      show (r.cancelled || mark) = true
      rw [marked r rfl, Bool.true_or]
    | waits r | notices r =>
      refine ⟨by simpa using idle, fun r' here => ?_⟩
      rw [← Option.some.inj here]
      exact marked r rfl
    | strides r time calls phase unfinished =>
      -- a run that is marked demands nothing that begins
      refine ⟨fun s member => ?_, fun r' here => ?_⟩
      · rcases List.mem_append.mp member with before | new
        · exact idle s before
        · rw [List.mem_singleton.mp new, Run.nextStride, marked r rfl]
          exact r.progress.begins_next_true
      · rw [← Option.some.inj here]
        exact marked r rfl
    | finishes r time calls nothing =>
      refine ⟨fun s member => ?_, by simp⟩
      rcases List.mem_append.mp member with before | new
      · exact idle s before
      · rw [List.mem_singleton.mp new, Run.nextStride, marked r rfl]
        exact r.progress.begins_next_true
  exact all.1 s member

/-- A run that was cancelled **makes no call** any more. -/
theorem Sound.calls_of_cancelled (sound : Sound w) {id : Nat} {r : Run}
    (found : w.run? id = some r) (cancelled : r.cancelled = true) (moves : List Move) :
    (w.deedsOf exec moves id).filterMap (·.2.call?) = [] := by
  rw [calls_deedsOf]
  refine List.filterMap_eq_nil_iff.mpr fun s member => ?_
  have nothing := sound.begins_of_cancelled found cancelled member
  cases demand : s.demand with
  | call service data =>
    rw [demand] at nothing
    cases nothing
  | nothing | wait | stop | finish => rfl

/-- **A firing that is accepted** begins a run of the next generation. -/
theorem Sound.begun_step (sound : Sound w) (exec : Executor) {index : Nat} {r : Registration}
    (registered : w.registrations[index]? = some r) (accepted : w.accepted? = some index) :
    (w.step exec).Begun w.nextRun (.rule index (r.slot.generation + 1)) r.rule.actions := by
  obtain ⟨firing, takes⟩ := Option.filter_eq_some_iff.mp accepted
  rw [registered, Option.any_some] at takes
  have numbered' := (sound.move exec .step).numbered
  have kind := stepKind exec w
  rw [firing] at kind
  generalize w.ending? = ended at kind
  cases kind with
  | @acts u _ same registrations store done =>
    cases done with
    -- what else the step does before the firing leaves the rule and the store as they were
    | @fires v _ frames plain same' registrations' store' done =>
      have there : v.registrations[index]? = some r := by
        rw [registrations', registrations, registered]
      have takes' : v.takes r = true := by rw [← takes, World.takes, World.takes, store', store]
      have nextRun : v.nextRun = w.nextRun :=
        (congrArg Ledger.nextRun same').trans (congrArg Ledger.nextRun same)
      rw [ledger_fire v there, takes', if_pos rfl, ledger_startRun, nextRun] at done
      have runs : (w.step exec).runs = _ ++ _ := congrArg Ledger.runs done
      have ready : (w.step exec).ready = _ ++ _ := congrArg Ledger.ready done
      refine ⟨?_, ?_⟩
      · have new := runs ▸ List.mem_append_right _ (List.mem_singleton_self _)
        exact numbered'.run?_eq_some new
      · rw [ready]
        exact List.mem_append_right _ (List.mem_singleton_self _)

/-- That run is **never cancelled** as long as no later firing is accepted. -/
theorem Sound.neverCancelled_of_accepted (sound : Sound w) {index : Nat} {r : Registration}
    (registered : w.registrations[index]? = some r) (accepted : w.accepted? = some index)
    {moves : List Move} (none : ((w.step exec).acceptances exec moves).count index = 0) :
    NeverCancelled exec (w.step exec) moves w.nextRun := by
  have later : Sound (w.step exec) := sound.of_moved (sound.move exec .step)
  exact later.neverCancelled_of_unfired (sound.begun_step exec registered accepted).run rfl rfl none

/-! ## 4. What restart mode means -/

/-- What **restart mode** means for the runs of a rule, from here on. -/
structure Restarts (w : World) (exec : Executor) (index : Nat) (r : Registration) : Prop where
  /-- The run of the latest generation is the one that is not cancelled. -/
  alive : ∀ t ∈ w.tokens index, t.cancelled = false ↔ t.generation = r.slot.generation
  /-- There is at most one. -/
  single : ((w.tokens index).filter (!·.cancelled)).length ≤ 1
  /-- Runs of earlier generations begin no call and no wait any more. -/
  earlier : ∀ moves, ∀ g ∈ w.beginnings exec moves index, r.slot.generation ≤ g
  /-- So generations never decrease. -/
  ordered : ∀ moves, (w.beginnings exec moves index).Pairwise (· ≤ ·)
  /-- Of the runs accepted before any stride only the last begins anything. -/
  burst : ∀ burst moves, w.strides exec burst = [] →
    ∀ g ∈ w.beginnings exec (burst ++ moves) index,
      r.slot.generation + (w.acceptances exec burst).count index ≤ g
  /-- A firing accepted next begins a run, which is not cancelled before a later one is accepted and
  does what its actions say. -/
  accepted : w.accepted? = some index → ∀ moves,
    ((w.step exec).acceptances exec moves).count index = 0 →
    NeverCancelled exec (w.step exec) moves w.nextRun
    ∧ (w.step exec).Follows exec moves w.nextRun (.rule index (r.slot.generation + 1)) r.rule.actions
  /-- A firing whose conditions do not hold cancels nothing. -/
  refused : w.firing? = some index → allHold w.store.reading r.rule.conditions = false →
    (w.step exec).runs = w.runs

/-- In a sound world **restart mode means this** for every rule. -/
theorem Sound.restarts (sound : Sound w) (exec : Executor) {index : Nat} {r : Registration}
    (registered : w.registrations[index]? = some r) (mode : r.rule.mode = .restart) :
    w.Restarts exec index r := by
  have entry : w.held? index = some r.bare := held?_of_registration registered
  have slot : w.slot index = r.slot := slot_of_registration registered
  have tallies : r.slot.Tallies .restart (w.tokens index) := by
    simpa [mode] using sound.tallies index r.bare entry
  have alive : ∀ t ∈ w.tokens index, t.cancelled = false ↔ t.generation = r.slot.generation := by
    intro t member
    have bounded := (tallies.bounded t member).2
    rw [← Bool.not_eq_true, tallies.cancelled t member]
    simp only [true_and]
    omega
  refine
    { alive
      single := ?_
      earlier := fun moves g member => slot ▸ sound.le_of_mem_beginnings entry mode member
      ordered := fun moves => sound.pairwise_beginnings entry mode moves
      burst := fun burst moves none g member => ?_
      accepted := fun accepted moves none => ?_
      refused := fun firing unmet => ?_ }
  -- two tokens that live would both have the latest generation, though generations ascend
  · have generations : ((w.tokens index).filter (!·.cancelled)).Pairwise
        fun a b => a.generation < b.generation :=
      (tallies.ascending.imp And.left).filter _
    match left : (w.tokens index).filter (!·.cancelled) with
    | [] => rw [left]; exact Nat.zero_le 1
    | [_] => rw [left]; exact Nat.le_refl 1
    | a :: b :: rest =>
      have latest (t : Token) (member : t ∈ a :: b :: rest) :
          t.generation = r.slot.generation := by
        rw [← left, List.mem_filter] at member
        exact (alive t member.1).mp (by simpa using member.2)
      rw [left] at generations
      have less := List.rel_of_pairwise_cons generations (List.mem_cons_self (a := b))
      have first := latest a List.mem_cons_self
      have second := latest b (List.mem_cons_of_mem _ List.mem_cons_self)
      omega
  · have grows : Grows w (w.after exec burst) := sound.grows_after burst
    obtain ⟨r', entry', rule, -⟩ := grows index _ entry
    -- nothing begins in the burst, so whatever begins is as new as the burst left the slot
    have nothing : w.beginnings exec burst index = [] := by rw [beginnings, none]; rfl
    rw [beginnings_append, nothing, List.nil_append] at member
    rw [← slot, ← (sound.accounts exec burst index).1]
    exact (sound.after burst).le_of_mem_beginnings entry' (rule ▸ mode) member
  · have begun := sound.begun_step exec registered accepted
    have later : Sound (w.step exec) := sound.of_moved (sound.move exec .step)
    have never := sound.neverCancelled_of_accepted registered accepted none
    exact ⟨never, later.follows begun never⟩
  · have refused : w.takes r = false := by rw [takes, unmet, Bool.and_false, Bool.false_and]
    obtain ⟨stack, same⟩ := ledger_step_of_refused exec firing registered refused
    exact congrArg Ledger.runs same

end World

/-- **Restart mode keeps the newest run only.** In every world that can be reached, a run of an
earlier generation begins no call and no wait any more, whatever happens next, and only the run of
the latest generation is not cancelled. A firing that is accepted begins such a run, and until the
next is accepted it makes the calls of its actions, in an orderly history at the moments at which
it would make them alone. -/
theorem restart_keeps_newest (exec : Executor) (wallClock : Timestamp) (past : List Move)
    (w : World) (reached : w = (World.empty wallClock).after exec past) (index : Nat)
    (r : Registration) (registered : w.registrations[index]? = some r)
    (mode : r.rule.mode = .restart) :
    w.Restarts exec index r
    ∧ (w.accepted? = some index → ∀ moves,
      ((w.step exec).acceptances exec moves).count index = 0 →
      Orderly exec (.empty wallClock) (past ++ .step :: moves) → ∀ answers : Nat → Response,
      (∀ s ∈ (w.step exec).stridesOf exec moves w.nextRun, s.Answered exec answers) →
      (w.step exec).Punctual exec moves w.nextRun
        (schedule ((w.step exec).wakes moves) answers (w.step exec).now 0
          (Action.unrollAll r.rule.actions))) := by
  have sound : World.Sound w := reached ▸ (World.sound_empty wallClock).after past
  refine ⟨sound.restarts exec registered mode, ?_⟩
  intro accepted moves none orderly answers answered
  obtain ⟨before, after⟩ := orderly_append.mp orderly
  rw [← reached] at after
  have poised : World.Poised w :=
    reached ▸ (World.poised_empty wallClock).after (World.sound_empty wallClock) before
  have poised' := poised.step sound exec
  have sound' : World.Sound (w.step exec) := sound.of_moved (sound.move exec .step)
  exact poised'.punctual sound' after (sound.begun_step exec registered accepted)
    (sound.neverCancelled_of_accepted registered accepted none) answered

/-- A light in restart mode that is triggered twice: when its second firing is accepted, the run that
waits begins nothing any more, and only the second turns the light on. -/
theorem restart_keeps_newest_light :
    ∃ w r, w = (World.empty .first).after noEffects
        (Move.played (.operation (.register (some (nightLight .restart)))) 1
          ++ Move.played (.operation (.trigger "light")) 1
          ++ Move.played (.advance 1) 6
          ++ Move.played (.operation (.trigger "light")) 1)
      ∧ w.registrations[0]? = some r ∧ r.slot.generation = 2
      ∧ ∀ moves, ∀ g ∈ w.beginnings noEffects moves 0, 2 ≤ g := by
  refine ⟨_, _, rfl, rfl, rfl, ?_⟩
  have restarts := restart_keeps_newest noEffects .first
    (Move.played (.operation (.register (some (nightLight .restart)))) 1
      ++ Move.played (.operation (.trigger "light")) 1
      ++ Move.played (.advance 1) 6
      ++ Move.played (.operation (.trigger "light")) 1) _ rfl 0 _ rfl rfl
  exact restarts.1.earlier

end RuleDispatch
