import RuleDispatch.Proofs.Runs.Heed
import RuleDispatch.Proofs.Runs.Remains

/-! # Cancellation cuts a run short

A run that may be cancelled at any moment makes the calls that it would make if it were left alone,
at the same moments, up to the moment at which it is cancelled, and none after it. From then on it
only comes to its end: at once, or when the service call that it is in returns.

* `timedCalls` — calls with their moments.
* `World.Poised.calls_prefix_outlook` — no call is made that was not to come.
* `World.LeftAlone` — the same run in a history in which nobody cancels it.
* `World.CutShort` — what a cancellation leaves of a run.
* `cancellation_cuts_short` — every run, cancelled whenever. -/

namespace RuleDispatch

/-! ## 1. Calls and their moments -/

/-- The **calls among deeds**, with their moments. -/
def timedCalls (deeds : List (Nat × Deed)) : List (Nat × Deed) :=
  deeds.filter (·.2.call?.isSome)

/-- The calls of deeds are those of the first **and then those of the others**. -/
theorem timedCalls_append (deeds more : List (Nat × Deed)) :
    timedCalls (deeds ++ more) = timedCalls deeds ++ timedCalls more :=
  List.filter_append ..

/-- Deeds up to some moment have the **calls up to that moment**. -/
theorem timedCalls_filter_le (deeds : List (Nat × Deed)) (time : Nat) :
    timedCalls (deeds.filter (·.1 ≤ time)) = (timedCalls deeds).filter (·.1 ≤ time) :=
  List.filter_comm ..

namespace World

variable {exec : Executor} {w : World}

/-- A run that was cancelled **makes no call**. -/
theorem Sound.timedCalls_of_cancelled (sound : Sound w) {id : Nat} {r : Run}
    (found : w.run? id = some r) (cancelled : r.cancelled = true) (moves : List Move) :
    timedCalls (w.deedsOf exec moves id) = [] := by
  refine List.filter_eq_nil_iff.mpr fun deed member => ?_
  have none := List.filterMap_eq_nil_iff.mp (sound.calls_of_cancelled found cancelled moves) deed member
  rw [none]
  exact Bool.false_ne_true

/-- Whenever a run is cancelled, it makes **no call that was not to come**, and each in time. -/
theorem Poised.calls_prefix_outlook (h : Poised w) (sound : Sound w) {moves : List Move}
    (orderly : Orderly exec w moves) {id : Nat} (old : id < w.nextRun) {answers : Nat → Response}
    (answered : ∀ s ∈ w.stridesOf exec moves id, s.Answered exec answers) :
    timedCalls (w.deedsOf exec moves id) <+: timedCalls (w.outlook moves answers id) := by
  induction moves generalizing w with
  | nil => exact List.nil_prefix
  | cons m moves ih =>
    by_cases marked : ∃ r, w.run? id = some r ∧ r.cancelled = true
    · obtain ⟨r, found, cancelled⟩ := marked
      rw [sound.timedCalls_of_cancelled found cancelled]
      exact List.nil_prefix
    · -- as long as it is not cancelled, the run keeps to its outlook
      have uncancelled (r : Run) (found : w.run? id = some r) : r.cancelled = false :=
        eq_false_of_ne_true fun cancelled => marked ⟨r, found, cancelled⟩
      rw [stridesOf_cons] at answered
      obtain ⟨poised, later⟩ := h.move sound exec orderly
      have moved := sound.move exec m
      have first := h.outlook_move sound orderly old uncancelled
        fun s member => answered s (List.mem_append_left _ member)
      have rest := ih poised (sound.of_moved moved) later (Nat.lt_of_lt_of_le old moved.nextRun)
        fun s member => answered s (List.mem_append_right _ member)
      rw [first, deedsOf_cons, timedCalls_append, timedCalls_append]
      exact (List.prefix_append_right_inj _).mpr rest

/-! ## 2. The same run, cancelled and left alone -/

/-- In another history **the same run is left alone**: it has the same actions, begins at the same
moment, the clock moves alike, and it is not cancelled before everything has come to rest. -/
structure LeftAlone (w : World) (exec : Executor) (moves : List Move) (actions : List Action)
    (w' : World) (exec' : Executor) (moves' : List Move) (id' : Nat) : Prop where
  /-- The other world has a history. -/
  reached : ∃ wallClock past, w' = (World.empty wallClock).after exec' past
    ∧ Orderly exec' (.empty wallClock) (past ++ moves')
  /-- The same actions were begun in it. -/
  begun : ∃ owner, w'.Begun id' owner actions
  /-- The run is not cancelled there. -/
  uncancelled : NeverCancelled exec' w' moves' id'
  /-- It began at the same moment. -/
  now : w'.now = w.now
  /-- The clock moves alike. -/
  clock : w'.clockMoves moves' = w.clockMoves moves
  /-- Everything comes to rest. -/
  rest : (w'.after exec' moves').AtRest
  /-- It goes on at least as long. -/
  long : (w.after exec moves).now ≤ (w'.after exec' moves').now

/-- What a cancellation **leaves of a run** of some actions, when nothing comes from outside before
what came before is done. -/
structure CutShort (w : World) (exec : Executor) (moves : List Move) (id : Nat)
    (actions : List Action) : Prop where
  /-- Its calls are the first ones of those to which its actions come, at the same moments. -/
  calls : ∀ answers : Nat → Response, (∀ s ∈ w.stridesOf exec moves id, s.Answered exec answers) →
    timedCalls (w.deedsOf exec moves id)
      <+: timedCalls (schedule (w.wakes moves) answers w.now 0 (Action.unrollAll actions))
  /-- They are the first ones of those that the same run makes when it is left alone. -/
  compared : ∀ answers : Nat → Response,
    (∀ s ∈ w.stridesOf exec moves id, s.Answered exec answers) →
    ∀ w' exec' moves' id', w.LeftAlone exec moves actions w' exec' moves' id' →
      (∀ s ∈ w'.stridesOf exec' moves' id', s.Answered exec' answers) →
      timedCalls (w.deedsOf exec moves id) <+: timedCalls (w'.deedsOf exec' moves' id')
  /-- Once it is cancelled, it does the one thing that remains, in time: it ends at once, or when the
  service call that it is in returns. -/
  ends : ∀ past future r, moves = past ++ future → (w.after exec past).run? id = some r →
    r.cancelled = true →
      (w.after exec past).Punctual exec future id ((w.after exec past).remains future id)

/-- A run **left alone** makes the calls to which its actions come, up to where its history ends. -/
theorem LeftAlone.calls {moves moves' : List Move} {actions : List Action} {w' : World}
    {exec' : Executor} {id' : Nat} (h : w.LeftAlone exec moves actions w' exec' moves' id')
    {answers : Nat → Response}
    (answered : ∀ s ∈ w'.stridesOf exec' moves' id', s.Answered exec' answers) :
    timedCalls (w'.deedsOf exec' moves' id')
      = (timedCalls (schedule (w.wakes moves) answers w.now 0 (Action.unrollAll actions))).filter
          (·.1 ≤ (w'.after exec' moves').now) := by
  obtain ⟨wallClock, past, reached, orderly⟩ := h.reached
  obtain ⟨owner, begun⟩ := h.begun
  obtain ⟨before, after⟩ := orderly_append.mp orderly
  rw [← reached] at after
  have sound : Sound w' := reached ▸ (sound_empty wallClock).after past
  have poised : Poised w' := reached ▸ (poised_empty wallClock).after (sound_empty wallClock) before
  have wakes : w'.wakes moves' = w.wakes moves := by
    funext d
    rw [World.wakes, World.wakes, h.now, h.clock]
  rw [(poised.punctual sound after begun h.uncancelled answered).rest h.rest, timedCalls_filter_le,
    wakes, h.now]

/-- **Every run** is cut short by a cancellation, whenever it comes. -/
theorem Poised.cutShort (h : Poised w) (sound : Sound w) (prompt : Prompt w) {moves : List Move}
    (orderly : Orderly exec w moves) {id : Nat} {owner : Owner} {actions : List Action}
    (spawned : w.Spawned id owner actions) : w.CutShort exec moves id actions := by
  obtain ⟨_, run⟩ := spawned.run
  have old := sound.lt_of_run? run
  have calls (answers : Nat → Response)
      (answered : ∀ s ∈ w.stridesOf exec moves id, s.Answered exec answers) :=
    h.outlook_spawned spawned moves answers ▸ h.calls_prefix_outlook sound orderly old answered
  refine { calls, compared := ?_, ends := ?_ }
  · intro answers answered w' exec' moves' id' alone answered'
    -- whatever was called was called by now, and the other history goes on as long
    have done : ∀ deed ∈ timedCalls (w.deedsOf exec moves id),
        deed.1 ≤ (w'.after exec' moves').now := fun deed member =>
      Nat.le_trans ((h.le_now_of_mem_deedsOf sound orderly id).2 deed (List.mem_filter.mp member).1)
        alone.long
    rw [alone.calls answered', ← List.filter_eq_self.mpr fun deed member =>
      decide_eq_true (done deed member)]
    exact (calls answers answered).filter _
  · rintro past future r rfl found cancelled
    obtain ⟨before, after⟩ := orderly_append.mp orderly
    exact (prompt.after h sound before).punctual_remains (h.after sound before)
      (sound.after past) after found cancelled

end World

/-! ## 3. Every run -/

/-- **Cancellation cuts a run short.** A run of some actions may be cancelled before its first turn,
in a wait, in a service call, or from inside one of its own service calls. Whatever else goes on, its
calls are the first ones of its unrolling, none of its calls and none of its waits begins after the
cancellation, and the summary that it records says what stopped it. In an orderly history it makes
these calls at the moments at which it makes them when it is left alone, and once it is cancelled it
ends at once, or when the service call that it is in returns. -/
theorem cancellation_cuts_short (exec : Executor) (wallClock : Timestamp) (past moves : List Move)
    (w : World) (reached : w = (World.empty wallClock).after exec past) (id : Nat) (owner : Owner)
    (actions : List Action) (spawned : w.Spawned id owner actions) :
    w.Heeded exec moves id owner actions
    ∧ (Orderly exec (.empty wallClock) (past ++ moves) → w.CutShort exec moves id actions) := by
  have sound : World.Sound w := reached ▸ (World.sound_empty wallClock).after past
  refine ⟨sound.heeded exec moves spawned, fun orderly => ?_⟩
  obtain ⟨before, after⟩ := orderly_append.mp orderly
  rw [← reached] at after
  have empty := World.sound_empty wallClock
  have poised : World.Poised w := reached ▸ (World.poised_empty wallClock).after empty before
  have prompt : World.Prompt w :=
    reached ▸ (World.prompt_empty wallClock).after (World.poised_empty wallClock) empty before
  exact poised.cutShort sound prompt after spawned

/-- A run that is cancelled in a wait ends at once, and the light stays off. -/
theorem cancellation_cuts_short_light :
    (((World.empty .first).after noEffects
        (Move.played (.operation (.run "a" (some [.wait 5, .serviceCall "on" .null]))) 1)).after
        noEffects (Move.played (.advance 2) 7 ++ Move.played (.operation (.cancel "a")) 1)).deedsOf
      noEffects (Move.played (.advance 10) 12) 0
    = [(2, .finish)] := by
  have orderly : Orderly noEffects (.empty .first)
      (Move.played (.operation (.run "a" (some [.wait 5, .serviceCall "on" .null]))) 1
        ++ ((Move.played (.advance 2) 7 ++ Move.played (.operation (.cancel "a")) 1)
          ++ Move.played (.advance 10) 12)) :=
    orderly_append.mpr ⟨orderly_played rfl _ _, orderly_append.mpr
      ⟨orderly_append.mpr ⟨orderly_played rfl _ _, orderly_played (by cbv) _ _⟩,
        orderly_played (by cbv) _ _⟩⟩
  have short := cancellation_cuts_short noEffects .first
    (Move.played (.operation (.run "a" (some [.wait 5, .serviceCall "on" .null]))) 1)
    ((Move.played (.advance 2) 7 ++ Move.played (.operation (.cancel "a")) 1)
      ++ Move.played (.advance 10) 12) _ rfl 0 (.label "a") [.wait 5, .serviceCall "on" .null]
    ⟨⟨false, rfl⟩, List.mem_singleton_self _⟩
  have punctual := (short.2 orderly).ends _ _
    { id := 0, owner := .label "a", cancelled := true, phase := .waiting 5 5,
      progress := ⟨[.list [.serviceCall "on" .null]], {}⟩ } rfl (by cbv) rfl
  exact (punctual.rest ⟨by cbv, by cbv⟩).trans (by cbv)

end RuleDispatch
