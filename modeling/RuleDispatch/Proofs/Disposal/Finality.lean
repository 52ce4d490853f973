import RuleDispatch.Proofs.Disposal.Deliveries
import RuleDispatch.Proofs.Slots.Restart

/-! # Disposing of a rule is final, and harmless

A rule that is disposed of never gets a run again, whoever disposes of it and whatever is being done
at that moment: handlers that are still called find it disposed of. The runs that it has go on as if
nothing had happened.

* `World.Retired` — what has become of a rule and of its runs.
* `World.Alike` — a run does the same in two worlds.
* `disposal_is_final_and_harmless` — so it is in every world that can be reached. -/

namespace RuleDispatch

namespace World

variable {exec : Executor} {w w' : World} {index : Nat}

/-! ## 1. Final -/

/-- A rule that is disposed of **gets no run** any more. -/
theorem Disposed.count_acceptances (h : Disposed w index) (sound : Sound w) (moves : List Move) :
    (w.acceptances exec moves).count index = 0 := by
  refine List.count_eq_zero.mpr fun member => ?_
  obtain ⟨past, future, -, accepted⟩ := exists_of_mem_shown member
  -- a firing is accepted only for a rule that is not disposed of, and this one stays so
  obtain ⟨-, r, registered, live⟩ := live_of_accepted? accepted
  obtain ⟨held, entry, disposed⟩ := h.grows (sound.grows_after past)
  rw [held?_of_registration registered] at entry
  rw [← Option.some.inj entry, Registration.disposed_bare, live] at disposed
  cases disposed

/-! ## 2. Harmless -/

/-- What spares the runs leaves **what they are going to do** as it is. -/
theorem Spares.outlook (h : Spares w w') {moves moves' : List Move}
    (clock : moves'.filterMap Move.clock? = moves.filterMap Move.clock?) (answers : Nat → Response)
    (id : Nat) : w'.outlook moves' answers id = w.outlook moves answers id := by
  have stack : w'.stack = w.stack := congrArg Ledger.stack h
  have now : w'.now = w.now := congrArg Ledger.now h
  have runs : w'.runs = w.runs := congrArg Ledger.runs h
  refine outlook_congr now (by rw [stack]) ?_ ?_
  · rw [clockMoves, clockMoves, stack, now, clock]
  · rw [run?, run?, runs]

/-- A run does **the same in two worlds**, in whatever else they differ: its deeds in one are the
first of its deeds in the other, and the same when both are at rest at the same moment. -/
def Alike (exec : Executor) (w w' : World) (moves moves' : List Move) (id : Nat) : Prop :=
  (w.deedsOf exec moves id <+: w'.deedsOf exec moves' id
    ∨ w'.deedsOf exec moves' id <+: w.deedsOf exec moves id)
  ∧ ((w.after exec moves).AtRest → (w'.after exec moves').AtRest →
    (w.after exec moves).now = (w'.after exec moves').now →
    w.deedsOf exec moves id = w'.deedsOf exec moves' id)

/-- Who is punctual in two worlds **by the same timetable** does the same in them. -/
theorem Punctual.alike {moves moves' : List Move} {id : Nat} {table : List (Nat × Deed)}
    (h : w.Punctual exec moves id table) (h' : w'.Punctual exec moves' id table) :
    Alike exec w w' moves moves' id := by
  refine ⟨List.prefix_or_prefix_of_prefix h.sofar h'.sofar, fun rest rest' now => ?_⟩
  rw [h.rest rest, h'.rest rest', now]

/-- What becomes of the rule in a place when it is disposed of, compared with the world in which it
**is kept**. -/
structure Retired (exec : Executor) (kept gone : World) (index : Nat) : Prop where
  /-- It stays disposed of. -/
  disposed : ∀ moves, (gone.after exec moves).Disposed index
  /-- None of its triggers starts a run any more. -/
  silent : ∀ moves, index ∉ gone.acceptances exec moves
  /-- Its runs are there, and none of them is cancelled. -/
  runs : gone.runs = kept.runs
  /-- Nor is any cancelled later. -/
  uncancelled : ∀ id r generation, kept.run? id = some r → r.owner = .rule index generation →
    r.cancelled = false → ∀ moves, NeverCancelled exec gone moves id
  /-- A run that was cancelled before calls nothing, neither way. -/
  cancelled : ∀ id r, kept.run? id = some r → r.cancelled = true → ∀ moves,
    (gone.deedsOf exec moves id).filterMap (·.2.call?) = []
    ∧ (kept.deedsOf exec moves id).filterMap (·.2.call?) = []
  /-- Any other run makes its calls in order, whatever happens, as far as it gets. -/
  calls : ∀ id r generation, kept.run? id = some r → r.owner = .rule index generation →
    r.cancelled = false → ∀ moves, Undisturbed r.progress (gone.stridesOf exec moves id)
      ((gone.after exec moves).run? id)

/-- Disposing of the rule that is listed under an id **retires it**. -/
theorem Listed.retired (listed : Listed w) (sound : Sound w) (exec : Executor) {op : Operation}
    {id : String} (disposes : op.Disposes id) (found : w.ruleIndex? id = some index)
    (sound' : Sound (w.perform op)) : Retired exec w (w.perform op) index := by
  have gone := listed.disposed_perform sound.toNumbered disposes found
  have runs : (w.perform op).runs = w.runs := congrArg Ledger.runs (spares_perform disposes)
  have run?_eq (id : Nat) : (w.perform op).run? id = w.run? id := by rw [run?, run?, runs]
  have never {id generation : Nat} {r : Run} (there : w.run? id = some r)
      (owner : r.owner = .rule index generation) (uncancelled : r.cancelled = false)
      (moves : List Move) : NeverCancelled exec (w.perform op) moves id :=
    sound'.neverCancelled_of_unfired ((run?_eq id).trans there) owner uncancelled
      (gone.count_acceptances sound' moves)
  exact
    { disposed := fun moves => gone.grows (sound'.grows_after moves)
      silent := fun moves => List.count_eq_zero.mp (gone.count_acceptances sound' moves)
      runs
      uncancelled := fun id r generation there owner uncancelled moves =>
        never there owner uncancelled moves
      cancelled := fun id r there cancelled moves =>
        ⟨sound'.calls_of_cancelled ((run?_eq id).trans there) cancelled moves,
          sound.calls_of_cancelled there cancelled moves⟩
      calls := fun id r generation there owner uncancelled moves =>
        sound'.undisturbed ((run?_eq id).trans there) (never there owner uncancelled moves) }

/-- The runs of the rule in a place are **spared**: what a run that is not cancelled does where the
rule is gone is what it does where the rule is kept and not fired again, as long as the clock moves
alike and the calls of the run are answered alike. -/
def Spared (exec : Executor) (kept gone : World) (index : Nat) : Prop :=
  ∀ id r generation, kept.run? id = some r → r.owner = .rule index generation → r.cancelled = false →
    ∀ moves moves', Orderly exec kept moves → Orderly exec gone moves' →
    moves'.filterMap Move.clock? = moves.filterMap Move.clock? →
    index ∉ kept.acceptances exec moves → ∀ answers : Nat → Response,
    (∀ s ∈ kept.stridesOf exec moves id, s.Answered exec answers) →
    (∀ s ∈ gone.stridesOf exec moves' id, s.Answered exec answers) →
    Alike exec kept gone moves moves' id

/-- In orderly histories a rule that is retired has **its runs spared**. -/
theorem Retired.spared (retired : Retired exec w w' index) (spares : Spares w w')
    (poised : Poised w) (poised' : Poised w') (sound : Sound w) (sound' : Sound w') :
    Spared exec w w' index := by
  intro id r generation there owner uncancelled moves moves' orderly orderly' clock unfired answers
    answered answered'
  have there' : w'.run? id = some r := by rw [← there, run?, run?, retired.runs]
  have never : NeverCancelled exec w moves id :=
    sound.neverCancelled_of_unfired there owner uncancelled (List.count_eq_zero.mpr unfired)
  have never' := retired.uncancelled id r generation there owner uncancelled moves'
  -- in both worlds the run keeps to its outlook, which is the same
  have one := poised.punctual_outlook sound orderly (sound.lt_of_run? there) never answered
  have other := poised'.punctual_outlook sound' orderly' (sound'.lt_of_run? there') never' answered'
  rw [spares.outlook clock] at other
  exact one.alike other

end World

/-- **Disposing of a rule is final, and harmless.** In every world that can be reached, and whatever
is being done there, an operation that disposes of the rule under some id retires it: none of its
triggers starts a run any more, and its runs are not cancelled. In an orderly history they are spared,
too: each of them does what it would do had the operation been left out and the rule not fired again.
And one emission, while it is handed on, starts at most as many runs of the rules with some id as the
rule under this id had triggers that hear its name, whatever becomes of the rule meanwhile. -/
theorem disposal_is_final_and_harmless (exec : Executor) (wallClock : Timestamp)
    (past : List Move) (w : World) (reached : w = (World.empty wallClock).after exec past) :
    (∀ op rest id index, w.stack = .perform op :: rest → op.Disposes id →
      w.ruleIndex? id = some index →
      World.Retired exec { w with stack := rest } (w.step exec) index
      ∧ (Orderly exec (.empty wallClock) past →
        World.Spared exec { w with stack := rest } (w.step exec) index))
    ∧ ∀ event base, w.stack = .deliver event (w.bus.handlers event.name) :: base →
      ∀ moves id watching, (w.deliveries exec base.length moves).count (watching, id)
        ≤ w.hearing id event.name watching := by
  have sound : World.Sound w := reached ▸ (World.sound_empty wallClock).after past
  have listed : World.Listed w := reached ▸ (World.listed_empty wallClock).after exec past
  have wired : w.wiring.Sound :=
    reached ▸ (World.rewires_after exec _ past).sound (World.sound_wiring_empty wallClock)
  refine ⟨?_, fun event base stack moves id watching =>
    World.count_deliveries_le sound listed wired stack moves id watching⟩
  intro op rest id index stack disposes found
  let kept : World := { w with stack := rest }
  have taken : w.step exec = kept.perform op := by
    rw [World.step, stack]
    rfl
  -- the world without the operation, and the world after it
  have soundKept : World.Sound kept := sound.of_ledger rfl
  have soundGone : World.Sound (kept.perform op) := taken ▸ sound.of_moved (sound.move exec .step)
  have listedKept : World.Listed kept := listed.of_ledger rfl rfl
  have retired := listedKept.retired soundKept exec disposes found soundGone
  rw [taken]
  refine ⟨retired, fun orderly => ?_⟩
  have poised : World.Poised w :=
    reached ▸ (World.poised_empty wallClock).after (World.sound_empty wallClock) orderly
  have poisedKept : World.Poised kept :=
    poised.below stack rfl (.inl (poised.layers_of_isPlain stack rfl).1)
  have poisedGone : World.Poised (kept.perform op) := taken ▸ poised.step sound exec
  exact retired.spared (World.spares_perform disposes) poisedKept poisedGone soundKept soundGone

/-- A light that was triggered and is unregistered before its run begins: it never fires again, and
the run turns the light on as it would have done. And however long its event is handed on, the light
is turned on once. -/
theorem disposal_is_final_and_harmless_light :
    (∃ w, w = (World.empty .first).after noEffects
        (Move.played (.operation (.register (some (nightLight .single)))) 1
          ++ Move.played (.operation (.trigger "light")) 1
          ++ [.receive (.operation (.unregister "light"))])
      ∧ (∀ moves, 0 ∉ (w.step noEffects).acceptances noEffects moves)
      ∧ (w.step noEffects).deedsOf noEffects (Move.played (.advance 10) 14) 0
        = [(5, .call "on" .null), (5, .finish)])
    ∧ ∃ w, w = (World.empty .first).after noEffects
        (Move.played (.operation (.register (some (nightLight .single)))) 1
          ++ Move.played (.operation (.emit "motion" (some .first) .null)) 1)
      ∧ ∀ moves, (w.deliveries noEffects 1 moves).count (false, "light") ≤ 1 := by
  constructor
  · refine ⟨_, rfl, ?_⟩
    have orderly : Orderly noEffects (.empty .first)
        (Move.played (.operation (.register (some (nightLight .single)))) 1
          ++ Move.played (.operation (.trigger "light")) 1
          ++ [.receive (.operation (.unregister "light"))]) :=
      orderly_append.mpr ⟨orderly_append.mpr ⟨orderly_played rfl _ _, orderly_played rfl _ _⟩,
        orderly_played rfl _ 0⟩
    obtain ⟨retired, spared⟩ := (disposal_is_final_and_harmless noEffects .first
      (Move.played (.operation (.register (some (nightLight .single)))) 1
        ++ Move.played (.operation (.trigger "light")) 1
        ++ [.receive (.operation (.unregister "light"))]) _ rfl).1
      (.unregister "light") [] "light" 0 rfl rfl rfl
    have alike := spared orderly 0 _ 1 rfl rfl rfl (Move.played (.advance 10) 14)
      (Move.played (.advance 10) 14) (orderly_played rfl _ _) (orderly_played rfl _ _) rfl
      (List.count_eq_zero.mp (by cbv)) (fun _ => ⟨[], false⟩) (fun _ _ _ _ _ => rfl)
      (fun _ _ _ _ _ => rfl)
    exact ⟨retired.silent, (alike.2 ⟨by cbv, by cbv⟩ ⟨by cbv, by cbv⟩ (by cbv)).symm.trans (by cbv)⟩
  · refine ⟨_, rfl, fun moves => ?_⟩
    have bounded := (disposal_is_final_and_harmless noEffects .first
      (Move.played (.operation (.register (some (nightLight .single)))) 1
        ++ Move.played (.operation (.emit "motion" (some .first) .null)) 1) _ rfl).2
      ⟨"motion", .first, .null⟩ [.respond .done] rfl moves "light" false
    exact Nat.le_trans bounded (by decide)

end RuleDispatch
