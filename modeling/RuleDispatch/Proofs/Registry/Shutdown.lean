import RuleDispatch.Proofs.Lookouts
import RuleDispatch.Proofs.Registry.Batches

/-! # Shutting down does not depend on the order

An engine is shut down by disposing of all its rules, by dropping it, or by taking out one rule after
another. In whatever order the rules are visited, what is left is the same: the bus has the subscribers
from outside and the store the listeners from outside, in their order, the values are what they were,
and no timer of a rule is active. Each rule that held on to something was disposed of once, and disposing
of it again changes nothing.

* `World.LetGo`, `World.letGo_after` — whoever is disposed of holds on to nothing.
* `World.disposals`, `World.holders` — a disposal is noted for each rule that holds on to something.
* `World.Sheds` — what rules taken out leave alone, in whatever order.
* `World.Vacant` — a world from which all rules are gone.
* `World.ShutsDown`, `shutdown_in_any_order` — every way to shut down leads to it. -/

namespace RuleDispatch

/-- Whether a record notes that a rule with an id **was disposed of**. -/
def Entry.isDisposal (id : String) : Entry → Bool
  | .note (.ruleDisposed rule) => rule = id
  | _ => false

/-- Whether a registration is one **of a rule with an id that holds on to something**. -/
def Registration.holds (id : String) (r : Registration) : Bool :=
  r.rule.id = id && !r.subscriptions.isEmpty

namespace World

variable {w u v w' : World}

/-! ## 1. Whoever is disposed of holds on to nothing -/

/-- Whoever is disposed of **holds on to nothing**. -/
def LetGo (w : World) : Prop :=
  ∀ r ∈ w.registrations, r.disposed = true → r.subscriptions = []

/-- Who holds on to something depends on **the registrations only**. -/
theorem LetGo.congr (h : LetGo w) (same : w'.fittings.registrations = w.fittings.registrations) :
    LetGo w' := by
  intro r member disposed
  have there : r.unslotted ∈ w.registrations.map Registration.unslotted := by
    have same : w'.registrations.map Registration.unslotted
        = w.registrations.map Registration.unslotted := same
    rw [← same]
    exact List.mem_map_of_mem member
  obtain ⟨old, member', face⟩ := List.mem_map.mp there
  have subscriptions : old.unslotted.subscriptions = r.unslotted.subscriptions := by rw [face]
  have disposed' : old.unslotted.disposed = r.unslotted.disposed := by rw [face]
  exact subscriptions.symm.trans (h old member' (disposed'.trans disposed))

/-- **Disposing of a rule** leaves this so. -/
theorem LetGo.dispose (h : LetGo w) (index : Nat) : LetGo (w.dispose index) := by
  intro r member disposed
  obtain ⟨place, found⟩ := List.mem_iff_getElem?.mp member
  rw [registrations_dispose, List.getElem?_modify] at found
  obtain ⟨old, there, rfl⟩ := Option.map_eq_some_iff.mp found
  split_ifs at disposed ⊢
  · rfl
  · exact h old (List.mem_of_getElem? there) disposed

/-- **Disposing of rules** leaves this so. -/
theorem LetGo.disposeEach (h : LetGo w) (rules : Keyed Nat) : LetGo (w.disposeEach rules) := by
  unfold World.disposeEach
  induction rules generalizing w with
  | nil => exact h
  | cons rule rest ih => exact ih (h.dispose rule.2)

/-- **Unregistering a rule** leaves this so. -/
theorem LetGo.unregister (h : LetGo w) (id : String) : LetGo (w.unregister id) := by
  unfold World.unregister
  split
  · exact h
  · have unlisted : LetGo { w with engine := w.engine.map (Keyed.remove id) } := h
    exact unlisted.dispose _

/-- **Every piece of work** leaves it so. -/
theorem LetGo.work (h : LetGo w) (accounts : Accounts w) {outside : Bool} (work : Work outside w w') :
    LetGo w' := by
  cases outside with
  | true => exact h.congr (accounts.toTallied.outside work).registrations
  | false =>
    cases work with
    | quiet same => exact h.congr (congrArg Fittings.registrations same)
    | unregister _ id => exact h.unregister id
    | enrol =>
      -- a new rule is not disposed of yet
      intro r member disposed
      rw [(enrol_keeps _ _).2] at member
      rcases List.mem_append.mp member with old | new
      · exact h r old disposed
      · rw [List.mem_singleton.mp new] at disposed
        cases disposed
    | disposeAll =>
      have unlisted : LetGo { w with engine := w.engine.map fun _ => [] } := h
      exact unlisted.disposeEach _
    | dropEngine =>
      have unlisted : LetGo { w with engine := none } := h
      exact unlisted.disposeEach _

/-- So does **every history**. -/
theorem letGo_after (wallClock : Timestamp) (exec : Executor) (moves : List Move) :
    LetGo ((empty wallClock).after exec moves) := by
  have both : Accounts ((empty wallClock).after exec moves)
      ∧ LetGo ((empty wallClock).after exec moves) := by
    -- what outside work leaves alone is known from the accounts, so both are shown together
    refine after_induct (P := fun w => Accounts w ∧ LetGo w) (fun v m held => ?_)
      ⟨accounts_empty wallClock, fun r member => by cases member⟩ moves
    refine ⟨(held.1.move exec m).1, ?_⟩
    have works := works_move exec v m
    generalize v.worksOutside m = outside, v.move exec m = later at works
    suffices both : Accounts later ∧ LetGo later from both.2
    induction works with
    | refl => exact held
    | tail _ last ih =>
      refine ⟨?_, ih.2.work ih.1 last⟩
      cases outside with
      | true => exact ih.1.outside last
      | false => exact (ih.1.inside last).1
  exact both.2

/-! ## 2. Disposals that are noted -/

/-- How often it was **noted that a rule with an id was disposed of**. -/
def disposals (w : World) (id : String) : Nat :=
  w.log.countP fun record => record.2.isDisposal id

/-- How many registrations of rules with an id **hold on to something**. -/
def holders (w : World) (id : String) : Nat :=
  w.registrations.countP (Registration.holds id)

/-- Taking something off is **no disposal of a rule**. -/
theorem disposals_retract (w : World) (s : Subscription) (id : String) :
    (w.retract s).disposals id = w.disposals id := by
  cases s with
  | event | threshold => rfl
  | timer index =>
    simp only [retract, cancelTimer]
    split
    · rfl
    · rfl
  | pattern place =>
    simp only [retract, disposeWatcher]
    split <;> rfl

/-- **Taking subscriptions back** is no disposal of a rule. -/
theorem disposals_foldl_retract (w : World) (subscriptions : List Subscription) (id : String) :
    (subscriptions.foldl retract w).disposals id = w.disposals id := by
  induction subscriptions generalizing w with
  | nil => rfl
  | cons s rest ih => rw [List.foldl_cons, ih, disposals_retract]

/-- A disposal **is noted for each that lets go**: whoever held on to something before it holds on to
nothing afterwards, and one more disposal is noted. -/
theorem disposals_dispose (w : World) (index : Nat) (id : String) :
    (w.dispose index).disposals id + (w.dispose index).holders id
      = w.disposals id + w.holders id := by
  cases found : w.registrations[index]? with
  | none => rw [dispose, found]
  | some r =>
    -- all other registrations count as before
    obtain ⟨there, -⟩ := List.getElem?_eq_some_iff.mp found
    obtain ⟨before, a, after, split, rfl, modified⟩ := List.exists_of_modify
      (fun r : Registration => { r with disposed := true, subscriptions := [] }) there
    obtain rfl : a = r := by simpa [split] using found
    have held : w.holders id = before.countP (Registration.holds id)
        + (after.countP (Registration.holds id) + if a.holds id then 1 else 0) := by
      rw [holders, split, List.countP_append, List.countP_cons]
    have left : (w.dispose before.length).holders id = before.countP (Registration.holds id)
        + after.countP (Registration.holds id) := by
      rw [holders, registrations_dispose, modified, List.countP_append, List.countP_cons_of_neg]
      simp [Registration.holds]
    have noted : (w.dispose before.length).disposals id
        = w.disposals id + if a.holds id then 1 else 0 := by
      unfold dispose
      rw [found]
      dsimp only
      split
      · next empty => simp [Registration.holds, empty, disposals, modifyRegistration]
      · next holding =>
        let marked := w.modifyRegistration before.length fun r =>
          { r with disposed := true, subscriptions := [] }
        have stripped := disposals_foldl_retract marked a.subscriptions id
        show ((_, Entry.note (.ruleDisposed a.rule.id)) :: _).countP _ = _
        rw [List.countP_cons, ← disposals, stripped]
        simp [Registration.holds, Entry.isDisposal, holding, disposals, marked, modifyRegistration]
    omega

/-! ## 3. Rules taken out -/

/-- The timers, whether they are **active or not**. -/
def faces (w : World) : List Timer :=
  w.timers.map (·.stopped)

/-- The timers, active or not, are a view that **only grows**. -/
theorem accrues_faces : Accrues faces :=
  accrues_timers fun _ => rfl

/-- What is **left alone when rules are taken out**, in whatever order. -/
structure Sheds (w v : World) : Prop where
  outsiders : ∀ b, v.outsiders b = w.outsiders b
  next : v.bus.nextId = w.bus.nextId
  /-- Only listeners are taken out of the store. -/
  store : ∃ numberListeners textListeners, v.store = { w.store with numberListeners, textListeners }
  faces : v.faces = w.faces
  /-- One more disposal is noted for each rule that holds on to nothing any more. -/
  noted : ∀ id, v.disposals id + v.holders id = w.disposals id + w.holders id

/-- Rules can be taken out **one after the other**. -/
theorem Sheds.trans (h : Sheds w u) (h' : Sheds u v) : Sheds w v where
  outsiders b := (h'.outsiders b).trans (h.outsiders b)
  next := h'.next.trans h.next
  store := by
    obtain ⟨numbers, texts, same⟩ := h.store
    obtain ⟨numbers', texts', same'⟩ := h'.store
    exact ⟨numbers', texts', by rw [same', same]⟩
  faces := h'.faces.trans h.faces
  noted id := (h'.noted id).trans (h.noted id)

/-- Which rules the engine lists is **of no account**. -/
theorem sheds_unlisted (w : World) (engine : Option (Keyed Nat)) : Sheds w { w with engine } where
  outsiders b := outsiders_congr rfl b
  next := rfl
  store := ⟨_, _, rfl⟩
  faces := rfl
  noted _ := rfl

/-- Taking something off changes **only listeners in the store**. -/
theorem store_retract (w : World) (s : Subscription) :
    ∃ numberListeners textListeners,
      (w.retract s).store = { w.store with numberListeners, textListeners } := by
  cases s with
  | event | threshold => exact ⟨_, _, rfl⟩
  | timer index =>
    simp only [retract, cancelTimer]
    split <;> exact ⟨_, _, rfl⟩
  | pattern place =>
    simp only [retract, disposeWatcher]
    split <;> exact ⟨_, _, rfl⟩

/-- **Disposing of a rule** leaves this alone. -/
theorem Accounts.sheds_dispose (h : Accounts w) (index : Nat) : Sheds w (w.dispose index) := by
  have kept : (w.dispose index).bus.nextId = w.bus.nextId ∧ ∃ numberListeners textListeners,
      (w.dispose index).store = { w.store with numberListeners, textListeners } := by
    refine dispose_induct (P := fun v => v.bus.nextId = w.bus.nextId ∧
      ∃ numberListeners textListeners, v.store = { w.store with numberListeners, textListeners })
      (fun v s held => ?_) (fun v _ _ held => held) ⟨rfl, _, _, rfl⟩ index
    obtain ⟨next, numbers, texts, same⟩ := held
    obtain ⟨numbers', texts', same'⟩ := store_retract v s
    exact ⟨(nextOn_retract v s .bus).trans next, numbers', texts', by rw [same', same]⟩
  exact ⟨(h.dispose index).2, kept.1, kept.2, accrues_faces.dispose w index, disposals_dispose w index⟩

/-- **Disposing of rules** leaves all else alone. -/
theorem Accounts.sheds_disposeEach (h : Accounts w) (rules : Keyed Nat) :
    Sheds w (w.disposeEach rules) := by
  unfold World.disposeEach
  induction rules generalizing w with
  | nil => exact sheds_unlisted w w.engine
  | cons rule rest ih => exact (h.sheds_dispose rule.2).trans (ih (h.dispose rule.2).1)

/-- **Unregistering a rule** leaves all else alone. -/
theorem Accounts.sheds_unregister (h : Accounts w) (id : String) : Sheds w (w.unregister id) := by
  unfold World.unregister
  split
  · exact sheds_unlisted w w.engine
  · next index _ =>
    have unlisted : Accounts { w with engine := w.engine.map (Keyed.remove id) } :=
      h.congr rfl rfl rfl
    exact (sheds_unlisted w _).trans (unlisted.sheds_dispose index)

/-! ## 4. All rules gone -/

/-- A world from which **all rules are gone**: what was there before for callbacks is all that is left,
in its order. -/
structure Vacant (w v : World) : Prop where
  /-- The subscriptions that are there for callbacks are left, with their numbers. -/
  bus : v.bus = { w.bus with
    subscribers := w.bus.subscribers.filter fun s => (w.serves? (.subscriber s.name s.handler)).isNone }
  /-- The listeners that are there for callbacks are left, and all values. -/
  store : v.store = { w.store with
    numberListeners := w.store.numberListeners.filter fun l => l.2.serves?.isNone }
  /-- The timers of rules are cancelled, and the others go on. -/
  timers : v.timers = w.timers.map fun t => if t.target.rule?.isSome then t.stopped else t
  /-- Nothing is there for a rule. -/
  nothing : ∀ b, ∀ x ∈ v.board b, v.serves? x.2 = none
  /-- The disposal of a registered rule is noted once if it held on to something. -/
  noted : ∀ id place r, w.ruleIndex? id = some place → w.registrations[place]? = some r →
    v.disposals id = w.disposals id + if r.subscriptions = [] then 0 else 1
  /-- No other disposal is noted. -/
  unnoted : ∀ id, w.ruleIndex? id = none → v.disposals id = w.disposals id
  /-- Disposing of a rule once more changes nothing, and so does shutting down once more. -/
  again : (∀ index, v.dispose index = v) ∧ (∀ id, v.unregister id = v) ∧ v.disposeAll = v

/-- Who holds on to something **is listed**. -/
theorem Listed.of_holds (h : Listed w) (letGo : LetGo w) {id : String} {place : Nat}
    {r : Registration} (found : w.registrations[place]? = some r) (holds : r.holds id = true) :
    w.ruleIndex? id = some place := by
  rw [Registration.holds, Bool.and_eq_true, decide_eq_true_iff, Bool.not_eq_true'] at holds
  refine (h id place).mpr ⟨r.bare, held?_of_registration found, holds.1, eq_false_of_ne_true ?_⟩
  intro disposed
  have nothing := letGo r (List.mem_of_getElem? found) disposed
  rw [nothing] at holds
  cases holds.2

/-- If at most one place has a property, **that place alone counts**. -/
theorem countP_eq_of_alone {α : Type} {p : α → Bool} {things : List α} {place : Nat} {a : α}
    (found : things[place]? = some a)
    (alone : ∀ other b, things[other]? = some b → p b = true → other = place) :
    things.countP p = if p a then 1 else 0 := by
  obtain ⟨there, rfl⟩ := List.getElem?_eq_some_iff.mp found
  have split : things = things.take place ++ things[place] :: things.drop (place + 1) := by
    rw [List.cons_getElem_drop_succ, List.take_append_drop]
  have before : (things.take place).countP p = 0 := by
    refine List.countP_eq_zero.mpr fun b member holds => ?_
    obtain ⟨other, at_other⟩ := List.mem_iff_getElem?.mp member
    rw [List.getElem?_take] at at_other
    split_ifs at at_other with earlier
    exact Nat.ne_of_lt earlier (alone other b at_other holds)
  have after : (things.drop (place + 1)).countP p = 0 := by
    refine List.countP_eq_zero.mpr fun b member holds => ?_
    obtain ⟨other, at_other⟩ := List.mem_iff_getElem?.mp member
    rw [List.getElem?_drop] at at_other
    have same := alone _ b at_other holds
    omega
  conv_lhs => rw [split]
  rw [List.countP_append, List.countP_cons, before, after, Nat.zero_add, Nat.zero_add]

/-- Of each id at most **the registered rule** holds on to something. -/
theorem Listed.holders_eq (h : Listed w) (letGo : LetGo w) {id : String} {place : Nat}
    {r : Registration} (listed : w.ruleIndex? id = some place)
    (found : w.registrations[place]? = some r) :
    w.holders id = if r.subscriptions = [] then 0 else 1 := by
  have named : r.rule.id = id := by
    obtain ⟨r', held, named, -⟩ := (h id place).mp listed
    rw [held?_of_registration found] at held
    rw [← named, ← Option.some.inj held, Registration.rule_bare]
  -- who holds on to something is listed, and under one id only one place is
  have alone (other : Nat) (a : Registration) (there : w.registrations[other]? = some a)
      (holds : a.holds id = true) : other = place := by
    have listed' := h.of_holds letGo there holds
    rw [listed] at listed'
    exact (Option.some.inj listed').symm
  rw [holders, countP_eq_of_alone found alone]
  by_cases empty : r.subscriptions = [] <;> simp [Registration.holds, named, empty]

/-- Where an id is free, **no rule with it holds on to anything**. -/
theorem Listed.holders_eq_zero (h : Listed w) (letGo : LetGo w) {id : String}
    (free : w.ruleIndex? id = none) : w.holders id = 0 := by
  refine List.countP_eq_zero.mpr fun r member holds => ?_
  obtain ⟨place, found⟩ := List.mem_iff_getElem?.mp member
  rw [h.of_holds letGo found holds] at free
  cases free

/-- Where no rule is registered, **nobody holds on to anything**. -/
theorem LetGo.disposed (letGo : LetGo v) (none : v.registered = []) {place : Nat} {r : Registration}
    (found : v.registrations[place]? = some r) : r.disposed = true ∧ r.subscriptions = [] := by
  have disposed : r.disposed = true := by
    by_contra live
    have registered : (place, r.rule) ∈ v.registered :=
      mem_registered.mpr ⟨r, found, eq_false_of_ne_true live, rfl⟩
    rw [none] at registered
    cases registered
  exact ⟨disposed, letGo r (List.mem_of_getElem? found) disposed⟩

/-- So disposing of a rule **changes nothing** any more. -/
theorem LetGo.dispose_eq_self (letGo : LetGo v) (none : v.registered = []) (index : Nat) :
    v.dispose index = v := by
  cases found : v.registrations[index]? with
  | none => rw [World.dispose, found]
  | some r =>
    obtain ⟨disposed, nothing⟩ := letGo.disposed none found
    -- it is marked already, as all others are
    have same : v.registrations.modify index
        (fun r => { r with disposed := true, subscriptions := [] }) = v.registrations := by
      refine List.ext_getElem? fun place => ?_
      rw [List.getElem?_modify]
      cases there : v.registrations[place]? with
      | none => rfl
      | some a =>
        obtain ⟨disposed, nothing⟩ := letGo.disposed none there
        split_ifs
        · simp only [← disposed, ← nothing]
          rfl
        · rfl
    rw [World.dispose, found]
    dsimp only
    rw [if_pos nothing, modifyRegistration, same]

/-- What is left **is there for callbacks**. -/
theorem Accounts.board_of_vacant (accounts : Accounts v) (none : v.registered = []) (b : Board) :
    v.board b = v.outsiders b ∧ ∀ x ∈ v.board b, v.serves? x.2 = .none := by
  have nothing (x : Nat × Fixture) (member : x ∈ v.board b) : v.serves? x.2 = .none := by
    cases serves : v.serves? x.2 with
    | none => rfl
    | some served =>
      have owner : v.owner? x.2 = some served.1 := by rw [owner?, serves, Option.map_some]
      obtain ⟨rule, registered⟩ := accounts.exists_registered member owner
      rw [none] at registered
      cases registered
  refine ⟨(List.filter_eq_self.mpr fun x member => ?_).symm, nothing⟩
  rw [nothing x member]
  rfl

/-- Where no rule is listed, **shutting down changes nothing**. -/
theorem disposeAll_eq_self (free : ∀ id, v.ruleIndex? id = none) : v.disposeAll = v := by
  have unlisted : v.engine.map (fun _ => []) = v.engine ∧ v.engine.getD [] = [] := by
    cases engine : v.engine with
    | none => exact ⟨rfl, rfl⟩
    | some rules =>
      cases rules with
      | nil => exact ⟨rfl, rfl⟩
      | cons entry rest =>
        have listed := free entry.1
        rw [ruleIndex?, engine, Option.bind_some, List.lookup_cons_self] at listed
        cases listed
  rw [World.disposeAll, unlisted.1, unlisted.2]
  rfl

/-- A timer is on the clock **when it is active**. -/
theorem mem_clock_of_timer {place : Nat} {t : Timer} (found : w.timers[place]? = some t) :
    (place, .timer t.interval t.target) ∈ w.board .clock ↔ t.active = true := by
  rw [mem_clock_iff, found]
  constructor
  · rintro ⟨t', same, active, -⟩
    rw [Option.some.inj same]
    exact active
  · exact fun active => ⟨t, rfl, active, rfl, rfl⟩

/-- When only timers from outside are left on the clock, **those of rules are stopped**. -/
theorem timers_of_clock (clock : v.board .clock = w.outsiders .clock) (faces : v.faces = w.faces) :
    v.timers = w.timers.map fun t => if t.target.rule?.isSome then t.stopped else t := by
  refine List.ext_getElem? fun place => ?_
  have face : (v.timers[place]?).map Timer.stopped = (w.timers[place]?).map Timer.stopped := by
    rw [← List.getElem?_map, ← List.getElem?_map]
    exact congrArg (·[place]?) faces
  rw [List.getElem?_map]
  cases found : w.timers[place]? with
  | none =>
    rw [found] at face
    exact Option.map_eq_none_iff.mp face
  | some t =>
    rw [found] at face
    obtain ⟨t', found', same⟩ := Option.map_eq_some_iff.mp face
    have fixture : Fixture.timer t'.interval t'.target = .timer t.interval t.target :=
      congr (congrArg Fixture.timer (congrArg Timer.interval same :)) (congrArg Timer.target same :)
    -- it is active if it was and is there for no rule
    have active : t'.active = true ↔ t.active = true ∧ t.target.rule? = none := by
      rw [← mem_clock_of_timer found', clock, fixture, outsiders, List.mem_filter,
        mem_clock_of_timer found]
      cases h : t.target.rule? <;> simp [serves?, h]
    have kept : t' = { t with active := t'.active } := by
      cases t
      cases t'
      simpa [Timer.stopped] using same
    rw [found', Option.map_some]
    cases rule : t.target.rule? with
    | none =>
      have still : t'.active = t.active := by
        rw [Bool.eq_iff_iff, active, rule]
        exact and_iff_left rfl
      rw [kept, still]
      rfl
    | some index =>
      have idle : t'.active = false := by
        refine eq_false_of_ne_true fun on => ?_
        have outside := (active.mp on).2
        rw [rule] at outside
        cases outside
      rw [kept, idle]
      rfl

/-- **When all rules were taken out**, in whatever order, only what is outside is left. -/
theorem Sheds.vacant (sheds : Sheds w v) (listed : Listed w) (letGo : LetGo w)
    (accounts : Accounts v) (letGo' : LetGo v) (none : v.registered = []) (free : ∀ id, v.ruleIndex? id = .none) :
    Vacant w v := by
  have board (b : Board) : v.board b = w.outsiders b :=
    (accounts.board_of_vacant none b).1.trans (sheds.outsiders b)
  have noted (id : String) : v.disposals id = w.disposals id + w.holders id := by
    have nobody : v.holders id = 0 := by
      refine List.countP_eq_zero.mpr fun r member holds => ?_
      obtain ⟨place, found⟩ := List.mem_iff_getElem?.mp member
      simp [Registration.holds, (letGo'.disposed none found).2] at holds
    rw [← sheds.noted, nobody, Nat.add_zero]
  refine
    { bus := ?_
      store := ?_
      timers := ?_
      nothing := fun b => (accounts.board_of_vacant none b).2
      noted := fun id place r index found => by rw [noted, listed.holders_eq letGo index found]
      unnoted := fun id free => by rw [noted, listed.holders_eq_zero letGo free, Nat.add_zero]
      again := ⟨letGo'.dispose_eq_self none, fun id => by rw [World.unregister, free],
        disposeAll_eq_self free⟩ }
  · have subscribers : v.bus.subscribers = w.bus.subscribers.filter fun s =>
        (w.serves? (.subscriber s.name s.handler)).isNone :=
      List.map_injective_iff.mpr subscribers_injective ((board .bus).trans List.filter_map)
    exact congr (congrArg Bus.mk subscribers) sheds.next
  · obtain ⟨numbers, texts, same⟩ := sheds.store
    have listeners : v.store.numberListeners = w.store.numberListeners.filter fun l =>
        l.2.serves?.isNone :=
      List.map_injective_iff.mpr listeners_injective ((board .numbers).trans List.filter_map)
    -- rules listen to numbers only
    have readers : v.store.textListeners = w.store.textListeners := by
      have shown := board .texts
      have all : w.outsiders .texts = w.board .texts :=
        List.filter_eq_self.mpr fun x member => by
          obtain ⟨l, -, rfl⟩ := List.mem_map.mp member
          rfl
      rw [all] at shown
      exact List.map_injective_iff.mpr readers_injective shown
    rw [← listeners, same]
    rw [same] at readers
    exact congrArg (fun textListeners => { w.store with numberListeners := numbers, textListeners })
      readers
  · exact timers_of_clock (board .clock) sheds.faces

/-! ## 5. Ways to shut down -/

/-- The ways to **shut down** an engine: its rules are disposed of in any order, each once or more often,
while it stays or is dropped; or all ids are taken out, in any order and among others. -/
inductive ShutsDown (w : World) : World → Prop
  /-- All rules are disposed of, and the engine stays. -/
  | disposeAll {rules visits : Keyed Nat} (engine : w.engine = some rules)
      (all : ∀ entry, entry ∈ visits ↔ entry ∈ rules) :
      ShutsDown w (World.disposeEach { w with engine := some [] } visits)
  /-- They are, and the engine is gone. -/
  | drop {rules visits : Keyed Nat} (engine : w.engine = some rules)
      (all : ∀ entry, entry ∈ visits ↔ entry ∈ rules) :
      ShutsDown w (World.disposeEach { w with engine := none } visits)
  /-- The rules are taken out by their ids. -/
  | unregister {ids : List String} (all : ∀ id ∈ w.ruleIds, id ∈ ids) :
      ShutsDown w (ids.foldl World.unregister w)

/-- After disposing of some rules **the others** are registered. -/
theorem registered_disposeEach (w : World) (rules : Keyed Nat) :
    (w.disposeEach rules).registered
      = w.registered.filter fun entry => decide (∀ rule ∈ rules, entry.1 ≠ rule.2) := by
  unfold World.disposeEach
  induction rules generalizing w with
  | nil => simp
  | cons rule rest ih =>
    rw [List.foldl_cons, ih, registered_dispose, List.filter_filter]
    refine List.filter_congr fun entry _ => ?_
    rw [Bool.eq_iff_iff, Bool.and_eq_true]
    simp only [decide_eq_true_iff, List.forall_mem_cons, and_comm]

/-- **All rules disposed of**, whatever the engine lists afterwards. -/
theorem Accounts.vacant_disposeEach (h : Accounts w) (listed : Listed w) (letGo : LetGo w)
    {rules visits : Keyed Nat} (engine : w.engine = some rules)
    (all : ∀ entry, entry ∈ visits ↔ entry ∈ rules) {after : Option (Keyed Nat)}
    (unlisted : ∀ id, after.bind (·.lookup id) = .none) :
    Vacant w (World.disposeEach { w with engine := after } visits) := by
  have accounts : Accounts { w with engine := after } := h.congr rfl rfl rfl
  have letGo' : LetGo { w with engine := after } := letGo
  have sheds := (sheds_unlisted w after).trans (accounts.sheds_disposeEach visits)
  refine sheds.vacant listed letGo (accounts.disposeEach visits).1 (letGo'.disposeEach visits) ?_
    fun id => ?_
  · rw [registered_disposeEach]
    refine List.filter_eq_nil_iff.mpr fun entry registered apart => ?_
    -- whatever is registered is listed, and so it is visited
    have there : (entry.2.id, entry.1) ∈ rules := by
      have index := (listed.ruleIndex?_eq_some_iff entry.2.id entry.1).mpr ⟨entry.2, registered, rfl⟩
      rw [ruleIndex?, engine] at index
      exact Keyed.mem_of_lookup index
    exact of_decide_eq_true apart _ ((all _).mpr there) rfl
  · have still : (World.disposeEach { w with engine := after } visits).engine = after :=
      congrArg Ledger.engine (ledger_disposeEach { w with engine := after } visits)
    rw [ruleIndex?, still, unlisted]

/-- What is listed after **ids were taken out** one after another. -/
theorem ruleIndex?_foldl_unregister (w : World) (ids : List String) (other : String) :
    (ids.foldl World.unregister w).ruleIndex? other
      = if other ∈ ids then none else w.ruleIndex? other := by
  induction ids generalizing w with
  | nil => simp
  | cons id rest ih =>
    have first : (w.unregister id).ruleIndex? other
        = if other = id then none else w.ruleIndex? other := by
      cases found : w.ruleIndex? id with
      | some place => exact ruleIndex?_unregister_eq (by rw [found]; rfl) other
      | none =>
        rw [World.unregister, found]
        split_ifs with same
        · rw [same, found]
        · rfl
    rw [List.foldl_cons, ih, first]
    by_cases here : other = id <;> by_cases later : other ∈ rest <;> simp [here, later]

/-- **All ids taken out**, one after another. -/
theorem Accounts.vacant_foldl_unregister (h : Accounts w) (listed : Listed w) (letGo : LetGo w)
    {ids : List String} (all : ∀ id ∈ w.ruleIds, id ∈ ids) :
    Vacant w (ids.foldl World.unregister w) := by
  obtain ⟨accounts, letGo', listed', sheds⟩ : Accounts (ids.foldl World.unregister w)
      ∧ LetGo (ids.foldl World.unregister w) ∧ Listed (ids.foldl World.unregister w)
      ∧ Sheds w (ids.foldl World.unregister w) := by
    clear all
    induction ids generalizing w with
    | nil => exact ⟨h, letGo, listed, sheds_unlisted w w.engine⟩
    | cons id rest ih =>
      obtain ⟨accounts, letGo', listed', sheds⟩ :=
        ih (h.inside (.unregister w id)).1 (listed.unregister id) (letGo.unregister id)
      exact ⟨accounts, letGo', listed', (h.sheds_unregister id).trans sheds⟩
  have free (id : String) : (ids.foldl World.unregister w).ruleIndex? id = none := by
    rw [ruleIndex?_foldl_unregister]
    split_ifs with taken
    · rfl
    · refine Option.not_isSome_iff_eq_none.mp fun there => taken (all id ?_)
      exact (mem_ruleIds_iff w id).mpr there
  refine sheds.vacant listed letGo accounts letGo' ?_ free
  refine List.eq_nil_iff_forall_not_mem.mpr fun entry registered => ?_
  have index := (listed'.ruleIndex?_eq_some_iff entry.2.id entry.1).mpr ⟨entry.2, registered, rfl⟩
  rw [free] at index
  cases index

end World

open World

/-- **Shutting down does not depend on the order.** In every reachable world all ways to dispose of all
rules, in whatever order and however often, lead to the same bus, store and timers: of the subscribers
and the listeners those from outside are left, in their order, the values are what they were, and the
timers of rules are stopped. For each registered rule that held on to something one disposal is noted,
for all others none. After that disposing of anything, or shutting down once more, changes nothing. -/
theorem shutdown_in_any_order (exec : Executor) (wallClock : Timestamp) (moves : List Move) (w : World)
    (reached : w = (World.empty wallClock).after exec moves) :
    (∀ v, w.ShutsDown v → w.Vacant v)
      ∧ (∀ v v', w.ShutsDown v → w.ShutsDown v' →
        v.bus = v'.bus ∧ v.store = v'.store ∧ v.timers = v'.timers)
      ∧ (w.engine.isSome = true → w.ShutsDown w.disposeAll ∧ w.ShutsDown w.dropEngine
        ∧ w.ShutsDown (w.ruleIds.foldl World.unregister w)) := by
  have accounts : World.Accounts w := reached ▸ (accounts_empty wallClock).after exec moves
  have listed : World.Listed w := reached ▸ (listed_empty wallClock).after exec moves
  have letGo : World.LetGo w := reached ▸ letGo_after wallClock exec moves
  -- each way leaves the world vacant, which settles bus, store and timers
  have vacant (v : World) (down : w.ShutsDown v) : w.Vacant v := by
    cases down with
    | disposeAll engine all => exact accounts.vacant_disposeEach listed letGo engine all fun id => rfl
    | drop engine all => exact accounts.vacant_disposeEach listed letGo engine all fun id => rfl
    | unregister all => exact accounts.vacant_foldl_unregister listed letGo all
  refine ⟨vacant, fun v v' down down' => ?_, fun there => ?_⟩
  · have first := vacant v down
    have second := vacant v' down'
    exact ⟨first.bus.trans second.bus.symm, first.store.trans second.store.symm,
      first.timers.trans second.timers.symm⟩
  · obtain ⟨rules, engine⟩ := Option.isSome_iff_exists.mp there
    refine ⟨?_, ?_, .unregister fun _ member => member⟩
    · rw [World.disposeAll, engine]
      exact .disposeAll engine fun _ => Iff.rfl
    · rw [World.dropEngine, engine]
      exact .drop engine fun _ => Iff.rfl

/-- A light and a lamp hear of motion, and so does a callback, which alone is left. -/
theorem shutdown_in_any_order_lamp :
    let lamp : Rule := { id := "lamp", triggers := [.pattern ["motion", "dusk"] 9, .schedule 5] }
    let w := (World.empty .first).after noEffects
      (Move.played (.operation (.register (some (nightLight .single)))) 1
        ++ Move.played (.operation (.subscribe "door" "motion" ⟨[], 0⟩)) 1
        ++ Move.played (.operation (.register (some lamp))) 1)
    let v := ["lamp", "door", "light", "lamp"].foldl World.unregister w
    v.bus = w.dropEngine.bus ∧ v.bus.channels = ["motion"] ∧ v.disposals "lamp" = 1 := by
  intro lamp w v
  obtain ⟨vacant, same, ways⟩ := shutdown_in_any_order noEffects .first
    (Move.played (.operation (.register (some (nightLight .single)))) 1
      ++ Move.played (.operation (.subscribe "door" "motion" ⟨[], 0⟩)) 1
      ++ Move.played (.operation (.register (some lamp))) 1) w rfl
  have ids : w.ruleIds = ["lamp", "light"] := by cbv
  have down : w.ShutsDown v := .unregister (by simp [ids])
  refine ⟨(same v w.dropEngine down (ways (by cbv)).2.1).1, ?_, ?_⟩
  · exact (congrArg Bus.channels (vacant v down).bus).trans (by cbv)
  · exact ((vacant v down).noted "lamp" 1 _ (by cbv) rfl).trans (by cbv)

end RuleDispatch
