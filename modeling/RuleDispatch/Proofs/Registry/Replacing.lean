import RuleDispatch.Proofs.Subscriptions.Traces

/-! # Rules replaced

When rules are put in and taken out, whatever has one of some ids is gone and other rules stand in new
places. All else stays as it was: the rules with other ids, and what is there for them and for
callbacks, in its order. What is so of two changes is so of both, one after the other.

* `World.matchers` — how far watchers have come, which nothing that is done for rules changes.
* `World.servesNamed` — what is there for rules with one of some ids.
* `World.Replaces` — these rules are gone, and others are in new places.
* `World.Replaces.trans` — two changes in a row.
* `World.Accounts.replaces_register` — a rule registered. -/

namespace RuleDispatch.World

variable {w u w' : World} {ids more : List String} {fresh later : List (Nat × Rule)}

/-! ## 1. Who is there for whom -/

/-- How far the watchers **have come** in their patterns. -/
def matchers (w : World) : List Matcher :=
  w.watchers.map (·.matcher)

/-- How far watchers have come is a view that **only grows**. -/
theorem accrues_matchers : Accrues matchers where
  retract w s := by
    cases s with
    | event | threshold => rfl
    | timer index =>
      simp only [World.retract, cancelTimer]
      split <;> rfl
    | pattern place =>
      simp only [World.retract, disposeWatcher]
      split
      · rfl
      · exact map_modify_eq (g := Watcher.matcher) w.watchers place fun _ _ => rfl
  wire w index rule trigger := by
    cases trigger with
    | pattern sequence withinMs =>
      simp only [World.wire, addWatcher, matchers, List.map_append]
      exact List.prefix_append _ _
    | schedule ms =>
      simp only [World.wire, addTimer, matchers]
      split <;> exact List.prefix_rfl
    | event | threshold | unknown => exact List.prefix_rfl
  unseen _ _ _ _ := rfl

/-- Whether a fixture is there for a rule **with one of some ids**. -/
def servesNamed (w : World) (ids : List String) (fixture : Fixture) : Bool :=
  ((w.owner? fixture).bind (w.registrations[·]?)).any fun r => decide (r.rule.id ∈ ids)

/-- What is there for no rule is there for none with any of these ids. -/
theorem servesNamed_of_outsider {fixture : Fixture} (outside : w.serves? fixture = none) :
    w.servesNamed ids fixture = false := by
  rw [servesNamed, owner?, outside]
  rfl

/-- A fixture of a registered rule is there for some ids **if the rule's is one of them**. -/
theorem servesNamed_of_owner {fixture : Fixture} {place : Nat} {rule : Rule}
    (owner : w.owner? fixture = some place) (registered : (place, rule) ∈ w.registered) :
    w.servesNamed ids fixture = decide (rule.id ∈ ids) := by
  obtain ⟨r, found, -, rfl⟩ := mem_registered.mp registered
  rw [servesNamed, owner, Option.bind_some, found, Option.any_some]

/-- A fixture is there for some ids or others if it is **for the ones or for the others**. -/
theorem servesNamed_append (fixture : Fixture) :
    w.servesNamed (ids ++ more) fixture = (w.servesNamed ids fixture || w.servesNamed more fixture) := by
  unfold servesNamed
  cases (w.owner? fixture).bind (w.registrations[·]?) with
  | none => rfl
  | some r => simp [List.mem_append]

/-- What is on a board for a rule is there for **a registered one**. -/
theorem Accounts.exists_registered (h : Accounts w) {b : Board} {x : Nat × Fixture}
    (member : x ∈ w.board b) {place : Nat} (owner : w.owner? x.2 = some place) :
    ∃ rule, (place, rule) ∈ w.registered := by
  obtain ⟨served, serves, rfl⟩ := Option.map_eq_some_iff.mp owner
  have there : (x.2.name?, served) ∈ w.services b :=
    List.mem_filterMap.mpr ⟨x, member, by rw [service, serves]; rfl⟩
  rw [h.balanced] at there
  obtain ⟨⟨place, rule⟩, registered, there⟩ := List.mem_flatMap.mp there
  obtain ⟨trigger, -, there⟩ := List.mem_flatMap.mp there
  obtain ⟨name, -, same⟩ := List.mem_map.mp there
  obtain ⟨-, rfl⟩ := Prod.mk.inj same
  exact ⟨rule, registered⟩

/-! ## 2. Rules replaced -/

/-- In a world the rules with some ids are **replaced by others** in new places; all else is as it
was. -/
structure Replaces (w w' : World) (ids : List String) (fresh : List (Nat × Rule)) : Prop where
  /-- What is registered: the others as before, and then what is put in. -/
  registered : w'.registered = (w.registered.filter fun entry => decide (entry.2.id ∉ ids)) ++ fresh
  /-- What is put in has a new place, and no run of it was ever started. -/
  places : ∀ entry ∈ fresh, w.registrations.length ≤ entry.1
    ∧ ∃ r, w'.registrations[entry.1]? = some r ∧ r.slot = {}
  /-- Whoever is registered under another id stays in its place, with its runs. -/
  kept : ∀ entry ∈ w.registered, entry.2.id ∉ ids →
    w'.registrations[entry.1]? = w.registrations[entry.1]?
  /-- Every place keeps its rule. -/
  rules : ∀ (place : Nat) (r : Registration), w.registrations[place]? = some r →
    (w'.registrations[place]?).map (·.rule) = some r.rule
  /-- What was there for the others is there as before, and what is new is there for new rules. -/
  board : ∀ b, ∃ new, w'.board b = ((w.board b).filter fun x => !w.servesNamed ids x.2) ++ new
    ∧ ∀ x ∈ new, ∃ entry ∈ fresh, w'.owner? x.2 = some entry.1
  /-- What stays is there for the same trigger. -/
  serves : ∀ b, ∀ x ∈ w.board b, w.servesNamed ids x.2 = false → w'.serves? x.2 = w.serves? x.2
  /-- Timers that were there stay as they were. -/
  deadlines : w.deadlines <+: w'.deadlines
  /-- Watchers that were there have come as far as before. -/
  matchers : w.matchers <+: w'.matchers

/-- Places are **not given up**. -/
theorem Replaces.length_le (h : Replaces w w' ids fresh) :
    w.registrations.length ≤ w'.registrations.length := by
  by_contra shorter
  have found := List.getElem?_eq_getElem (Nat.lt_of_not_le shorter)
  have there := h.rules _ _ found
  rw [List.getElem?_eq_none (Nat.le_refl _)] at there
  cases there

/-- What is there for callbacks **stays**. -/
theorem Replaces.outsiders (h : Replaces w w' ids fresh) (b : Board) :
    w'.outsiders b = w.outsiders b := by
  obtain ⟨new, board, owned⟩ := h.board b
  have inside : new.filter (fun x => (w'.serves? x.2).isNone) = [] := by
    refine List.filter_eq_nil_iff.mpr fun x member none => ?_
    obtain ⟨entry, -, owner⟩ := owned x member
    rw [owner?, Option.isNone_iff_eq_none.mp none] at owner
    cases owner
  rw [World.outsiders, board, List.filter_append, inside, List.append_nil, List.filter_filter,
    World.outsiders]
  refine List.filter_congr fun x member => ?_
  cases named : w.servesNamed ids x.2 with
  | false => simp [h.serves b x member named]
  | true =>
    -- what is there for such a rule is there for no callback
    have inside : (w.serves? x.2).isNone = false := by
      refine eq_false_of_ne_true fun none => ?_
      rw [servesNamed_of_outsider (Option.isNone_iff_eq_none.mp none)] at named
      cases named
    simp [inside]

/-- Where nothing changes but what is recorded, **nothing is replaced**. -/
theorem replaces_nothing (same : w'.fittings = w.fittings)
    (registrations : w'.registrations = w.registrations) (deadlines : w'.deadlines = w.deadlines)
    (matchers : w'.matchers = w.matchers) : Replaces w w' [] [] where
  registered := by simp [registered_congr (congrArg Fittings.registrations same)]
  places entry member := by cases member
  kept entry _ _ := by rw [registrations]
  rules place r found := by rw [registrations, found, Option.map_some]
  board b := by
    have all (x : Nat × Fixture) : (!w.servesNamed [] x.2) = true := by simp [servesNamed]
    refine ⟨[], ?_, fun x member => by cases member⟩
    rw [board_congr (congrArg Fittings.toRack same), List.filter_eq_self.mpr fun x _ => all x,
      List.append_nil]
  serves b x _ _ := serves?_congr (congrArg Fittings.toRack same) x.2
  deadlines := deadlines ▸ List.prefix_rfl
  matchers := matchers ▸ List.prefix_rfl

/-- What is there for others **stays on its board**, and is there for the same. -/
theorem Replaces.stays (h : Replaces w u ids fresh) {b : Board} {x : Nat × Fixture}
    (member : x ∈ w.board b) (other : w.servesNamed ids x.2 = false) : x ∈ u.board b := by
  obtain ⟨new, board, -⟩ := h.board b
  rw [board]
  exact List.mem_append_left _ (List.mem_filter.mpr ⟨member, by rw [other]; rfl⟩)

/-- What is there for others is there for a rule with the **same id** as before. -/
theorem Replaces.servesNamed (h : Replaces w u ids fresh) (accounts : Accounts w) {b : Board}
    {x : Nat × Fixture} (member : x ∈ w.board b) (other : w.servesNamed ids x.2 = false) :
    u.servesNamed more x.2 = w.servesNamed more x.2 := by
  have owner : u.owner? x.2 = w.owner? x.2 := by
    rw [owner?, h.serves b x member other, ← owner?]
  unfold World.servesNamed
  rw [owner]
  cases served : w.owner? x.2 with
  | none => rfl
  | some place =>
    obtain ⟨rule, registered⟩ := accounts.exists_registered member served
    obtain ⟨r, found, -, rfl⟩ := mem_registered.mp registered
    obtain ⟨r', found', same⟩ := Option.map_eq_some_iff.mp (h.rules place r found)
    rw [Option.bind_some, Option.bind_some, found, found', Option.any_some, Option.any_some, same]

/-- **Two changes in a row**: what the first one put in is gone as well if it has one of the ids of the
second one. -/
theorem Replaces.trans (accounts : Accounts w) (h : Replaces w u ids fresh)
    (h' : Replaces u w' more later) :
    Replaces w w' (ids ++ more)
      ((fresh.filter fun entry => decide (entry.2.id ∉ more)) ++ later) where
  registered := by
    rw [h'.registered, h.registered, List.filter_append, List.filter_filter, List.append_assoc]
    congr 1
    refine List.filter_congr fun entry _ => ?_
    simp [Bool.and_comm]
  places entry member := by
    rcases List.mem_append.mp member with first | second
    · -- the second change leaves its registration alone
      obtain ⟨member, other⟩ := List.mem_filter.mp first
      obtain ⟨new, r, found, idle⟩ := h.places entry member
      have there : entry ∈ u.registered := by
        rw [h.registered]
        exact List.mem_append_right _ member
      exact ⟨new, r, (h'.kept entry there (of_decide_eq_true other)).trans found, idle⟩
    · exact ⟨Nat.le_trans h.length_le (h'.places entry second).1, (h'.places entry second).2⟩
  kept entry member other := by
    rw [List.mem_append, not_or] at other
    have there : entry ∈ u.registered := by
      rw [h.registered]
      exact List.mem_append_left _ (List.mem_filter.mpr ⟨member, decide_eq_true other.1⟩)
    exact (h'.kept entry there other.2).trans (h.kept entry member other.1)
  rules place r found := by
    obtain ⟨r', found', same⟩ := Option.map_eq_some_iff.mp (h.rules place r found)
    rw [h'.rules place r' found', same]
  board b := by
    obtain ⟨new, board, owned⟩ := h.board b
    obtain ⟨new', board', owned'⟩ := h'.board b
    refine ⟨(new.filter fun x => !u.servesNamed more x.2) ++ new', ?_, fun x member => ?_⟩
    · -- what the first change leaves is there for the same ids afterwards
      rw [board', board, List.filter_append, List.filter_filter, List.append_assoc]
      congr 1
      refine List.filter_congr fun x member => ?_
      cases named : w.servesNamed ids x.2 with
      | true => simp [servesNamed_append, named]
      | false => simp [servesNamed_append, named, h.servesNamed accounts member named]
    · rcases List.mem_append.mp member with first | second
      · -- what was put in first is still there if its rule has none of the ids
        obtain ⟨member, other⟩ := List.mem_filter.mp first
        obtain ⟨entry, put, owner⟩ := owned x member
        have there : entry ∈ u.registered := by
          rw [h.registered]
          exact List.mem_append_right _ put
        have named : u.servesNamed more x.2 = decide (entry.2.id ∈ more) :=
          servesNamed_of_owner owner there
        rw [Bool.not_eq_true'] at other
        rw [other] at named
        refine ⟨entry, List.mem_append_left _ (List.mem_filter.mpr ⟨put, ?_⟩), ?_⟩
        · simpa using named.symm
        · have listed : x ∈ u.board b := by
            rw [board]
            exact List.mem_append_right _ member
          rw [owner?, h'.serves b x listed other, ← owner?, owner]
      · obtain ⟨entry, put, owner⟩ := owned' x second
        exact ⟨entry, List.mem_append_right _ put, owner⟩
  serves b x member other := by
    rw [servesNamed_append, Bool.or_eq_false_iff] at other
    have there := h.stays member other.1
    rw [h'.serves b x there ((h.servesNamed accounts member other.1).trans other.2),
      h.serves b x member other.1]
  deadlines := h.deadlines.trans h'.deadlines
  matchers := h.matchers.trans h'.matchers

/-- What is recorded **before and after** does not matter. -/
theorem Replaces.between {v v' : World} (h : Replaces v v' ids fresh) (accounts : Accounts w)
    (accounts' : Accounts v) (before : Replaces w v [] []) (after : Replaces v' w' [] []) :
    Replaces w w' ids fresh := by
  simpa using before.trans accounts (h.trans accounts' after)

/-! ## 3. A rule registered -/

/-- A registered rule has an id **when it is listed under it**. -/
theorem Listed.id_eq_iff (h : Listed w) {place : Nat} {rule : Rule}
    (registered : (place, rule) ∈ w.registered) (id : String) :
    rule.id = id ↔ w.ruleIndex? id = some place := by
  obtain ⟨r, found, live, rfl⟩ := mem_registered.mp registered
  have held := held?_of_registration found
  rw [h id place]
  constructor
  · intro named
    exact ⟨r.bare, held, named, live⟩
  · rintro ⟨r', held', named, -⟩
    rw [held] at held'
    rw [← named, ← Option.some.inj held', Registration.rule_bare]

/-- A rule **taken out** is replaced by none. -/
theorem Accounts.replaces_unregister (h : Accounts w) (listed : Listed w) (id : String) :
    Replaces w (w.unregister id) [id] [] := by
  have named {entry : Nat × Rule} (registered : entry ∈ w.registered) :
      entry.2.id ∈ [id] ↔ w.ruleIndex? id = some entry.1 := by
    rw [List.mem_singleton, listed.id_eq_iff registered]
  -- what is there for the rule is there for the place that is listed under its id
  have served {b : Board} {x : Nat × Fixture} (member : x ∈ w.board b) :
      (!w.servesNamed [id] x.2) = decide (w.ruleIndex? id = none ∨ w.owner? x.2 ≠ w.ruleIndex? id) := by
    cases owner : w.owner? x.2 with
    | none => cases w.ruleIndex? id <;> simp [servesNamed, owner]
    | some place =>
      obtain ⟨rule, registered⟩ := h.exists_registered member owner
      rw [servesNamed_of_owner owner registered, ← decide_not, decide_eq_decide, named registered]
      cases w.ruleIndex? id <;> simp [eq_comm]
  cases found : w.ruleIndex? id with
  | none =>
    have board (b : Board) : (w.board b).filter (fun x => !w.servesNamed [id] x.2) = w.board b :=
      List.filter_eq_self.mpr fun x member => by simp [served member, found]
    have registered : (w.registered.filter fun entry => decide (entry.2.id ∉ [id])) = w.registered :=
      List.filter_eq_self.mpr fun entry member => by
        simpa only [found, reduceCtorEq, iff_false, decide_eq_true_iff] using
          named member
    rw [show w.unregister id = w by rw [unregister, found]]
    exact
      { registered := by rw [registered, List.append_nil]
        places := fun entry member => by cases member
        kept := fun entry _ _ => rfl
        rules := fun place r there => by rw [there, Option.map_some]
        board := fun b => ⟨[], by rw [board, List.append_nil], fun x member => by cases member⟩
        serves := fun b x _ _ => rfl
        deadlines := List.prefix_rfl
        matchers := List.prefix_rfl }
  | some index =>
    let unlisted : World := { w with engine := w.engine.map (Keyed.remove id) }
    have accounts : Accounts unlisted := h.congr rfl rfl rfl
    obtain ⟨-, strips⟩ := accounts.toTallied.dispose index
    have registrations := registrations_dispose unlisted index
    rw [show w.unregister id = unlisted.dispose index by rw [unregister, found]]
    refine
      { registered := ?_
        places := fun entry member => by cases member
        kept := fun entry member other => ?_
        rules := fun place r there => ?_
        board := fun b => ⟨[], ?_, fun x member => by cases member⟩
        serves := fun b x _ _ => strips.serves x.2
        deadlines := by rw [accrues_deadlines.dispose]; exact List.prefix_rfl
        matchers := by rw [accrues_matchers.dispose]; exact List.prefix_rfl }
    · rw [registered_dispose, List.append_nil]
      refine List.filter_congr fun entry member => decide_eq_decide.mpr (not_congr ?_)
      rw [named member, found, Option.some.injEq, eq_comm]
    · rw [named member, found, Option.some.injEq] at other
      rw [registrations, List.getElem?_modify_ne _ _ other]
    · have there' : unlisted.registrations[place]? = some r := there
      rw [registrations, List.getElem?_modify, there']
      split_ifs <;> rfl
    · rw [strips.board, List.append_nil]
      refine List.filter_congr fun x member => ?_
      simp only [served member, found, reduceCtorEq, false_or]
      rfl

/-- A rule **put in** stands in the next place. -/
theorem Accounts.replaces_enrol (h : Accounts w) (rule : Rule) :
    Replaces w (w.enrol rule) [] [(w.registrations.length, rule)] := by
  obtain ⟨-, new, adds⟩ := h.toTallied.enrol rule
  obtain ⟨-, registrations⟩ := enrol_keeps w rule
  have before {place : Nat} {r : Registration} (found : w.registrations[place]? = some r) :
      (w.enrol rule).registrations[place]? = some r := by
    obtain ⟨there, -⟩ := List.getElem?_eq_some_iff.mp found
    rw [registrations, List.getElem?_append_left there, found]
  refine
    { registered := by simp [registered_enrol]
      places := fun entry member => ?_
      kept := fun entry member _ => ?_
      rules := fun place r found => by rw [before found, Option.map_some]
      board := fun b => ⟨new b, by simp [adds.board, servesNamed], fun x member =>
        ⟨_, List.mem_singleton_self _, adds.owner? member⟩⟩
      serves := fun b x member _ => adds.serves b x member
      deadlines := accrues_deadlines.enrol w rule
      matchers := accrues_matchers.enrol w rule }
  · obtain rfl := List.mem_singleton.mp member
    exact ⟨Nat.le_refl _, _, by rw [registrations, List.getElem?_concat_length], rfl⟩
  · obtain ⟨r, found, -⟩ := mem_registered.mp member
    rw [before found, found]

/-- **A rule registered** takes the place of the one with its id, and is in a new place if it is
enabled. -/
theorem Accounts.replaces_register (h : Accounts w) (listed : Listed w) (rule : Rule) :
    Replaces w (w.register rule) [rule.id]
      (if rule.enabled then [(w.registrations.length, rule)] else []) := by
  have noted (v : World) (n : Note) : Replaces v (v.note n) [] [] := replaces_nothing rfl rfl rfl rfl
  -- whoever has the id is taken out first, which may be noted
  obtain ⟨u, first, accounts, length, registered⟩ : ∃ u, Replaces w u [rule.id] [] ∧ Accounts u
      ∧ u.registrations.length = w.registrations.length
      ∧ w.register rule = if rule.enabled then u.enrol rule else u.note .ruleDisabled := by
    have taken := h.replaces_unregister listed rule.id
    have accounts := (h.inside (.unregister w rule.id)).1
    have length : (w.unregister rule.id).registrations.length = w.registrations.length := by
      unfold unregister
      split
      · rfl
      · rw [registrations_dispose, List.length_modify]
    by_cases known : (w.ruleIndex? rule.id).isSome
    · refine ⟨(w.unregister rule.id).note .ruleReplaced, taken.trans h (noted _ _),
        accounts.congr rfl rfl rfl, length, ?_⟩
      rw [register, if_pos known]
    · exact ⟨w.unregister rule.id, taken, accounts, length, by rw [register, if_neg known]⟩
  rw [registered]
  split_ifs
  · rw [← length]
    exact first.trans h (accounts.replaces_enrol rule)
  · exact first.trans h (noted u _)

end RuleDispatch.World
