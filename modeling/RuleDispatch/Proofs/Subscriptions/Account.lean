import RuleDispatch.Proofs.Disposal.Listing
import RuleDispatch.Proofs.Subscriptions.Outside

/-! # What is there for rules is what they need

What is there for rules is, at every moment, exactly what the triggers of the registered rules need, in
the order in which the rules were put in. Callbacks that were subscribed from outside stay where they
are, whatever rules do.

* `World.registered`, `World.needed` — the rules that are registered, and what they need.
* `World.Accounts` — what is there for rules is what they need.
* `World.Accounts.inside`, `World.Accounts.outside` — every piece of work keeps it so.
* `World.Accounts.move`, `World.Accounts.after` — so does every move, and every history. -/

namespace RuleDispatch

namespace World

variable {w w' : World}

/-- The **registered rules** with their places, in the order in which they were put in. -/
def registered (w : World) : List (Nat × Rule) :=
  w.registrations.zipIdx.filterMap fun r => if r.1.disposed then none else some (r.2, r.1.rule)

/-- What the triggers of registered rules **need on a board**, in order. -/
def needed (w : World) (b : Board) : List (Option String × Nat × Trigger) :=
  w.registered.flatMap fun entry =>
    entry.2.triggers.flatMap fun trigger => (trigger.places b).map fun name => (name, entry.1, trigger)

/-- What is there for rules is **what they need**, and they are enabled. -/
structure Accounts (w : World) : Prop extends Tallied w where
  balanced : ∀ b, w.services b = w.needed b
  enabled : ∀ entry ∈ w.registered, entry.2.enabled = true

/-! ## 1. Registered rules -/

/-- A rule is registered in a place when it **stands there and is not disposed of**. -/
theorem mem_registered {index : Nat} {rule : Rule} :
    (index, rule) ∈ w.registered
      ↔ ∃ r, w.registrations[index]? = some r ∧ r.disposed = false ∧ r.rule = rule := by
  unfold registered
  rw [List.mem_filterMap]
  constructor
  · rintro ⟨⟨r, place⟩, there, shown⟩
    split at shown
    · cases shown
    · next live =>
      obtain ⟨rfl, rfl⟩ := Prod.mk.inj (Option.some.inj shown)
      exact ⟨r, List.mk_mem_zipIdx_iff_getElem?.mp there, eq_false_of_ne_true live, rfl⟩
  · rintro ⟨r, found, live, rfl⟩
    exact ⟨(r, index), List.mk_mem_zipIdx_iff_getElem?.mpr found, by simp [live]⟩

/-- Who is registered depends on **the registrations only**. -/
theorem registered_congr (same : w'.fittings.registrations = w.fittings.registrations) :
    w'.registered = w.registered := by
  have read (v : World) : v.registered = v.fittings.registrations.zipIdx.filterMap fun r =>
      if r.1.disposed then none else some (r.2, r.1.rule) := by
    simp only [registered, fittings, List.zipIdx_map, List.filterMap_map]
    rfl
  rw [read w', same, ← read w]

/-- A rule disposed of is **marked in its place**, and holds on to nothing. -/
theorem registrations_dispose (w : World) (index : Nat) :
    (w.dispose index).registrations
      = w.registrations.modify index fun r => { r with disposed := true, subscriptions := [] } := by
  unfold dispose
  split
  · next absent => rw [List.modify_eq_self (List.getElem?_eq_none_iff.mp absent)]
  · next r _ =>
    dsimp only
    split
    · rfl
    · exact (foldl_retract_keeps (w.modifyRegistration index _) r.subscriptions).2

/-- A rule **disposed of** is registered no more. -/
theorem registered_dispose (w : World) (index : Nat) :
    (w.dispose index).registered = w.registered.filter fun entry => decide (entry.1 ≠ index) := by
  unfold registered
  rw [registrations_dispose, zipIdx_modify, List.filterMap_map, List.filter_filterMap]
  refine List.filterMap_congr fun a _ => ?_
  by_cases here : a.2 = index
  · simp only [Function.comp, here, if_true]
    split <;> simp [Option.filter]
  · simp only [Function.comp, here, if_false]
    split <;> simp [Option.filter, here]

/-- A rule **put in** is registered in the next place. -/
theorem registered_enrol (w : World) (rule : Rule) :
    (w.enrol rule).registered = w.registered ++ [(w.registrations.length, rule)] := by
  unfold registered
  rw [(enrol_keeps w rule).2, List.zipIdx_append, List.filterMap_append]
  simp

/-- What is needed **without one of the rules**. -/
theorem filter_needed (entries : List (Nat × Rule)) (b : Board) (index : Nat) :
    (entries.flatMap fun entry => entry.2.triggers.flatMap fun trigger =>
        (trigger.places b).map fun name => (name, entry.1, trigger)).filter
          (fun served => decide (served.2.1 ≠ index))
      = (entries.filter fun entry => decide (entry.1 ≠ index)).flatMap fun entry =>
          entry.2.triggers.flatMap fun trigger =>
            (trigger.places b).map fun name => (name, entry.1, trigger) := by
  induction entries with
  | nil => rfl
  | cons entry rest ih =>
    rw [List.flatMap_cons, List.filter_append, ih]
    by_cases own : entry.1 = index
    · rw [List.filter_cons_of_neg (by simp [own]), List.filter_eq_nil_iff.mpr, List.nil_append]
      intro served member
      obtain ⟨trigger, -, place⟩ := List.mem_flatMap.mp member
      obtain ⟨name, -, rfl⟩ := List.mem_map.mp place
      simp [own]
    · rw [List.filter_cons_of_pos (by simp [own]), List.flatMap_cons, List.filter_eq_self.mpr]
      intro served member
      obtain ⟨trigger, -, place⟩ := List.mem_flatMap.mp member
      obtain ⟨name, -, rfl⟩ := List.mem_map.mp place
      simp [own]

/-! ## 2. Work -/

/-- An account depends on **the rack, the labels and the registrations** only. -/
theorem Accounts.congr (h : Accounts w) (rack : w'.rack = w.rack)
    (labels : w'.fittings.labels = w.fittings.labels)
    (registrations : w'.fittings.registrations = w.fittings.registrations) : Accounts w' := by
  have same := registered_congr registrations
  refine ⟨h.toTallied.congr rack labels registrations, fun b => ?_, same ▸ h.enabled⟩
  rw [services_congr rack, h.balanced, needed, needed, same]

/-- **Disposing of a rule** takes off what it needed. -/
theorem Accounts.dispose (h : Accounts w) (index : Nat) :
    Accounts (w.dispose index) ∧ ∀ b, (w.dispose index).outsiders b = w.outsiders b := by
  -- what is taken off is what was there for the rule, and the rule is registered no more
  obtain ⟨tallied, strips⟩ := h.toTallied.dispose index
  refine ⟨⟨tallied, fun b => ?_, fun entry member => ?_⟩, strips.outsiders⟩
  · rw [strips.services, h.balanced, needed, filter_needed, ← registered_dispose, ← needed]
  · rw [registered_dispose] at member
    exact h.enabled entry (List.mem_of_mem_filter member)

/-- **Putting a rule in** lists what it needs. -/
theorem Accounts.enrol (h : Accounts w) {rule : Rule} (enabled : rule.enabled = true) :
    Accounts (w.enrol rule) ∧ ∀ b, (w.enrol rule).outsiders b = w.outsiders b := by
  obtain ⟨tallied, new, adds⟩ := h.toTallied.enrol rule
  refine ⟨⟨tallied, fun b => ?_, fun entry member => ?_⟩, adds.outsiders⟩
  · rw [adds.services, h.balanced, needed, needed, registered_enrol, List.flatMap_append,
      List.flatMap_singleton]
  · rw [registered_enrol] at member
    rcases List.mem_append.mp member with old | new
    · exact h.enabled entry old
    · rw [List.mem_singleton.mp new]
      exact enabled

/-- **Disposing of rules** leaves the account right, and what is there for callbacks alone. -/
theorem Accounts.disposeEach (h : Accounts w) (rules : Keyed Nat) :
    Accounts (w.disposeEach rules) ∧ ∀ b, (w.disposeEach rules).outsiders b = w.outsiders b := by
  unfold World.disposeEach
  induction rules generalizing w with
  | nil => exact ⟨h, fun _ => rfl⟩
  | cons rule rest ih =>
    obtain ⟨first, stay⟩ := h.dispose rule.2
    obtain ⟨accounts, stay'⟩ := ih first
    exact ⟨accounts, fun b => (stay' b).trans (stay b)⟩

/-- Work **for rules** keeps the accounts right and leaves callbacks where they are. -/
theorem Accounts.inside (h : Accounts w) (work : Work false w w') :
    Accounts w' ∧ ∀ b, w'.outsiders b = w.outsiders b := by
  cases work with
  | quiet same =>
    exact ⟨h.congr (congrArg Fittings.toRack same) (congrArg Fittings.labels same)
      (congrArg Fittings.registrations same), outsiders_congr (congrArg Fittings.toRack same)⟩
  | unregister _ id =>
    unfold unregister
    split
    · exact ⟨h, fun _ => rfl⟩
    · next index _ =>
      -- which rules the engine lists is of no account; which are disposed of is
      have unlisted : Accounts { w with engine := w.engine.map (Keyed.remove id) } :=
        h.congr rfl rfl rfl
      exact unlisted.dispose index
  | enrol enabled free there => exact h.enrol enabled
  | disposeAll =>
    have unlisted : Accounts { w with engine := w.engine.map fun _ => [] } := h.congr rfl rfl rfl
    exact unlisted.disposeEach _
  | dropEngine =>
    have unlisted : Accounts { w with engine := none } := h.congr rfl rfl rfl
    exact unlisted.disposeEach _

/-- So do several pieces of it. -/
theorem Accounts.works (h : Accounts w) (works : Works false w w') :
    Accounts w' ∧ ∀ b, w'.outsiders b = w.outsiders b := by
  induction works with
  | refl => exact ⟨h, fun _ => rfl⟩
  | tail _ last ih =>
    obtain ⟨accounts, stay⟩ := ih.1.inside last
    exact ⟨accounts, fun b => (stay b).trans (ih.2 b)⟩

/-- Work **from outside** keeps them right as well. -/
theorem Accounts.outside (h : Accounts w) (work : Work true w w') : Accounts w' := by
  have respects := h.toTallied.outside work
  have same := registered_congr respects.registrations
  refine ⟨respects.tallied, fun b => ?_, same ▸ h.enabled⟩
  rw [respects.services, h.balanced, needed, needed, same]

/-! ## 3. Moves -/

/-- **Every move** keeps the accounts right, and leaves callbacks where they are unless it works on
them from outside. -/
theorem Accounts.move (h : Accounts w) (exec : Executor) (m : Move) :
    Accounts (w.move exec m)
      ∧ (w.worksOutside m = false → ∀ b, (w.move exec m).outsiders b = w.outsiders b) := by
  have works := works_move exec w m
  generalize w.worksOutside m = outside, w.move exec m = later at works
  cases outside with
  | true =>
    refine ⟨?_, fun inside => by cases inside⟩
    induction works with
    | refl => exact h
    | tail _ last ih => exact ih.outside last
  | false => exact ⟨(h.works works).1, fun _ => (h.works works).2⟩

/-- So does every history. -/
theorem Accounts.after (h : Accounts w) (exec : Executor) (moves : List Move) :
    Accounts (w.after exec moves) :=
  after_induct (fun _ m accounts => (accounts.move exec m).1) h moves

/-- Where nothing happened, nothing is there and nothing is needed. -/
theorem accounts_empty (wallClock : Timestamp) : Accounts (empty wallClock) where
  heard s member := by cases member
  known x member := by cases member
  closed x member := by cases member
  bounded b x member := by cases b <;> cases member
  ordered b := by cases b <;> exact .nil
  issued o s there := by
    cases o with
    | none => cases s <;> obtain ⟨_, member, -⟩ := there <;> cases member
    | some index =>
      obtain ⟨r, found, -⟩ := there
      cases found
  belongs o s there b x member := by cases b <;> cases member
  marked b x member := by cases b <;> cases member
  lent held member := by cases member
  balanced b := by cases b <;> rfl
  enabled entry member := by cases member

end World

end RuleDispatch
