import RuleDispatch.Proofs.Fittings

/-! # How rules are wired to the bus

A rule hears an event by a subscription that stands for one of its triggers: directly, or by a
watcher that looks for a pattern. Nothing else is ever aimed at a rule, so under no name are there
more handlers aimed at a rule than the rule has triggers that hear the name.

* `Wiring` — the bus, what the watchers call, what labels hold, and the rules.
* `Wiring.Sound` — no more handlers are aimed at a rule than it has triggers for.
* `Wiring.Rewires` — a change that keeps a wiring sound, and what the watchers call.
* `Wiring.rewires_seat` — a rule put in is such a change. -/

namespace RuleDispatch

/-- Whether a trigger **hears a name**, directly or by a watcher. -/
def Trigger.hears (name : String) (watching : Bool) : Trigger → Bool
  | .event own => !watching && own = name
  | .pattern sequence _ => watching && name ∈ sequence
  | .threshold _ _ | .schedule _ | .unknown => false

/-- The **wiring** of a world. -/
structure Wiring where
  bus : Bus Handler
  /-- What the watchers call. -/
  targets : List Target
  /-- The handlers that labels hold. -/
  labelled : Keyed (String × Nat × Handler)
  rules : List Rule

namespace Wiring

variable {v v' : Wiring}

/-- The rule **at which a handler is aimed**, and whether by a watcher. -/
def aim? (v : Wiring) : Handler → Option (Bool × Nat)
  | .target target => target.rule?.map fun index => (false, index)
  | .watcher place => (v.targets[place]?.bind Target.rule?).map fun index => (true, index)

/-- How many handlers under a name are **aimed** at a rule. -/
def aims (v : Wiring) (name : String) (aim : Bool × Nat) : Nat :=
  (v.bus.handlers name).countP fun handler => v.aim? handler = some aim

/-- How many triggers of a rule **hear** a name. -/
def hearing (v : Wiring) (name : String) (aim : Bool × Nat) : Nat :=
  v.rules[aim.2]?.elim 0 fun rule => rule.triggers.countP (Trigger.hears name aim.1)

/-- A wiring is **sound** when no more handlers are aimed at a rule than it has triggers for. -/
structure Sound (v : Wiring) : Prop where
  /-- Watchers that hear something are there. -/
  placed : ∀ s ∈ v.bus.subscribers, ∀ place, s.handler = .watcher place → place < v.targets.length
  /-- Labels hold callbacks only. -/
  labelled : ∀ entry ∈ v.labelled, ∃ place, entry.2.2.2 = .target (.callback place)
  aimed : ∀ name aim, v.aims name aim ≤ v.hearing name aim

/-- A change that **keeps a wiring sound**, and what the watchers call. -/
structure Rewires (v v' : Wiring) : Prop where
  sound : v.Sound → v'.Sound
  targets : v.targets <+: v'.targets

/-- A wiring that **stays as it is** stays sound. -/
theorem Rewires.refl (v : Wiring) : Rewires v v :=
  ⟨id, List.prefix_refl _⟩

/-- What keeps a wiring sound can be done **one after the other**. -/
theorem Rewires.trans {u v v' : Wiring} (h : Rewires u v) (h' : Rewires v v') : Rewires u v' :=
  ⟨h'.sound ∘ h.sound, h.targets.trans h'.targets⟩

/-- Whatever hears a name **stays aimed as it is**, as long as no watcher goes. -/
theorem Sound.aim?_eq (h : v.Sound) (kept : v.targets <+: v'.targets) {name : String}
    {handler : Handler} (member : handler ∈ v.bus.handlers name) :
    v'.aim? handler = v.aim? handler := by
  obtain ⟨s, there, rfl⟩ := List.mem_map.mp member
  cases handler : s.handler with
  | target _ => rfl
  | watcher place =>
    have before := h.placed s (List.mem_of_mem_filter there) place handler
    obtain ⟨more, targets⟩ := kept
    simp only [aim?, ← targets, List.getElem?_append_left before]

/-! ## 1. Handlers taken back and subscribed -/

/-- **Taking subscriptions back** aims fewer handlers. -/
theorem rewires_of_sublist {bus : Bus Handler} (less : bus.subscribers.Sublist v.bus.subscribers) :
    Rewires v { v with bus } where
  sound h :=
    { placed := fun s member => h.placed s (less.subset member)
      labelled := h.labelled
      aimed := fun name aim => by
        have fewer : (bus.handlers name).Sublist (v.bus.handlers name) :=
          (less.filter _).map _
        exact Nat.le_trans fewer.countP_le (h.aimed name aim) }
  targets := List.prefix_refl _

/-- What is heard under a name after **one more subscription**. -/
theorem handlers_subscribe {α : Type} (b : Bus α) (name other : String) (handler : α) :
    (b.subscribe name handler).handlers other
      = b.handlers other ++ if other = name then [handler] else [] := by
  split_ifs with same
  · rw [same, Bus.handlers_subscribe_self]
  · rw [Bus.handlers_subscribe_of_ne b same, List.append_nil]

/-- A **handler subscribed** is aimed as it is. -/
theorem aims_subscribe (v : Wiring) (own : String) (handler : Handler) (name : String)
    (aim : Bool × Nat) :
    aims { v with bus := v.bus.subscribe own handler } name aim
      = v.aims name aim + if name = own ∧ v.aim? handler = some aim then 1 else 0 := by
  have aim?_eq (h : Handler) : aim? { v with bus := v.bus.subscribe own handler } h = v.aim? h := by
    cases h <;> rfl
  simp only [aims, handlers_subscribe, List.countP_append, aim?_eq]
  congr 1
  by_cases same : name = own <;> simp [same, List.countP_cons]

/-- **Callbacks** may be subscribed, and held by labels. -/
theorem rewires_subscribe_callback {v : Wiring} (name label : String) (id : Nat) {handler : Handler}
    (callback : v.Sound → ∃ place, handler = .target (.callback place)) :
    Rewires v { v with
      bus := v.bus.subscribe name handler
      labelled := v.labelled.put label (name, id, handler) } where
  sound h := by
    obtain ⟨place, rfl⟩ := callback h
    refine
      { placed := fun s member place' watches => ?_
        labelled := fun entry member => ?_
        aimed := fun other aim => ?_ }
    · rcases List.mem_append.mp member with old | new
      · exact h.placed s old place' watches
      · rw [List.mem_singleton.mp new] at watches
        cases watches
    · rcases Keyed.eq_or_mem_of_mem_put member with rfl | old
      · exact ⟨place, rfl⟩
      · exact h.labelled entry old
    · have none : v.aim? (.target (.callback place)) ≠ some aim := by rintro ⟨⟩
      refine Nat.le_trans (Nat.le_of_eq (aims_subscribe v name _ other aim)) ?_
      rw [if_neg (none ∘ And.right)]
      exact h.aimed other aim
  targets := List.prefix_refl _

/-! ## 2. Watchers -/

/-- What is heard under a name after a handler was **subscribed to many names**. -/
theorem handlers_foldl_subscribe {α : Type} (b : Bus α) (names : List String) (handler : α)
    (name : String) :
    (names.foldl (fun bus name => bus.subscribe name handler) b).handlers name
      = b.handlers name ++ List.replicate (names.count name) handler := by
  induction names generalizing b with
  | nil => simp
  | cons first rest ih =>
    rw [List.foldl_cons, ih, handlers_subscribe, List.append_assoc, List.count_cons, Nat.add_comm,
      List.replicate_add]
    by_cases same : name = first
    · simp [same]
    · simp [same, Ne.symm same]

/-- Who is subscribed after a handler was subscribed to many names. -/
theorem mem_foldl_subscribe {α : Type} {b : Bus α} {names : List String} {handler : α}
    {s : Subscriber α}
    (h : s ∈ (names.foldl (fun bus name => bus.subscribe name handler) b).subscribers) :
    s ∈ b.subscribers ∨ s.handler = handler := by
  induction names generalizing b with
  | nil => exact .inl h
  | cons first rest ih =>
    rcases ih h with before | own
    · exact (List.mem_append.mp before).imp id fun new => by rw [List.mem_singleton.mp new]
    · exact .inr own

/-- The wiring with **one more watcher**, which calls a target. -/
def watch (v : Wiring) (sequence : List String) (target : Target) : Wiring :=
  { v with
    bus := sequence.eraseDups.foldl (fun bus name => bus.subscribe name (.watcher v.targets.length))
      v.bus
    targets := v.targets ++ [target] }

/-- A watcher is aimed **at its target**, once under every name of its pattern. -/
theorem aims_watch (h : v.Sound) (sequence : List String) (target : Target) (name : String)
    (aim : Bool × Nat) :
    (v.watch sequence target).aims name aim
      = v.aims name aim
        + if name ∈ sequence ∧ target.rule?.map (fun index => (true, index)) = some aim then 1
          else 0 := by
  have own : (v.watch sequence target).aim? (.watcher v.targets.length)
      = target.rule?.map fun index => (true, index) := by
    show ((v.targets ++ [target])[v.targets.length]?.bind Target.rule?).map _ = _
    rw [List.getElem?_concat_length, Option.bind_some]
  have others : (v.bus.handlers name).countP
      (fun handler => (v.watch sequence target).aim? handler = some aim) = v.aims name aim := by
    refine List.countP_congr fun handler member => ?_
    rw [h.aim?_eq (List.prefix_append _ _ : v.targets <+: (v.watch sequence target).targets) member]
  have count : sequence.eraseDups.count name = if name ∈ sequence then 1 else 0 := by
    split_ifs with there
    · exact List.count_eq_one_of_mem (nodup_eraseDups sequence) (List.mem_eraseDups.mpr there)
    · exact List.count_eq_zero.mpr (there ∘ List.mem_eraseDups.mp)
  have heard : (v.watch sequence target).bus.handlers name
      = v.bus.handlers name
        ++ List.replicate (sequence.eraseDups.count name) (.watcher v.targets.length) :=
    handlers_foldl_subscribe _ _ _ _
  rw [aims, heard, List.countP_append, others, List.countP_replicate, own, count]
  congr 1
  split_ifs <;> simp_all

/-- A wiring with one more watcher is sound if **not too much is aimed**. -/
theorem Sound.watch (h : v.Sound) {sequence : List String} {target : Target}
    (aimed : ∀ name aim, (v.watch sequence target).aims name aim ≤ v.hearing name aim) :
    (v.watch sequence target).Sound where
  placed s member place watches := by
    have length : (v.watch sequence target).targets.length = v.targets.length + 1 :=
      List.length_append
    rcases mem_foldl_subscribe member with old | own
    · have := h.placed s old place watches
      omega
    · rw [own] at watches
      injection watches with same
      omega
  labelled := h.labelled
  aimed := aimed

/-- A watcher that **calls a callback** is aimed at no rule. -/
theorem rewires_watch_callback (v : Wiring) (sequence : List String) (place : Nat) :
    Rewires v (v.watch sequence (.callback place)) where
  sound h := h.watch fun name aim => by
    rw [aims_watch h, if_neg (by rintro ⟨-, none⟩; cases none)]
    exact h.aimed name aim
  targets := List.prefix_append _ _

/-! ## 3. Rules put in -/

/-- The wiring with **what a trigger needs** installed for the rule in a place. -/
def install (index : Nat) (v : Wiring) : Trigger → Wiring
  | .event name => { v with bus := v.bus.subscribe name (.target (.rule index)) }
  | .pattern sequence _ => v.watch sequence (.rule index)
  | .threshold _ _ | .schedule _ | .unknown => v

/-- A trigger aims one handler at its rule **under each name that it hears**. -/
theorem aims_install (h : v.Sound) (index : Nat) (trigger : Trigger) (name : String)
    (aim : Bool × Nat) :
    (v.install index trigger).aims name aim
      = v.aims name aim + if aim.2 = index ∧ trigger.hears name aim.1 = true then 1 else 0 := by
  obtain ⟨watching, place⟩ := aim
  cases trigger with
  | event own =>
    refine (aims_subscribe v own (.target (.rule index)) name (watching, place)).trans ?_
    congr 1
    cases watching <;> simp [aim?, Target.rule?, Trigger.hears, eq_comm, and_comm]
  | pattern sequence withinMs =>
    refine (aims_watch h sequence (.rule index) name (watching, place)).trans ?_
    congr 1
    cases watching <;> simp [Target.rule?, Trigger.hears, eq_comm, and_comm]
  | threshold | schedule | unknown => simp [install, Trigger.hears]

/-- What is installed comes **after the targets that were there**. -/
theorem targets_install (v : Wiring) (index : Nat) (trigger : Trigger) :
    v.targets <+: (v.install index trigger).targets := by
  cases trigger with
  | pattern => exact List.prefix_append _ _
  | event | threshold | schedule | unknown => exact List.prefix_refl _

/-- A wiring has **room for triggers** of the rule in a place. -/
structure Room (v : Wiring) (index : Nat) (triggers : List Trigger) : Prop extends Sound v where
  room : ∀ name watching, v.aims name (watching, index)
    + triggers.countP (Trigger.hears name watching) ≤ v.hearing name (watching, index)

/-- **One trigger installed** leaves room for the others. -/
theorem Room.install {index : Nat} {trigger : Trigger} {rest : List Trigger}
    (h : v.Room index (trigger :: rest)) : (v.install index trigger).Room index rest := by
  have hearing : (v.install index trigger).hearing = v.hearing := by cases trigger <;> rfl
  have room (name : String) (watching : Bool) :
      (v.install index trigger).aims name (watching, index)
        + rest.countP (Trigger.hears name watching) ≤ v.hearing name (watching, index) := by
    -- what the trigger aims was counted among the triggers to come before
    have before := h.room name watching
    rw [List.countP_cons] at before
    rw [aims_install h.toSound]
    simp only [true_and]
    omega
  have aimed (name : String) (aim : Bool × Nat) :
      (v.install index trigger).aims name aim ≤ v.hearing name aim := by
    obtain ⟨watching, place⟩ := aim
    -- what aims at other rules is not touched
    by_cases own : place = index
    · rw [own]
      exact Nat.le_trans (Nat.le_add_right _ _) (room name watching)
    · rw [aims_install h.toSound, if_neg (own ∘ And.left)]
      exact h.aimed name _
  have sound : (v.install index trigger).Sound := by
    cases trigger with
    | event name =>
      refine ⟨fun s member place watches => ?_, h.labelled, aimed⟩
      rcases List.mem_append.mp member with old | new
      · exact h.placed s old place watches
      · rw [List.mem_singleton.mp new] at watches
        cases watches
    | pattern sequence withinMs => exact h.toSound.watch aimed
    | threshold | schedule | unknown => exact h.toSound
  exact ⟨sound, by rw [hearing]; exact room⟩

/-- The wiring with **one more rule**, all its triggers installed. -/
def seat (v : Wiring) (rule : Rule) : Wiring :=
  rule.triggers.foldl (install v.rules.length) { v with rules := v.rules ++ [rule] }

/-- There is room for the triggers of a rule **in the next place**. -/
theorem Sound.room (h : v.Sound) (rule : Rule) :
    Room { v with rules := v.rules ++ [rule] } v.rules.length rule.triggers := by
  have aims_eq (name : String) (aim : Bool × Nat) :
      aims { v with rules := v.rules ++ [rule] } name aim = v.aims name aim :=
    List.countP_congr fun handler _ => by cases handler <;> rfl
  -- nothing aims at the new place yet, so all its triggers have room
  have own (name : String) (watching : Bool) :
      hearing { v with rules := v.rules ++ [rule] } name (watching, v.rules.length)
        = rule.triggers.countP (Trigger.hears name watching) := by
    simp [hearing]
  have unaimed (name : String) (watching : Bool) : v.aims name (watching, v.rules.length) = 0 := by
    have bound := h.aimed name (watching, v.rules.length)
    have none : v.hearing name (watching, v.rules.length) = 0 := by simp [hearing]
    omega
  refine ⟨⟨h.placed, h.labelled, fun name aim => ?_⟩, fun name watching => ?_⟩
  · rw [aims_eq]
    obtain ⟨watching, place⟩ := aim
    by_cases new : place = v.rules.length
    · rw [new, unaimed]
      exact Nat.zero_le _
    · have other : hearing { v with rules := v.rules ++ [rule] } name (watching, place)
          = v.hearing name (watching, place) := by
        unfold hearing
        rcases Nat.lt_or_gt_of_ne new with before | beyond
        · rw [List.getElem?_append_left before]
        · rw [List.getElem?_eq_none (by rw [List.length_append]; exact beyond),
            List.getElem?_eq_none (Nat.le_of_lt beyond)]
      rw [other]
      exact h.aimed name (watching, place)
  · exact Nat.le_of_eq (by rw [aims_eq, unaimed, own, Nat.zero_add])

/-- **Putting a rule in** keeps a wiring sound. -/
theorem rewires_seat (v : Wiring) (rule : Rule) : Rewires v (v.seat rule) := by
  have all (triggers : List Trigger) (u : Wiring) :
      (u.Room v.rules.length triggers → (triggers.foldl (install v.rules.length) u).Sound)
      ∧ u.targets <+: (triggers.foldl (install v.rules.length) u).targets := by
    induction triggers generalizing u with
    | nil => exact ⟨Room.toSound, List.prefix_refl _⟩
    | cons trigger rest ih =>
      obtain ⟨sound, targets⟩ := ih (u.install v.rules.length trigger)
      exact ⟨fun room => sound room.install, (targets_install u _ trigger).trans targets⟩
  obtain ⟨sound, targets⟩ := all rule.triggers { v with rules := v.rules ++ [rule] }
  exact ⟨fun h => sound (h.room rule), targets⟩

end Wiring

end RuleDispatch
