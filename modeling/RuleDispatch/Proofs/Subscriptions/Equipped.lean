import RuleDispatch.Proofs.Subscriptions.Account

/-! # Subscriptions are those of the registered rules

Besides callbacks, the bus holds one handler for each trigger of a registered rule that hears a name,
the store one listener for each threshold, and there is one active timer for each schedule with an
interval, all of them in the order in which the rules were put in.

* `World.triggersThat` — the triggers of registered rules.
* `World.Equipped` — what is there for rules, on the bus, in the store and on the clock.
* `World.Accounts.equipped` — it is what the accounts say. -/

namespace RuleDispatch

/-- Whether a trigger **hears a name**, directly or in a pattern. -/
def Trigger.isHeardUnder (name : String) : Trigger → Bool
  | .event own => own = name
  | .pattern sequence _ => name ∈ sequence
  | .threshold _ _ | .schedule _ | .unknown => false

/-- Whether a trigger **listens to numbers**. -/
def Trigger.isThreshold : Trigger → Bool
  | .threshold _ _ => true
  | .event _ | .pattern _ _ | .schedule _ | .unknown => false

/-- Whether a trigger **ticks**: it is a schedule with an interval. -/
def Trigger.ticks : Trigger → Bool
  | .schedule ms => ms ≠ 0
  | .event _ | .pattern _ _ | .threshold _ _ | .unknown => false

namespace World

variable {w w' : World}

/-- The **triggers of some kind** of the registered rules, with the places of the rules, in order. -/
def triggersThat (w : World) (wanted : Trigger → Bool) : List (Nat × Trigger) :=
  w.registered.flatMap fun entry =>
    (entry.2.triggers.filter wanted).map fun trigger => (entry.1, trigger)

/-- What is there for the registered rules is **what their triggers ask for**, and nothing else is
there but callbacks. -/
structure Equipped (w : World) : Prop where
  /-- The engine lists the registered rules. -/
  listed : ∀ id index, w.ruleIndex? id = some index
    ↔ ∃ rule, (index, rule) ∈ w.registered ∧ rule.id = id
  /-- They are enabled. -/
  enabled : ∀ entry ∈ w.registered, entry.2.enabled = true
  /-- The handlers under a name that are there for rules. -/
  bus : ∀ name, (w.bus.handlers name).filterMap (fun handler => w.serves? (.subscriber name handler))
    = w.triggersThat (Trigger.isHeardUnder name)
  /-- The listeners to numbers that are there for rules. -/
  numbers : w.store.hearNumbers.filterMap NumberListener.serves?
    = w.triggersThat Trigger.isThreshold
  /-- The active timers that are there for rules. -/
  clock : (w.timers.filter (·.active)).filterMap (fun t => w.serves? (.timer t.interval t.target))
    = w.triggersThat Trigger.ticks
  /-- Every handler that is there for no rule is there for a callback, and no watcher hears anything
  once it is disposed of. -/
  others : ∀ s ∈ w.bus.subscribers, match s.handler with
    | .target target => target.rule? = none → ∃ callback, target = .callback callback
    | .watcher place => ∃ x, w.watchers[place]? = some x ∧ x.disposed = false
  /-- Everything is in the order in which it was made. -/
  ordered : ∀ b, (w.board b).Pairwise (·.1 < ·.1)

/-! ## What the accounts say -/

/-- What a trigger needs, **picked from a board**, is the trigger if it is wanted. -/
theorem filterMap_needed (w : World) (b : Board)
    (pick : Option String × Nat × Trigger → Option (Nat × Trigger)) (wanted : Trigger → Bool)
    (one : ∀ index trigger, ((trigger.places b).map fun name => (name, index, trigger)).filterMap pick
      = if wanted trigger then [(index, trigger)] else []) :
    (w.needed b).filterMap pick = w.triggersThat wanted := by
  have each (index : Nat) (triggers : List Trigger) :
      (triggers.flatMap fun trigger => if wanted trigger then [(index, trigger)] else [])
        = (triggers.filter wanted).map fun trigger => (index, trigger) := by
    induction triggers with
    | nil => rfl
    | cons trigger rest ih =>
      rw [List.flatMap_cons, ih]
      cases wants : wanted trigger <;> simp [wants]
  rw [needed, List.filterMap_flatMap, triggersThat]
  simp only [List.filterMap_flatMap, one, each]

/-- A name **picked from a pattern**. -/
theorem filterMap_eraseDups {α : Type} (names : List String) (name : String) (a : α) :
    names.eraseDups.filterMap (fun other => if other = name then some a else none)
      = if name ∈ names then [a] else [] := by
  have once (others : List String) (nodup : others.Nodup) :
      others.filterMap (fun other => if other = name then some a else none)
        = if name ∈ others then [a] else [] := by
    induction nodup with
    | nil => rfl
    | @cons other rest fresh _ ih =>
      by_cases same : other = name
      · subst same
        have absent : other ∉ rest := fun member => fresh other member rfl
        simp [ih, absent]
      · simp [ih, same, Ne.symm same]
  rw [once _ (nodup_eraseDups names)]
  simp

/-- Who hears a name **for rules**. -/
theorem Accounts.bus (h : Accounts w) (name : String) :
    (w.bus.handlers name).filterMap (fun handler => w.serves? (.subscriber name handler))
      = w.triggersThat (Trigger.isHeardUnder name) := by
  let pick : Option String × Nat × Trigger → Option (Nat × Trigger) :=
    fun served => if served.1 = some name then some served.2 else none
  have heard : (w.services .bus).filterMap pick
      = (w.bus.handlers name).filterMap fun handler => w.serves? (.subscriber name handler) := by
    rw [services, board, List.filterMap_map, List.filterMap_filterMap, Bus.handlers,
      List.filterMap_map, List.filterMap_filter]
    refine List.filterMap_congr fun s _ => ?_
    -- a subscriber under another name is left out on both sides
    by_cases same : s.name = name
    · subst same
      simp [pick, service, Fixture.name?, Option.bind_map]
    · cases served : w.serves? (.subscriber s.name s.handler) <;>
        simp [pick, service, Fixture.name?, served, same]
  rw [← heard, h.balanced]
  refine filterMap_needed w .bus pick _ fun index trigger => ?_
  cases trigger with
  | event own => by_cases same : own = name <;> simp [Trigger.places, Trigger.isHeardUnder, pick, same]
  | pattern sequence withinMs =>
    -- a watcher subscribes once to a name, however often the pattern has it
    rw [Trigger.places, List.map_map, List.filterMap_map]
    refine Eq.trans ?_ (filterMap_eraseDups sequence name (index, .pattern sequence withinMs))
      |>.trans (by simp [Trigger.isHeardUnder])
    exact List.filterMap_congr fun other _ => by simp [pick]
  | threshold | schedule | unknown => rfl

/-- Who listens to numbers **for rules**. -/
theorem Accounts.numbers (h : Accounts w) :
    w.store.hearNumbers.filterMap NumberListener.serves?
      = w.triggersThat Trigger.isThreshold := by
  have heard : (w.services .numbers).filterMap (fun served => some served.2)
      = w.store.hearNumbers.filterMap NumberListener.serves? := by
    rw [services, board, List.filterMap_map, List.filterMap_filterMap, Store.hearNumbers,
      List.filterMap_map]
    refine List.filterMap_congr fun l _ => ?_
    simp [service, serves?, Option.bind_map]
  rw [← heard, h.balanced]
  refine filterMap_needed w .numbers _ _ fun index trigger => ?_
  cases trigger <;> rfl

/-- Which active timers are there **for rules**. -/
theorem Accounts.clock (h : Accounts w) :
    (w.timers.filter (·.active)).filterMap (fun t => w.serves? (.timer t.interval t.target))
      = w.triggersThat Trigger.ticks := by
  have placed : w.timers = w.timers.zipIdx.map (·.1) := (List.zipIdx_map_fst 0 _).symm
  have heard : (w.services .clock).filterMap (fun served => some served.2)
      = (w.timers.filter (·.active)).filterMap fun t => w.serves? (.timer t.interval t.target) := by
    conv_rhs => rw [placed]
    rw [services, board, List.filterMap_filterMap, List.filterMap_filterMap, List.filterMap_filter,
      List.filterMap_map]
    refine List.filterMap_congr fun t _ => ?_
    by_cases active : t.1.active <;> simp [active, service, Option.bind_map]
  rw [← heard, h.balanced]
  refine filterMap_needed w .clock _ _ fun index trigger => ?_
  cases trigger with
  | schedule ms => by_cases empty : ms = 0 <;> simp [Trigger.places, Trigger.ticks, empty]
  | event | pattern | threshold | unknown => rfl

/-- What is listed under an id is **the registered rule** with this id. -/
theorem Listed.ruleIndex?_eq_some_iff (listed : Listed w) (id : String) (index : Nat) :
    w.ruleIndex? id = some index ↔ ∃ rule, (index, rule) ∈ w.registered ∧ rule.id = id := by
  rw [listed id index]
  constructor
  · rintro ⟨r, held, named, live⟩
    obtain ⟨r', found, rfl⟩ := Option.map_eq_some_iff.mp held
    exact ⟨r'.rule, mem_registered.mpr ⟨r', found, live, rfl⟩, named⟩
  · rintro ⟨rule, member, named⟩
    obtain ⟨r, found, live, rfl⟩ := mem_registered.mp member
    exact ⟨r.bare, held?_of_registration found, named, live⟩

/-- **What is there for rules** is what they ask for. -/
theorem Accounts.equipped (h : Accounts w) (listed : Listed w) : Equipped w where
  listed := listed.ruleIndex?_eq_some_iff
  enabled := h.enabled
  bus := h.bus
  numbers := h.numbers
  clock := h.clock
  others s member := by
    cases handler : s.handler with
    | target target =>
      cases target with
      | callback callback => exact fun _ => ⟨callback, rfl⟩
      | rule index => rintro ⟨⟩
    | watcher place =>
      -- it knows where it is subscribed, so it is not disposed of
      obtain ⟨x, found, known⟩ := (h.heard s member place).mp handler
      refine ⟨x, found, eq_false_of_ne_true fun disposed => ?_⟩
      rw [h.closed x (List.mem_of_getElem? found) disposed] at known
      cases known
  ordered := h.ordered

end World

end RuleDispatch
