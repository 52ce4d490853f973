import RuleDispatch.Proofs.Subscriptions.Tallies

/-! # The books of a world

What rules and labels hold on to stands in the world: in the registrations and in the labels. Every
piece of work on the fittings keeps these books right. A rule put in lists one thing on the boards for
each place that its triggers need; a rule disposed of takes off what is there for it; and whatever is
done from outside leaves alone what is there for rules.

* `World.Records`, `World.Tallied` — the books, and that they are right.
* `World.services`, `World.outsiders` — what is on a board for rules, and what is not.
* `World.Strips`, `World.Tallied.dispose` — disposing of a rule.
* `World.Adds`, `World.Tallied.enrol` — putting a rule in. -/

namespace RuleDispatch

/-- The **places that a trigger needs** on a board, by the names under which it is listed there. -/
def Trigger.places : Board → Trigger → List (Option String)
  | .bus, .event name => [some name]
  | .bus, .pattern sequence _ => sequence.eraseDups.map some
  | .numbers, .threshold _ _ => [none]
  | .clock, .schedule ms => if ms = 0 then [] else [none]
  | _, _ => []

namespace World

variable {w w' : World}

/-- What rules, by their places, and labels **hold on to**. -/
def Records (w : World) : Option Nat → Subscription → Prop
  | none, s => w.Labelled s
  | some index, s => ∃ r, w.registrations[index]? = some r ∧ s ∈ r.subscriptions

/-- The **books are right**, and labels hold callbacks only. -/
structure Tallied (w : World) : Prop extends Tallies w w.Records where
  lent : ∀ held ∈ w.labels.subscriptions, ∃ place, held.2.2.2 = .target (.callback place)

/-- What a fixture is there for: **its name, the rule and the trigger**. -/
def service (w : World) (fixture : Fixture) : Option (Option String × Nat × Trigger) :=
  (w.serves? fixture).map fun served => (fixture.name?, served)

/-- What is on a board **for rules**, in order. -/
def services (w : World) (b : Board) : List (Option String × Nat × Trigger) :=
  (w.board b).filterMap fun x => w.service x.2

/-- What is on a board **for callbacks**, in order. -/
def outsiders (w : World) (b : Board) : List (Nat × Fixture) :=
  (w.board b).filter fun x => (w.serves? x.2).isNone

/-! ## 1. What the books hang on -/

/-- What the labels hold depends on **the fittings only**. -/
theorem labels_congr {w w' : World} (same : w'.fittings.labels = w.fittings.labels) :
    w'.labels.subscriptions = w.labels.subscriptions ∧ ∀ s, w'.Labelled s ↔ w.Labelled s := by
  have subscriptions : w'.labels.subscriptions = w.labels.subscriptions :=
    show w'.fittings.labels.subscriptions = _ by rw [same]; rfl
  have listeners : w'.labels.listeners = w.labels.listeners :=
    show w'.fittings.labels.listeners = _ by rw [same]; rfl
  have watchers : w'.labels.watchers = w.labels.watchers :=
    show w'.fittings.labels.watchers = _ by rw [same]; rfl
  have timers : w'.labels.timers = w.labels.timers :=
    show w'.fittings.labels.timers = _ by rw [same]; rfl
  refine ⟨subscriptions, fun s => ?_⟩
  cases s <;> simp only [Labelled, subscriptions, listeners, watchers, timers]

/-- The registrations of the fittings hold on to the same. -/
theorem records_some_iff (w : World) (index : Nat) (s : Subscription) :
    w.Records (some index) s
      ↔ ∃ r, w.fittings.registrations[index]? = some r ∧ s ∈ r.subscriptions := by
  simp only [Records, fittings, List.getElem?_map, Option.map_eq_some_iff]
  constructor
  · rintro ⟨r, found, member⟩
    exact ⟨_, ⟨r, found, rfl⟩, member⟩
  · rintro ⟨_, ⟨r, found, rfl⟩, member⟩
    exact ⟨r, found, member⟩

/-- Who holds on to what hangs on **the labels and the registrations**. -/
theorem records_congr {w w' : World} (labels : w'.fittings.labels = w.fittings.labels)
    (registrations : w'.fittings.registrations = w.fittings.registrations) (o : Option Nat)
    (s : Subscription) : w'.Records o s ↔ w.Records o s := by
  cases o with
  | none => exact (labels_congr labels).2 s
  | some index => rw [records_some_iff, registrations, ← records_some_iff]

/-- A tally stays right where **less is held**, but no less by the places of rules. -/
theorem Tallies.mono {held held' : Option Nat → Subscription → Prop} (h : Tallies w held)
    (fewer : ∀ o s, held' o s → held o s)
    (kept : ∀ index s, held (some index) s → held' (some index) s) : Tallies w held' where
  toWatched := h.toWatched
  bounded := h.bounded
  ordered := h.ordered
  issued o s there := h.issued o s (fewer o s there)
  belongs o s there := h.belongs o s (fewer o s there)
  marked b x member index owner := by
    obtain ⟨s, there, marks⟩ := h.marked b x member index owner
    exact ⟨s, kept index s there, marks⟩

/-- The books hang on **the rack, the labels and the registrations**. -/
theorem Tallied.congr (h : Tallied w) (rack : w'.rack = w.rack)
    (labels : w'.fittings.labels = w.fittings.labels)
    (registrations : w'.fittings.registrations = w.fittings.registrations) : Tallied w' := by
  have records := records_congr labels registrations
  refine ⟨(h.toTallies.congr rack).mono (fun o s => (records o s).mp)
    fun index s => (records (some index) s).mpr, ?_⟩
  rw [(labels_congr labels).1]
  exact h.lent

/-- That all tallies depends on **the fittings only**. -/
theorem Tallied.of_fittings (h : Tallied w) (same : w'.fittings = w.fittings) : Tallied w' :=
  h.congr (congrArg Fittings.toRack same) (congrArg Fittings.labels same)
    (congrArg Fittings.registrations same)

/-- What is on a board for rules depends on **the rack only**. -/
theorem services_congr (same : w'.rack = w.rack) (b : Board) : w'.services b = w.services b := by
  unfold services service
  rw [board_congr same]
  simp only [serves?_congr same]

/-- So does what is on it for callbacks. -/
theorem outsiders_congr (same : w'.rack = w.rack) (b : Board) : w'.outsiders b = w.outsiders b := by
  unfold outsiders
  rw [board_congr same]
  simp only [serves?_congr same]

/-! ## 2. Rules disposed of -/

/-- A rule is **stripped** of what is there for it. -/
structure Strips (w w' : World) (index : Nat) : Prop where
  board : ∀ b, w'.board b = (w.board b).filter fun x => decide (w.owner? x.2 ≠ some index)
  serves : ∀ fixture, w'.serves? fixture = w.serves? fixture

/-- That a rule is stripped depends on **the rack only**. -/
theorem Strips.congr {u : World} {index : Nat} (h : Strips w w' index) (same : u.rack = w'.rack) :
    Strips w u index where
  board b := (board_congr same b).trans (h.board b)
  serves fixture := (serves?_congr same fixture).trans (h.serves fixture)

/-- What is there for rules is what was, **without this rule**. -/
theorem Strips.services {index : Nat} (h : Strips w w' index) (b : Board) :
    w'.services b = (w.services b).filter fun served => decide (served.2.1 ≠ index) := by
  have same : w'.service = w.service := by
    funext fixture
    rw [service, service, h.serves]
  rw [World.services, World.services, h.board, same, List.filter_filterMap, List.filterMap_filter]
  refine List.filterMap_congr fun x _ => ?_
  unfold owner? service
  cases w.serves? x.2 with
  | none => rfl
  | some served => by_cases own : served.1 = index <;> simp [own, Option.filter]

/-- What is there for callbacks **stays**. -/
theorem Strips.outsiders {index : Nat} (h : Strips w w' index) (b : Board) :
    w'.outsiders b = w.outsiders b := by
  unfold World.outsiders
  rw [h.board, List.filter_filter]
  refine List.filter_congr fun x _ => ?_
  rw [h.serves, owner?]
  cases w.serves? x.2 <;> simp

/-- **All that a rule holds on to** taken off. -/
theorem Tallies.foldl_retract {held held' : Option Nat → Subscription → Prop} (h : Tallies w held)
    {index : Nat} {subscriptions : List Subscription}
    (own : ∀ s, held (some index) s ↔ s ∈ subscriptions) (gone : ∀ s, ¬ held' (some index) s)
    (fewer : ∀ o s, held' o s → held o s)
    (kept : ∀ other s, other ≠ index → held (some other) s → held' (some other) s) :
    Tallies (subscriptions.foldl World.retract w) held'
      ∧ Strips w (subscriptions.foldl World.retract w) index := by
  -- the rule holds on to what is left of the list, and all else is held as before
  induction subscriptions generalizing w held with
  | nil =>
    -- nothing is there for the rule any more
    have none (b : Board) (x : Nat × Fixture) (member : x ∈ w.board b) : w.owner? x.2 ≠ some index := by
      intro owner
      obtain ⟨s, there, -⟩ := h.marked b x member index owner
      cases (own s).mp there
    refine ⟨?_, fun b => ?_, fun _ => rfl⟩
    · exact
        { toWatched := h.toWatched
          bounded := h.bounded
          ordered := h.ordered
          issued := fun o s there => h.issued o s (fewer o s there)
          belongs := fun o s there => h.belongs o s (fewer o s there)
          marked := fun b x member other owner => by
            obtain ⟨s, there, marks⟩ := h.marked b x member other owner
            exact ⟨s, kept other s (fun same => none b x member (same ▸ owner)) there, marks⟩ }
    · exact (List.filter_eq_self.mpr fun x member => decide_eq_true (none b x member)).symm
  | cons s rest ih =>
    have first : Tallies (w.retract s) fun o t => held o t ∧ (o = some index → t ∈ rest) := by
      refine h.retract s (fun o t => And.left) fun other t ne there => ⟨there, fun same => ?_⟩
      obtain rfl := Option.some.inj same
      exact (List.mem_cons.mp ((own t).mp there)).resolve_left ne
    have own' (t : Subscription) :
        (held (some index) t ∧ (some index = some index → t ∈ rest)) ↔ t ∈ rest :=
      ⟨fun there => there.2 rfl,
        fun member => ⟨(own t).mpr (List.mem_cons_of_mem _ member), fun _ => member⟩⟩
    obtain ⟨tallies, strips⟩ := ih first own'
      (fun o t there => ⟨fewer o t there, fun same => absurd (same ▸ there) (gone t)⟩)
      fun other t ne there => kept other t ne there.1
    refine ⟨tallies, fun b => ?_, fun fixture => ?_⟩
    · rw [List.foldl_cons, strips.board, h.board_retract, List.filter_filter]
      refine List.filter_congr fun x member => ?_
      rw [owner?, serves?_retract, ← owner?]
      -- what the first subscription marks belongs to the rule
      cases marks : s.marks x with
      | false => simp
      | true => simp [h.belongs (some index) s ((own s).mpr List.mem_cons_self) b x member marks]
    · exact (strips.serves fixture).trans (serves?_retract w s fixture)

/-- All that a rule holds on to taken off **leaves the labels and the rules** alone. -/
theorem foldl_retract_keeps (w : World) (subscriptions : List Subscription) :
    (subscriptions.foldl World.retract w).labels = w.labels
      ∧ (subscriptions.foldl World.retract w).registrations = w.registrations := by
  induction subscriptions generalizing w with
  | nil => exact ⟨rfl, rfl⟩
  | cons s rest ih =>
    obtain ⟨labels, registrations⟩ := retract_keeps w s
    exact ⟨(ih _).1.trans labels, (ih _).2.trans registrations⟩

/-- When a rule **lets go of all**, the others hold on to what they held on to. -/
theorem records_of_emptied {index : Nat} (labels : w'.labels = w.labels)
    (registrations : w'.registrations
      = w.registrations.modify index fun r => { r with disposed := true, subscriptions := [] })
    (o : Option Nat) (s : Subscription) : w'.Records o s ↔ o ≠ some index ∧ w.Records o s := by
  cases o with
  | none =>
    have labelled : w'.Labelled s ↔ w.Labelled s := by
      cases s <;> simp only [Labelled, labels]
    simp [Records, labelled]
  | some other =>
    simp only [Records, registrations, List.getElem?_modify]
    by_cases here : index = other
    · subst here
      cases w.registrations[index]? <;> simp
    · simp [here, Ne.symm here]

/-- **Disposing of a rule** takes off what is there for it, and keeps the books right. -/
theorem Tallied.dispose (h : Tallied w) (index : Nat) :
    Tallied (w.dispose index) ∧ Strips w (w.dispose index) index := by
  cases found : w.registrations[index]? with
  | none =>
    have still : w.dispose index = w := by rw [World.dispose, found]
    rw [still]
    refine ⟨h, fun b => (List.filter_eq_self.mpr fun x member => decide_eq_true ?_).symm, fun _ => rfl⟩
    intro owner
    obtain ⟨s, ⟨r, there, -⟩, -⟩ := h.marked b x member index owner
    rw [found] at there
    cases there
  | some r =>
    let marked := w.modifyRegistration index fun r => { r with disposed := true, subscriptions := [] }
    let stripped := r.subscriptions.foldl World.retract marked
    have same : (w.dispose index).fittings = stripped.fittings := by
      unfold World.dispose
      rw [found]
      dsimp only
      split
      · next empty =>
        show _ = (r.subscriptions.foldl World.retract marked).fittings
        rw [empty]
        rfl
      · rfl
    obtain ⟨labels, registrations⟩ := foldl_retract_keeps marked r.subscriptions
    -- the registration is emptied first, while its subscriptions still stand on the boards
    have records (o : Option Nat) (s : Subscription) :
        stripped.Records o s ↔ o ≠ some index ∧ w.Records o s :=
      records_of_emptied (w := w) labels registrations o s
    have own (s : Subscription) : w.Records (some index) s ↔ s ∈ r.subscriptions := by
      simp [Records, found]
    have first : Tallies marked w.Records := h.toTallies.congr rfl
    obtain ⟨tallies, strips⟩ := first.foldl_retract own
      (fun s there => ((records _ s).mp there).1 rfl) (fun o s there => ((records o s).mp there).2)
      fun other s ne there =>
        (records (some other) s).mpr ⟨fun same => ne (Option.some.inj same), there⟩
    have original : Strips w stripped index := ⟨strips.board, strips.serves⟩
    refine ⟨Tallied.of_fittings ⟨tallies, ?_⟩ same, original.congr (congrArg Fittings.toRack same)⟩
    rw [labels]
    exact h.lent

/-! ## 3. Rules put in -/

/-- What is **listed for triggers** of a rule, one fixture for each place that they need. -/
structure Adds (w w' : World) (index : Nat) (triggers : List Trigger)
    (new : Board → List (Nat × Fixture)) : Prop extends Installs w w' new where
  served : ∀ b, (new b).map (fun x => (x.2.name?, w'.serves? x.2))
    = triggers.flatMap fun trigger => (trigger.places b).map fun name => (name, some (index, trigger))

/-- What is added depends on **the rack only**. -/
theorem Adds.congr {u : World} {index : Nat} {triggers : List Trigger}
    {new : Board → List (Nat × Fixture)} (h : Adds w w' index triggers new)
    (same : u.rack = w'.rack) : Adds w u index triggers new where
  toInstalls := h.toInstalls.congr same
  served b := by
    simp only [serves?_congr same]
    exact h.served b

/-- What is listed for a rule is **there for it**. -/
theorem Adds.owner? {index : Nat} {triggers : List Trigger} {new : Board → List (Nat × Fixture)}
    (h : Adds w w' index triggers new) {b : Board} {x : Nat × Fixture} (member : x ∈ new b) :
    w'.owner? x.2 = some index := by
  have there : (x.2.name?, w'.serves? x.2) ∈ (new b).map fun x => (x.2.name?, w'.serves? x.2) :=
    List.mem_map_of_mem (f := fun x => (x.2.name?, w'.serves? x.2)) member
  rw [h.served] at there
  obtain ⟨trigger, -, place⟩ := List.mem_flatMap.mp there
  obtain ⟨name, -, same⟩ := List.mem_map.mp place
  rw [World.owner?, ← (Prod.mk.inj same).2]
  rfl

/-- What is there for rules is what was, **and what is there for these triggers**. -/
theorem Adds.services {index : Nat} {triggers : List Trigger} {new : Board → List (Nat × Fixture)}
    (h : Adds w w' index triggers new) (b : Board) :
    w'.services b = w.services b
      ++ triggers.flatMap fun trigger => (trigger.places b).map fun name => (name, index, trigger) := by
  have old : (w.board b).filterMap (fun x => w'.service x.2) = w.services b :=
    List.filterMap_congr fun x member => by rw [service, service, h.serves b x member]
  have fresh : (new b).filterMap (fun x => w'.service x.2)
      = ((new b).map fun x => (x.2.name?, w'.serves? x.2)).filterMap
          fun shown => shown.2.map fun served => (shown.1, served) := by
    rw [List.filterMap_map]
    rfl
  rw [World.services, h.board, List.filterMap_append, old, fresh, h.served]
  simp only [List.filterMap_flatMap, List.filterMap_map, Function.comp_def, Option.map_some,
    List.filterMap_eq_map']

/-- What is there for callbacks **stays**. -/
theorem Adds.outsiders {index : Nat} {triggers : List Trigger} {new : Board → List (Nat × Fixture)}
    (h : Adds w w' index triggers new) (b : Board) : w'.outsiders b = w.outsiders b := by
  have none : (new b).filter (fun x => (w'.serves? x.2).isNone) = [] := by
    refine List.filter_eq_nil_iff.mpr fun x member => ?_
    have owner := h.owner? member
    unfold World.owner? at owner
    cases served : w'.serves? x.2 with
    | none =>
      rw [served] at owner
      cases owner
    | some _ => simp
  rw [World.outsiders, h.board, List.filter_append, none, List.append_nil]
  exact List.filter_congr fun x member => by rw [h.serves b x member]

/-- What is listed for triggers and then for others is listed **for all of them**. -/
theorem Adds.trans {u : World} {index : Nat} {triggers others : List Trigger}
    {new more : Board → List (Nat × Fixture)} (h : Adds u w index triggers new)
    (h' : Adds w w' index others more) :
    Adds u w' index (triggers ++ others) fun b => new b ++ more b where
  toInstalls := h.toInstalls.trans h'.toInstalls
  served b := by
    have still : (new b).map (fun x => (x.2.name?, w'.serves? x.2))
        = (new b).map fun x => (x.2.name?, w.serves? x.2) :=
      List.map_congr_left fun x member => by
        rw [h'.serves b x (by rw [h.board]; exact List.mem_append_right _ member)]
    rw [List.map_append, still, h.served, h'.served, List.flatMap_append]

variable {held held' : Option Nat → Subscription → Prop}

/-- What is listed for a rule and **held by it**. -/
theorem Tallies.adds (h : Tallies w held) {index : Nat} {triggers : List Trigger}
    {new : Board → List (Nat × Fixture)} (adds : Adds w w' index triggers new) {s : Subscription}
    (grown : ∀ o t, held' o t ↔ held o t ∨ (o = some index ∧ t = s)) (unknown : ¬ w.Issued s)
    (known : w'.Issued s) (marks : ∀ b, ∀ x ∈ new b, s.marks x = true) : Tallies w' held' :=
  h.installs adds.toInstalls (o := some index) (fun _ _ => adds.owner?)
    (fun other t there => (grown (some other) t).mpr (.inl there))
    (fun o t there => ((grown o t).mp there).imp id fun ⟨own, same⟩ => ⟨own, same ▸ ⟨known, unknown⟩⟩)
    fun _ b x member => ⟨s, (grown _ _).mpr (.inr ⟨rfl, rfl⟩), marks b x member⟩

/-- **A trigger wired** lists what it needs. -/
theorem Tallies.wire (h : Tallies w held) (index : Nat) (rule : String) (trigger : Trigger)
    (grown : ∀ o s, held' o s
      ↔ held o s ∨ (o = some index ∧ (w.wire index rule trigger).2 = some s)) :
    ∃ new, Adds w (w.wire index rule trigger).1 index [trigger] new
      ∧ Tallies (w.wire index rule trigger).1 held' := by
  have only {s : Subscription} (own : (w.wire index rule trigger).2 = some s) (o : Option Nat)
      (t : Subscription) : held' o t ↔ held o t ∨ (o = some index ∧ t = s) := by
    rw [grown, own]
    simp [eq_comm]
  cases trigger with
  | event name =>
    have adds : Adds w (w.wire index rule (.event name)).1 index [.event name]
        (onlyOn .bus [(w.bus.nextId, .subscriber name (.target (.rule index)))]) :=
      ⟨h.installs_subscribe name (.rule index), fun b => by cases b <;> rfl⟩
    refine ⟨_, adds, h.adds adds (only rfl) (Nat.lt_irrefl _) (Nat.lt_succ_self _) fun b x member => ?_⟩
    obtain rfl := List.mem_singleton.mp (mem_onlyOn member).2
    simp [Subscription.marks]
  | threshold entity bounds =>
    have adds : Adds w (w.wire index rule (.threshold entity bounds)).1 index
        [.threshold entity bounds]
        (onlyOn .numbers [(w.store.nextId, .listener (.threshold index entity bounds))]) :=
      ⟨h.installs_listenNumber _, fun b => by cases b <;> rfl⟩
    refine ⟨_, adds, h.adds adds (only rfl) (Nat.lt_irrefl _) (Nat.lt_succ_self _) fun b x member => ?_⟩
    obtain rfl := List.mem_singleton.mp (mem_onlyOn member).2
    simp [Subscription.marks]
  | schedule ms =>
    have empty : ms.toNat = 0 ↔ ms = 0 := by
      rw [← UInt64.toNat_inj]
      rfl
    have adds : Adds w (w.wire index rule (.schedule ms)).1 index [.schedule ms]
        (onlyOn .clock (if ms.toNat = 0 then [] else
          [(w.timers.length, .timer ms.toNat (.rule index))])) := by
      refine ⟨h.installs_addTimer ms.toNat (.rule index), fun b => ?_⟩
      cases b with
      | clock =>
        -- without an interval the timer is there, but it never stands on the clock
        by_cases zero : ms = 0
        · simp [onlyOn, Trigger.places, zero]
        · simp [onlyOn, Trigger.places, zero, empty, serves?, Target.rule?, Fixture.name?]
      | bus | numbers | texts => rfl
    refine ⟨_, adds, h.adds adds (only rfl) (Nat.lt_irrefl _) ?_ fun b x member => ?_⟩
    · show w.timers.length < (w.addTimer ms.toNat (.rule index)).timers.length
      rw [length_addTimer]
      exact Nat.lt_succ_self _
    · have there := (mem_onlyOn member).2
      split at there
      · cases there
      · obtain rfl := List.mem_singleton.mp there
        simp [Subscription.marks]
  | pattern sequence withinMs =>
    have adds : Adds w (w.wire index rule (.pattern sequence withinMs)).1 index
        [.pattern sequence withinMs]
        (onlyOn .bus ((sequence.eraseDups.zipIdx w.bus.nextId).map fun n =>
          (n.2, .subscriber n.1 (.watcher w.watchers.length)))) := by
      refine ⟨h.installs_addWatcher sequence withinMs (.rule index), fun b => ?_⟩
      cases b with
      | bus =>
        have own (name : String) : (w.wire index rule (.pattern sequence withinMs)).1.serves?
            (.subscriber name (.watcher w.watchers.length))
            = some (index, .pattern sequence withinMs) := by
          show (w.addWatcher sequence withinMs (.rule index)).serves? _ = _
          rw [serves?, watchers_addWatcher, if_pos rfl]
          rfl
        have names : sequence.eraseDups = (sequence.eraseDups.zipIdx w.bus.nextId).map (·.1) :=
          (List.zipIdx_map_fst _ _).symm
        rw [onlyOn, if_pos rfl, List.map_map, List.flatMap_singleton, Trigger.places, List.map_map,
          names, List.map_map, ← names]
        exact List.map_congr_left fun n _ => by simp [own, Fixture.name?]
      | numbers | texts | clock => rfl
    refine ⟨_, adds, h.adds adds (only rfl) (Nat.lt_irrefl _) ?_ fun b x member => ?_⟩
    · show w.watchers.length < (w.watchers ++ [_]).length
      rw [List.length_append]
      exact Nat.lt_succ_self _
    · obtain ⟨n, -, rfl⟩ := List.mem_map.mp (mem_onlyOn member).2
      simp [Subscription.marks]
  | unknown =>
    -- it is noted only, and the rule holds on to nothing for it
    refine ⟨fun _ => [], ⟨.nothing h.toWatched rfl, fun b => by cases b <;> rfl⟩, ?_⟩
    have noted : Tallies (w.note (.triggerUnknown rule)) held := h.congr rfl
    refine noted.mono (fun o s there => ?_) fun other s there => (grown _ s).mpr (.inl there)
    rcases (grown o s).mp there with before | ⟨-, none⟩
    · exact before
    · cases none

/-- **All triggers wired** list what they need, one after another. -/
theorem Tallies.wireAll (h : Tallies w held) (index : Nat) (rule : String) (triggers : List Trigger)
    (grown : ∀ o s, held' o s
      ↔ held o s ∨ (o = some index ∧ s ∈ (w.wireAll index rule triggers).2)) :
    ∃ new, Adds w (w.wireAll index rule triggers).1 index triggers new
      ∧ Tallies (w.wireAll index rule triggers).1 held' := by
  induction triggers generalizing w held with
  | nil =>
    refine ⟨fun _ => [], ⟨.nothing h.toWatched rfl, fun b => rfl⟩, ?_⟩
    refine h.mono (fun o s there => ?_) fun other s there => (grown _ s).mpr (.inl there)
    rcases (grown o s).mp there with before | ⟨-, none⟩
    · exact before
    · cases none
  | cons trigger rest ih =>
    -- the first trigger is wired, and then the others on what it leaves
    obtain ⟨new, first, tallies⟩ : ∃ new,
        Adds w (w.wire index rule trigger).1 index [trigger] new
          ∧ Tallies (w.wire index rule trigger).1 fun o s =>
            held o s ∨ (o = some index ∧ (w.wire index rule trigger).2 = some s) :=
      h.wire index rule trigger fun _ _ => Iff.rfl
    obtain ⟨more, second, tallies'⟩ := ih tallies fun o s => by
      have all : s ∈ (w.wireAll index rule (trigger :: rest)).2
          ↔ (w.wire index rule trigger).2 = some s
            ∨ s ∈ ((w.wire index rule trigger).1.wireAll index rule rest).2 := by
        show s ∈ (w.wire index rule trigger).2.toList ++ _ ↔ _
        rw [List.mem_append, Option.mem_toList]
        rfl
      rw [grown, all]
      tauto
    exact ⟨_, first.trans second, tallies'⟩

/-- Wiring leaves **the labels and the registrations** alone. -/
theorem wireAll_keeps (w : World) (index : Nat) (rule : String) (triggers : List Trigger) :
    (w.wireAll index rule triggers).1.labels = w.labels
      ∧ (w.wireAll index rule triggers).1.registrations = w.registrations := by
  induction triggers generalizing w with
  | nil => exact ⟨rfl, rfl⟩
  | cons trigger rest ih =>
    have first : (w.wire index rule trigger).1.labels = w.labels
        ∧ (w.wire index rule trigger).1.registrations = w.registrations := by
      cases trigger with
      | event | threshold | pattern | unknown => exact ⟨rfl, rfl⟩
      | schedule ms =>
        simp only [World.wire, addTimer]
        split <;> exact ⟨rfl, rfl⟩
    obtain ⟨labels, registrations⟩ := ih (w.wire index rule trigger).1
    exact ⟨labels.trans first.1, registrations.trans first.2⟩

/-- When a rule is **seated**, it holds on to what it was given, and the others to what they held. -/
theorem records_of_seated {rule : Rule} {subscriptions : List Subscription}
    (labels : w'.labels = w.labels)
    (registrations : w'.registrations
      = w.registrations ++ [({ rule, subscriptions } : Registration)])
    (o : Option Nat) (s : Subscription) :
    w'.Records o s ↔ w.Records o s ∨ (o = some w.registrations.length ∧ s ∈ subscriptions) := by
  cases o with
  | none =>
    have labelled : w'.Labelled s ↔ w.Labelled s := by
      cases s <;> simp only [Labelled, labels]
    simp [Records, labelled]
  | some index =>
    simp only [Records, registrations, Option.some.injEq]
    -- an older rule, the new one, or none
    rcases Nat.lt_trichotomy index w.registrations.length with before | rfl | beyond
    · rw [List.getElem?_append_left before]
      simp [Nat.ne_of_lt before]
    · rw [List.getElem?_concat_length, List.getElem?_eq_none (Nat.le_refl _)]
      simp
    · rw [List.getElem?_eq_none (Nat.le_of_lt beyond),
        List.getElem?_eq_none (by rw [List.length_append]; exact beyond)]
      simp [Nat.ne_of_gt beyond]

/-- What comes last in a list, changed. -/
theorem modify_concat {α : Type} (things : List α) (a : α) (f : α → α) :
    (things ++ [a]).modify things.length f = things ++ [f a] := by
  induction things with
  | nil => rfl
  | cons first rest ih => simp [ih]

/-- A rule **seated** in the next place, with nothing wired so far. -/
def seated (w : World) (rule : Rule) : World :=
  { w with registrations := w.registrations ++ [({ rule } : Registration)] }

/-- The labels and the registrations after **a rule was put in**. -/
theorem enrol_keeps (w : World) (rule : Rule) :
    (w.enrol rule).labels = w.labels
      ∧ (w.enrol rule).registrations = w.registrations ++ [{
          rule
          subscriptions :=
            ((w.seated rule).wireAll w.registrations.length rule.id rule.triggers).2 }] := by
  obtain ⟨labels, registrations⟩ :=
    wireAll_keeps (w.seated rule) w.registrations.length rule.id rule.triggers
  refine ⟨labels, ?_⟩
  show ((w.seated rule).wireAll _ _ _).1.registrations.modify _ _ = _
  rw [registrations]
  exact modify_concat w.registrations { rule } _

/-- **Putting a rule in** lists what its triggers need, and keeps the books right. -/
theorem Tallied.enrol (h : Tallied w) (rule : Rule) :
    Tallied (w.enrol rule)
      ∧ ∃ new, Adds w (w.enrol rule) w.registrations.length rule.triggers new := by
  obtain ⟨labels, registrations⟩ := enrol_keeps w rule
  -- the wiring is done in the new place, before the registration gets what it holds on to
  have first : Tallies (w.seated rule) w.Records := h.toTallies.congr rfl
  obtain ⟨new, adds, tallies⟩ := first.wireAll w.registrations.length rule.id rule.triggers
    (records_of_seated labels registrations)
  have rack : (w.enrol rule).rack
      = ((w.seated rule).wireAll w.registrations.length rule.id rule.triggers).1.rack := rfl
  refine ⟨⟨tallies.congr rack, labels ▸ h.lent⟩, new, ?_⟩
  exact
    { watched := adds.watched.congr rack
      board := adds.board
      serves := adds.serves
      next := adds.next
      numbers := adds.numbers
      ordered := adds.ordered
      issued := adds.issued
      fresh := adds.fresh
      served := adds.served }

end World

end RuleDispatch
