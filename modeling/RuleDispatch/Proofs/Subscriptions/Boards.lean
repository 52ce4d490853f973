import RuleDispatch.Proofs.Fittings

/-! # Boards

Whoever is to be called back is listed on one of four boards: the subscribers of the bus, the listeners
to numbers and to texts, and the timers that are active. Everything listed has a number, and numbers
are given out in order. What a subscription of a rule or a label marks on a board is taken off with it,
and nothing else is.

* `World.board` — what is listed, with its numbers.
* `World.serves?` — the rule and the trigger for which something is listed.
* `Subscription.marks` — what on a board belongs to a subscription.
* `World.Watched` — watchers know where they are subscribed.
* `World.Watched.board_retract` — what is marked is taken off. -/

namespace RuleDispatch

/-- The **boards** on which those are listed that are called back. -/
inductive Board where
  | bus
  | numbers
  | texts
  | clock
deriving DecidableEq

/-- A **fixture**: what is listed on a board. -/
inductive Fixture where
  | subscriber (name : String) (handler : Handler)
  | listener (listener : NumberListener)
  | reader (callback : Nat)
  | timer (interval : Nat) (target : Target)

/-- The board on which a fixture is listed. -/
def Fixture.board : Fixture → Board
  | .subscriber _ _ => .bus
  | .listener _ => .numbers
  | .reader _ => .texts
  | .timer _ _ => .clock

/-- The name under which a fixture is listed, on the bus. -/
def Fixture.name? : Fixture → Option String
  | .subscriber name _ => some name
  | .listener _ | .reader _ | .timer _ _ => none

/-- Whether a numbered fixture **belongs to a subscription**: a subscriber by its name and number, or
as the watcher; a listener and a timer by its number. -/
def Subscription.marks : Subscription → Nat × Fixture → Bool
  | .event name id, (number, .subscriber other _) => other = name && number = id
  | .pattern place, (_, .subscriber _ (.watcher other)) => other = place
  | .threshold id, (number, .listener _) => number = id
  | .threshold id, (number, .reader _) => number = id
  | .timer index, (number, .timer _ _) => number = index
  | _, _ => false

/-- Whether a subscription marks anything **on a board**. -/
def Subscription.isOn : Subscription → Board → Bool
  | .event _ _, .bus | .pattern _, .bus | .threshold _, .numbers | .threshold _, .texts
  | .timer _, .clock => true
  | _, _ => false

/-- The trigger for which a threshold listens, with the place of its rule. -/
def NumberListener.serves? : NumberListener → Option (Nat × Trigger)
  | .callback _ => none
  | .threshold rule entity bounds => some (rule, .threshold entity bounds)

namespace World

variable {w w' : World}

/-- What is **listed on a board**, with its numbers, in order. -/
def board (w : World) : Board → List (Nat × Fixture)
  | .bus => w.bus.subscribers.map fun s => (s.id, .subscriber s.name s.handler)
  | .numbers => w.store.numberListeners.map fun l => (l.1, .listener l.2)
  | .texts => w.store.textListeners.map fun l => (l.1, .reader l.2)
  | .clock => w.timers.zipIdx.filterMap fun t =>
    if t.1.active then some (t.2, .timer t.1.interval t.1.target) else none

/-- The **rule and the trigger** for which a fixture is there; none when it is there for a callback. -/
def serves? (w : World) : Fixture → Option (Nat × Trigger)
  | .subscriber name (.target target) => target.rule?.map fun index => (index, .event name)
  | .subscriber _ (.watcher place) =>
    (w.watchers[place]?).bind fun x =>
      x.target.rule?.map fun index => (index, .pattern x.matcher.sequence x.matcher.withinMs)
  | .listener l => l.serves?
  | .reader _ => none
  | .timer interval target => target.rule?.map fun index => (index, .schedule (.ofNat interval))

/-- The place of the **rule that owns** a fixture. -/
def owner? (w : World) (fixture : Fixture) : Option Nat :=
  (w.serves? fixture).map (·.1)

/-- The **number that is given out next** on a board. -/
def nextOn (w : World) : Board → Nat
  | .bus => w.bus.nextId
  | .numbers | .texts => w.store.nextId
  | .clock => w.timers.length

/-- A subscription that **was given out** by now. -/
def Issued (w : World) : Subscription → Prop
  | .event _ id => id < w.bus.nextId
  | .threshold id => id < w.store.nextId
  | .timer index => index < w.timers.length
  | .pattern place => place < w.watchers.length

/-! ## 1. What the rack says -/

/-- What is on a board depends on **the rack only**. -/
theorem board_congr (same : w'.rack = w.rack) (b : Board) : w'.board b = w.board b := by
  cases b with
  | bus => rw [board, board, show w'.bus = w.bus from congrArg Rack.bus same]
  | numbers =>
    have numbers : w'.store.numberListeners = w.store.numberListeners :=
      congrArg Rack.numbers same
    rw [board, board, numbers]
  | texts =>
    have texts : w'.store.textListeners = w.store.textListeners := congrArg Rack.texts same
    rw [board, board, texts]
  | clock =>
    have read (v : World) : v.board .clock = v.rack.timers.zipIdx.filterMap fun t =>
        if t.1.active then some (t.2, .timer t.1.interval t.1.target) else none := by
      simp only [board, rack, List.zipIdx_map, List.filterMap_map]
      rfl
    rw [read w', same, ← read w]

/-- So does what a fixture is there for. -/
theorem serves?_congr (same : w'.rack = w.rack) (fixture : Fixture) :
    w'.serves? fixture = w.serves? fixture := by
  match fixture with
  | .subscriber name (.watcher place) =>
    have read (v : World) : v.serves? (.subscriber name (.watcher place))
        = (v.rack.watchers[place]?).bind fun x =>
          x.target.rule?.map fun index => (index, .pattern x.matcher.sequence x.matcher.withinMs) := by
      simp only [serves?, rack, List.getElem?_map, Option.bind_map]
      rfl
    rw [read w', same, ← read w]
  | .subscriber _ (.target _) | .listener _ | .reader _ | .timer _ _ => rfl

/-- So does the number that is given out next. -/
theorem nextOn_congr (same : w'.rack = w.rack) (b : Board) : w'.nextOn b = w.nextOn b := by
  have length (v : World) : v.timers.length = v.rack.timers.length := (List.length_map _).symm
  cases b with
  | bus => exact congrArg (fun f => f.bus.nextId) same
  | numbers | texts => exact congrArg Rack.nextListener same
  | clock => exact (length w').trans ((congrArg (fun f => f.timers.length) same).trans (length w).symm)

/-- So does whether a subscription was given out. -/
theorem issued_congr (same : w'.rack = w.rack) (s : Subscription) :
    w'.Issued s ↔ w.Issued s := by
  have length (v : World) : v.watchers.length = v.rack.watchers.length :=
    (List.length_map _).symm
  cases s with
  | event name id => exact iff_of_eq (congrArg (id < ·) (nextOn_congr same .bus))
  | threshold id => exact iff_of_eq (congrArg (id < ·) (nextOn_congr same .numbers))
  | timer index => exact iff_of_eq (congrArg (index < ·) (nextOn_congr same .clock))
  | pattern place =>
    simp only [Issued, length, same]

/-! ## 2. Taking off -/

/-- A fixture stands on its board. -/
theorem board_of_mem {b : Board} {x : Nat × Fixture} (member : x ∈ w.board b) : x.2.board = b := by
  cases b with
  | bus | numbers | texts =>
    obtain ⟨_, -, rfl⟩ := List.mem_map.mp member
    rfl
  | clock =>
    obtain ⟨_, -, shown⟩ := List.mem_filterMap.mp member
    split at shown
    · obtain rfl := Option.some.inj shown
      rfl
    · cases shown

/-- The timers on the clock are **the active ones**, by their places. -/
theorem mem_clock_iff {index interval : Nat} {target : Target} :
    (index, .timer interval target) ∈ w.board .clock
      ↔ ∃ t, w.timers[index]? = some t ∧ t.active = true ∧ t.interval = interval
        ∧ t.target = target := by
  unfold board
  rw [List.mem_filterMap]
  constructor
  · rintro ⟨⟨t, place⟩, there, shown⟩
    dsimp only at shown
    split_ifs at shown with active
    injection shown with shown
    injection shown with same fixture
    injection fixture with interval target
    exact ⟨t, same ▸ List.mk_mem_zipIdx_iff_getElem?.mp there, active, interval, target⟩
  · rintro ⟨t, there, active, rfl, rfl⟩
    exact ⟨(t, index), List.mk_mem_zipIdx_iff_getElem?.mpr there, by rw [if_pos active]⟩

/-- A board on which a subscription marks nothing. -/
theorem filter_unmarked {s : Subscription} {b : Board} (off : s.isOn b = false) :
    (w.board b).filter (!s.marks ·) = w.board b := by
  refine List.filter_eq_self.mpr fun x member => ?_
  have listed := board_of_mem member
  obtain ⟨number, fixture⟩ := x
  subst listed
  cases s <;> cases fixture <;> first | rfl | cases off

/-- What is **changed in one place** of a list, with the places. -/
theorem zipIdx_modify {α : Type} (things : List α) (index : Nat) (f : α → α) :
    (things.modify index f).zipIdx
      = things.zipIdx.map fun a => if a.2 = index then (f a.1, a.2) else a := by
  refine List.ext_getElem? fun place => ?_
  simp only [List.getElem?_zipIdx, List.getElem?_modify, List.getElem?_map, Nat.zero_add]
  cases things[place]? with
  | none => rfl
  | some a => by_cases here : index = place <;> simp [here, eq_comm]

/-- A timer **cancelled** is taken off the clock. -/
theorem clock_cancelTimer (w : World) (index : Nat) :
    (w.cancelTimer index).board .clock = (w.board .clock).filter fun x => x.1 ≠ index := by
  unfold cancelTimer
  split
  · show ((w.timers.modify index _).zipIdx).filterMap _ = _
    rw [zipIdx_modify, List.filterMap_map, board, List.filter_filterMap]
    refine List.filterMap_congr fun t _ => ?_
    by_cases here : t.2 = index
    · simp only [Function.comp, here, if_true, Bool.false_eq_true, if_false]
      split <;> simp [Option.filter]
    · simp only [Function.comp, here, if_false]
      split <;> simp [Option.filter, here]
  · next inactive =>
    symm
    refine List.filter_eq_self.mpr fun x member => ?_
    obtain ⟨⟨t, place⟩, there, shown⟩ := List.mem_filterMap.mp member
    have found : w.timers[place]? = some t := List.mk_mem_zipIdx_iff_getElem?.mp there
    split at shown
    · next active =>
      obtain rfl := Option.some.inj shown
      refine decide_eq_true fun (same : place = index) => inactive ?_
      rw [timerActive, ← same, found]
      exact active
    · cases shown

/-- Subscriptions **taken back** from the bus. -/
theorem subscribers_foldl_unsubscribe {α : Type} (b : Bus α) (subscriptions : List (String × Nat)) :
    (subscriptions.foldl (fun bus s => bus.unsubscribe s.1 s.2) b).subscribers
      = b.subscribers.filter fun s => (s.name, s.id) ∉ subscriptions := by
  induction subscriptions generalizing b with
  | nil => simp
  | cons first rest ih =>
    rw [List.foldl_cons, ih, Bus.unsubscribe, List.filter_filter]
    refine List.filter_congr fun s _ => ?_
    have here : (s.name, s.id) = first ↔ s.name = first.1 ∧ s.id = first.2 := Prod.ext_iff
    simp only [List.mem_cons, not_or, here, Bool.decide_and, decide_not]
    rw [Bool.and_comm]

/-- **Unsubscribing** gives out no number. -/
theorem nextId_foldl_unsubscribe {α : Type} (b : Bus α) (subscriptions : List (String × Nat)) :
    (subscriptions.foldl (fun bus s => bus.unsubscribe s.1 s.2) b).nextId = b.nextId := by
  induction subscriptions generalizing b with
  | nil => rfl
  | cons first rest ih => exact ih _

/-- **Watchers know where they are subscribed**, and nowhere once they are disposed of. -/
structure Watched (w : World) : Prop where
  heard : ∀ s ∈ w.bus.subscribers, ∀ place, s.handler = .watcher place ↔
    ∃ x, w.watchers[place]? = some x ∧ (s.name, s.id) ∈ x.subscriptions
  known : ∀ x ∈ w.watchers, ∀ held ∈ x.subscriptions, held.2 < w.bus.nextId
  closed : ∀ x ∈ w.watchers, x.disposed = true → x.subscriptions = []

/-- So does what is known of the watchers. -/
theorem Watched.congr (h : Watched w) (same : w'.rack = w.rack) : Watched w' := by
  have bus : w'.bus = w.bus := congrArg Rack.bus same
  have unseen : w'.watchers.map Watcher.unseen = w.watchers.map Watcher.unseen :=
    congrArg Rack.watchers same
  -- a watcher of the one world is one of the other, whatever it has seen
  have view (place : Nat) (held : String × Nat) :
      (∃ x, w'.watchers[place]? = some x ∧ held ∈ x.subscriptions)
        ↔ ∃ x, w.watchers[place]? = some x ∧ held ∈ x.subscriptions := by
    have read (v : World) : (∃ x, v.watchers[place]? = some x ∧ held ∈ x.subscriptions)
        ↔ ∃ x, (v.watchers.map Watcher.unseen)[place]? = some x ∧ held ∈ x.subscriptions := by
      simp only [List.getElem?_map, Option.map_eq_some_iff]
      constructor
      · rintro ⟨x, found, member⟩
        exact ⟨_, ⟨x, found, rfl⟩, member⟩
      · rintro ⟨_, ⟨x, found, rfl⟩, member⟩
        exact ⟨x, found, member⟩
    rw [read w', unseen, ← read w]
  have before {x : Watcher} (member : x ∈ w'.watchers) :
      ∃ old ∈ w.watchers, old.subscriptions = x.subscriptions ∧ old.disposed = x.disposed := by
    have there : x.unseen ∈ w.watchers.map Watcher.unseen :=
      unseen ▸ List.mem_map_of_mem member
    obtain ⟨old, member', same⟩ := List.mem_map.mp there
    have subscriptions : old.unseen.subscriptions = x.unseen.subscriptions := by rw [same]
    have disposed : old.unseen.disposed = x.unseen.disposed := by rw [same]
    exact ⟨old, member', subscriptions, disposed⟩
  refine ⟨fun s member place => ?_, fun x member => ?_, fun x member => ?_⟩
  · rw [view]
    exact h.heard s (bus ▸ member) place
  · obtain ⟨old, member', subscriptions, -⟩ := before member
    rw [← subscriptions, bus]
    exact h.known old member'
  · obtain ⟨old, member', subscriptions, disposed⟩ := before member
    rw [← subscriptions, ← disposed]
    exact h.closed old member'

/-- A watcher **disposed of** is subscribed no more. -/
theorem Watched.subscribers_disposeWatcher (h : Watched w) (place : Nat) :
    (w.disposeWatcher place).bus.subscribers
      = w.bus.subscribers.filter fun s => s.handler ≠ .watcher place := by
  unfold disposeWatcher
  split
  · next absent =>
    symm
    refine List.filter_eq_self.mpr fun s member => decide_eq_true fun watches => ?_
    obtain ⟨x, there, -⟩ := (h.heard s member place).mp watches
    rw [absent] at there
    cases there
  · next x found =>
    refine (subscribers_foldl_unsubscribe w.bus x.subscriptions).trans ?_
    refine List.filter_congr fun s member => ?_
    have here : s.handler = .watcher place ↔ (s.name, s.id) ∈ x.subscriptions := by
      rw [h.heard s member place]
      simp [found]
    simp [here]

/-- What a subscription **marks** is taken off with it. -/
theorem Watched.board_retract (h : Watched w) (s : Subscription) (b : Board) :
    (w.retract s).board b = (w.board b).filter (!s.marks ·) := by
  cases s with
  | event name id =>
    cases b with
    | bus =>
      simp only [retract, board, Bus.unsubscribe, List.filter_map]
      rfl
    -- the other boards hold no subscribers
    | numbers | texts | clock => exact (filter_unmarked rfl).symm
  | threshold id =>
    cases b with
    | numbers | texts =>
      simp only [retract, board, Store.unlisten, List.filter_map]
      congr 1
      refine List.filter_congr fun l _ => ?_
      simp [Subscription.marks]
    | bus | clock => exact (filter_unmarked rfl).symm
  | timer index =>
    cases b with
    | clock =>
      refine (clock_cancelTimer w index).trans (List.filter_congr fun x member => ?_)
      obtain ⟨number, fixture⟩ := x
      have listed := board_of_mem member
      cases fixture with
      | timer => simp [Subscription.marks]
      | subscriber | listener | reader => cases listed
    | bus | numbers | texts =>
      -- a timer is neither on the bus nor in the store
      have still : (w.cancelTimer index).bus = w.bus ∧ (w.cancelTimer index).store = w.store := by
        unfold cancelTimer
        split <;> exact ⟨rfl, rfl⟩
      rw [filter_unmarked rfl]
      simp only [retract, board, still.1, still.2]
  | pattern place =>
    have still : (w.disposeWatcher place).store = w.store
        ∧ (w.disposeWatcher place).timers = w.timers := by
      unfold disposeWatcher
      split <;> exact ⟨rfl, rfl⟩
    cases b with
    -- a watcher is listed under several names, and all of them go
    | bus =>
      simp only [retract, board, h.subscribers_disposeWatcher, List.filter_map]
      congr 1
      refine List.filter_congr fun s _ => ?_
      cases handler : s.handler <;> simp [Subscription.marks, handler]
    | numbers | texts | clock =>
      rw [filter_unmarked rfl]
      simp only [retract, board, still.1, still.2]

/-- Taking something off leaves **the labels and the rules** alone. -/
theorem retract_keeps (w : World) (s : Subscription) :
    (w.retract s).labels = w.labels ∧ (w.retract s).registrations = w.registrations := by
  cases s with
  | event | threshold => exact ⟨rfl, rfl⟩
  | timer index =>
    simp only [retract, cancelTimer]
    split <;> exact ⟨rfl, rfl⟩
  | pattern place =>
    simp only [retract, disposeWatcher]
    split <;> exact ⟨rfl, rfl⟩

/-- Numbers that were given out are **not given out again**. -/
theorem nextOn_retract (w : World) (s : Subscription) (b : Board) :
    (w.retract s).nextOn b = w.nextOn b := by
  have watcher (place : Nat) : (w.disposeWatcher place).nextOn b = w.nextOn b := by
    unfold disposeWatcher
    split
    · rfl
    · next x _ =>
      cases b with
      | bus => exact nextId_foldl_unsubscribe w.bus x.subscriptions
      | numbers | texts | clock => rfl
  have timer (index : Nat) : (w.cancelTimer index).nextOn b = w.nextOn b := by
    unfold cancelTimer
    split
    · cases b with
      | clock => exact List.length_modify _ _ _
      | bus | numbers | texts => rfl
    · rfl
  cases s with
  | event | threshold => cases b <;> rfl
  | timer index => exact timer index
  | pattern place => exact watcher place

/-- What watchers **look for and call** stays when one is disposed of. -/
theorem watchers_retract (w : World) (s : Subscription) (place : Nat) :
    (w.retract s).watchers[place]?
      = (w.watchers[place]?).map fun x =>
        if s = .pattern place then { x with disposed := true, subscriptions := [] } else x := by
  cases s with
  | event | threshold =>
    show w.watchers[place]? = _
    simp
  | timer index =>
    have still : (w.cancelTimer index).watchers = w.watchers := by
      unfold cancelTimer
      split <;> rfl
    simp [retract, still]
  | pattern other =>
    simp only [retract, disposeWatcher]
    split
    · next absent =>
      by_cases here : other = place
      · rw [← here, absent]
        rfl
      · simp [here]
    · show (w.watchers.modify other _)[place]? = _
      rw [List.getElem?_modify]
      cases w.watchers[place]? with
      | none => rfl
      | some x => by_cases here : other = place <;> simp [here]

/-- **Taking a subscription back** leaves what fixtures are there for. -/
theorem serves?_retract (w : World) (s : Subscription) (fixture : Fixture) :
    (w.retract s).serves? fixture = w.serves? fixture := by
  match fixture with
  | .subscriber name (.watcher place) =>
    simp only [serves?, watchers_retract]
    cases w.watchers[place]? with
    | none => rfl
    | some x =>
      rw [Option.map_some, Option.bind_some, Option.bind_some]
      split <;> rfl
  | .subscriber _ (.target _) | .listener _ | .reader _ | .timer _ _ => rfl

/-- **Taking a subscription back** leaves what was given out. -/
theorem issued_retract (w : World) (s t : Subscription) : (w.retract s).Issued t ↔ w.Issued t := by
  cases t with
  | event name id => exact iff_of_eq (congrArg (id < ·) (nextOn_retract w s .bus))
  | threshold id => exact iff_of_eq (congrArg (id < ·) (nextOn_retract w s .numbers))
  | timer index => exact iff_of_eq (congrArg (index < ·) (nextOn_retract w s .clock))
  | pattern place =>
    have there (v : World) : v.Issued (.pattern place) ↔ (v.watchers[place]?).isSome = true :=
      by simp [Issued]
    rw [there, there, watchers_retract, Option.isSome_map]

/-- Taking something off leaves **the watchers right**. -/
theorem Watched.retract (h : Watched w) (s : Subscription) : Watched (w.retract s) := by
  have of_mem {x : Watcher} (member : x ∈ (w.retract s).watchers) :
      ∃ place held, w.watchers[place]? = some held
        ∧ x = if s = .pattern place then { held with disposed := true, subscriptions := [] }
          else held := by
    obtain ⟨place, found⟩ := List.mem_iff_getElem?.mp member
    rw [watchers_retract] at found
    obtain ⟨held, there, rfl⟩ := Option.map_eq_some_iff.mp found
    exact ⟨place, held, there, rfl⟩
  have listed (a : Subscriber Handler) (member : a ∈ (w.retract s).bus.subscribers) :
      a ∈ w.bus.subscribers ∧ s.marks (a.id, .subscriber a.name a.handler) = false := by
    have there : (a.id, Fixture.subscriber a.name a.handler) ∈ (w.retract s).board .bus :=
      List.mem_map_of_mem (f := fun a => (a.id, Fixture.subscriber a.name a.handler)) member
    rw [h.board_retract] at there
    obtain ⟨before, unmarked⟩ := List.mem_filter.mp there
    obtain ⟨other, member', same⟩ := List.mem_map.mp before
    obtain ⟨ids, fixtures⟩ := Prod.mk.inj same
    injection fixtures with names handlers
    obtain rfl : other = a := by
      cases other
      cases a
      simp_all
    exact ⟨member', by simpa using unmarked⟩
  refine ⟨fun a member place => ?_, fun x member held there => ?_, fun x member disposed => ?_⟩
  · obtain ⟨before, unmarked⟩ := listed a member
    rw [h.heard a before place, watchers_retract]
    -- the watcher that is disposed of hears nothing that is left
    have others (other : s = .pattern place) :
        ¬ ∃ x, w.watchers[place]? = some x ∧ (a.name, a.id) ∈ x.subscriptions := by
      rw [← h.heard a before place]
      intro watches
      rw [other, watches] at unmarked
      simp [Subscription.marks] at unmarked
    by_cases other : s = .pattern place
    · simp [other, others other]
    · simp [other]
  · obtain ⟨place, old, found, rfl⟩ := of_mem member
    rw [show (w.retract s).bus.nextId = w.bus.nextId from nextOn_retract w s .bus]
    split at there
    · cases there
    · exact h.known old (List.mem_of_getElem? found) held there
  · obtain ⟨place, old, found, rfl⟩ := of_mem member
    split at disposed
    · next here => rw [if_pos here]
    · next here =>
      rw [if_neg here]
      exact h.closed old (List.mem_of_getElem? found) disposed

end World

end RuleDispatch
