import RuleDispatch.Proofs.Subscriptions.Boards

/-! # The books tally with the boards

Rules and labels hold on to what they subscribed. Everything that such a subscription marks on a board
is there for whoever holds on to it, and everything that is there for a rule is marked by something
that the rule holds on to. So what is taken off with a rule is what was listed for it, and nothing else.

* `World.Tallies` — what is held tallies with what is listed.
* `World.Tallies.retract` — it does after something was taken off.
* `World.Installs`, `World.Tallies.installs` — it does after something was listed and is held. -/

namespace RuleDispatch

namespace World

variable {w w' : World}

/-- What is **held** — by rules, by their places, and by labels — tallies with the boards. -/
structure Tallies (w : World) (held : Option Nat → Subscription → Prop) : Prop extends Watched w where
  /-- Numbers on a board were given out before. -/
  bounded : ∀ b, ∀ x ∈ w.board b, x.1 < w.nextOn b
  /-- Every board is in the order in which things were listed. -/
  ordered : ∀ b, (w.board b).Pairwise (·.1 < ·.1)
  issued : ∀ o s, held o s → w.Issued s
  /-- What is marked belongs to whoever holds on to it. -/
  belongs : ∀ o s, held o s → ∀ b, ∀ x ∈ w.board b, s.marks x = true → w.owner? x.2 = o
  /-- What is there for a rule is marked. -/
  marked : ∀ b, ∀ x ∈ w.board b, ∀ index, w.owner? x.2 = some index →
    ∃ s, held (some index) s ∧ s.marks x = true

/-- Whose a fixture is depends on **the rack only**. -/
theorem owner?_congr (same : w'.rack = w.rack) (fixture : Fixture) :
    w'.owner? fixture = w.owner? fixture := by
  rw [owner?, serves?_congr same, owner?]

/-- A tally depends on **the rack only**. -/
theorem Tallies.congr {held : Option Nat → Subscription → Prop} (h : Tallies w held)
    (same : w'.rack = w.rack) : Tallies w' held where
  toWatched := h.toWatched.congr same
  bounded b := by
    rw [board_congr same, nextOn_congr same]
    exact h.bounded b
  ordered b := board_congr same b ▸ h.ordered b
  issued o s there := (issued_congr same s).mpr (h.issued o s there)
  belongs o s there b x := by
    rw [board_congr same, owner?_congr same]
    exact h.belongs o s there b x
  marked b x := by
    rw [board_congr same, owner?_congr same]
    exact h.marked b x

/-! ## 1. Taking off -/

/-- What is left when something was **taken off** tallies with the books without it. -/
theorem Tallies.retract {held held' : Option Nat → Subscription → Prop} (h : Tallies w held)
    (s : Subscription) (fewer : ∀ o t, held' o t → held o t)
    (kept : ∀ index t, t ≠ s → held (some index) t → held' (some index) t) :
    Tallies (w.retract s) held' where
  toWatched := h.toWatched.retract s
  bounded b x member := by
    rw [h.board_retract] at member
    rw [nextOn_retract]
    exact h.bounded b x (List.mem_of_mem_filter member)
  ordered b := by
    rw [h.board_retract]
    exact (h.ordered b).filter _
  issued o t there := (issued_retract w s t).mpr (h.issued o t (fewer o t there))
  belongs o t there b x member := by
    rw [h.board_retract] at member
    rw [owner?, serves?_retract]
    exact h.belongs o t (fewer o t there) b x (List.mem_of_mem_filter member)
  marked b x member index owner := by
    rw [h.board_retract] at member
    rw [owner?, serves?_retract] at owner
    obtain ⟨before, unmarked⟩ := List.mem_filter.mp member
    obtain ⟨t, there, marks⟩ := h.marked b x before index owner
    -- what is left is not marked by `s`, so whoever marks it is still held
    refine ⟨t, kept index t (fun same => ?_) there, marks⟩
    rw [← same, marks] at unmarked
    cases unmarked

/-! ## 2. Listing -/

/-- In a world **more is listed**, with numbers that were not given out before. -/
structure Installs (w w' : World) (new : Board → List (Nat × Fixture)) : Prop where
  watched : Watched w'
  board : ∀ b, w'.board b = w.board b ++ new b
  serves : ∀ b, ∀ x ∈ w.board b, w'.serves? x.2 = w.serves? x.2
  next : ∀ b, w.nextOn b ≤ w'.nextOn b
  numbers : ∀ b, ∀ x ∈ new b, w.nextOn b ≤ x.1 ∧ x.1 < w'.nextOn b
  ordered : ∀ b, (new b).Pairwise (·.1 < ·.1)
  issued : ∀ s, w.Issued s → w'.Issued s
  fresh : ∀ b, ∀ x ∈ new b, ∀ s, w.Issued s → s.marks x = false

/-- What more is listed depends on **the rack only**. -/
theorem Installs.congr {u : World} {new : Board → List (Nat × Fixture)} (i : Installs w w' new)
    (same : u.rack = w'.rack) : Installs w u new where
  watched := i.watched.congr same
  board b := (board_congr same b).trans (i.board b)
  serves b x member := (serves?_congr same x.2).trans (i.serves b x member)
  next b := nextOn_congr same b ▸ i.next b
  numbers b := nextOn_congr same b ▸ i.numbers b
  ordered := i.ordered
  issued s before := (issued_congr same s).mpr (i.issued s before)
  fresh := i.fresh

/-- Where nothing changes on the rack, **nothing is listed**. -/
theorem Installs.nothing (watched : Watched w) (same : w'.rack = w.rack) :
    Installs w w' fun _ => [] where
  watched := watched.congr same
  board b := (board_congr same b).trans (List.append_nil _).symm
  serves b x member := serves?_congr same x.2
  next b := Nat.le_of_eq (nextOn_congr same b).symm
  numbers b x member := by cases member
  ordered b := .nil
  issued s := (issued_congr same s).mpr
  fresh b x member := by cases member

/-- What is listed in two worlds **one after the other**. -/
theorem Installs.trans {u : World} {new more : Board → List (Nat × Fixture)} (i : Installs u w new)
    (j : Installs w w' more) : Installs u w' fun b => new b ++ more b where
  watched := j.watched
  board b := by rw [j.board, i.board, List.append_assoc]
  serves b x member :=
    (j.serves b x (by rw [i.board]; exact List.mem_append_left _ member)).trans (i.serves b x member)
  next b := Nat.le_trans (i.next b) (j.next b)
  numbers b x member := by
    rcases List.mem_append.mp member with first | second
    · exact ⟨(i.numbers b x first).1, Nat.lt_of_lt_of_le (i.numbers b x first).2 (j.next b)⟩
    · exact ⟨Nat.le_trans (i.next b) (j.numbers b x second).1, (j.numbers b x second).2⟩
  ordered b :=
    List.pairwise_append.mpr ⟨i.ordered b, j.ordered b, fun x first y second =>
      Nat.lt_of_lt_of_le (i.numbers b x first).2 (j.numbers b y second).1⟩
  issued s before := j.issued s (i.issued s before)
  fresh b x member s before := by
    rcases List.mem_append.mp member with first | second
    · exact i.fresh b x first s before
    · exact j.fresh b x second s (i.issued s before)

variable {held : Option Nat → Subscription → Prop}

/-- Whoever marks something watches with it, or **has its number**. -/
theorem issued_iff_of_marks {s : Subscription} {number : Nat} {fixture : Fixture}
    (marks : s.marks (number, fixture) = true) :
    (∃ name place, s = .pattern place ∧ fixture = .subscriber name (.watcher place))
      ∨ (w.Issued s ↔ number < w.nextOn fixture.board) := by
  cases s with
  | event own id =>
    cases fixture with
    | subscriber name handler =>
      have same : name = own ∧ number = id := by simpa [Subscription.marks] using marks
      exact .inr (same.2 ▸ Iff.rfl)
    | listener | reader | timer => cases marks
  | pattern place =>
    cases fixture with
    | subscriber name handler =>
      cases handler with
      | target => cases marks
      | watcher other =>
        obtain rfl : other = place := by simpa [Subscription.marks] using marks
        exact .inl ⟨name, other, rfl, rfl⟩
    | listener | reader | timer => cases marks
  | threshold id =>
    cases fixture with
    | listener | reader =>
      obtain rfl : number = id := by simpa [Subscription.marks] using marks
      exact .inr Iff.rfl
    | subscriber | timer => cases marks
  | timer index =>
    cases fixture with
    | timer =>
      obtain rfl : number = index := by simpa [Subscription.marks] using marks
      exact .inr Iff.rfl
    | subscriber | listener | reader => cases marks

/-- What is marked on a board **was given out**. -/
theorem Tallies.issued_of_marks (h : Tallies w held) {b : Board} {x : Nat × Fixture}
    (member : x ∈ w.board b) {s : Subscription} (marks : s.marks x = true) : w.Issued s := by
  have listed := board_of_mem member
  have bound := h.bounded b x member
  obtain ⟨number, fixture⟩ := x
  subst listed
  rcases issued_iff_of_marks marks with ⟨name, place, rfl, rfl⟩ | issued
  · -- watchers are numbered by places, so the bound on numbers does not help
    obtain ⟨subscriber, there, same⟩ := List.mem_map.mp member
    injection same with _ fixture
    injection fixture with _ handler
    obtain ⟨x, found, -⟩ := (h.heard subscriber there place).mp handler
    exact (List.getElem?_eq_some_iff.mp found).1
  · exact issued.mpr bound

/-- What is **listed and then held** tallies as well. -/
theorem Tallies.installs (h : Tallies w held) {new : Board → List (Nat × Fixture)}
    (i : Installs w w' new) {o : Option Nat} {held' : Option Nat → Subscription → Prop}
    (owned : ∀ b, ∀ x ∈ new b, w'.owner? x.2 = o)
    (kept : ∀ index s, held (some index) s → held' (some index) s)
    (more : ∀ o' s, held' o' s → held o' s ∨ (o' = o ∧ w'.Issued s ∧ ¬ w.Issued s))
    (marked : o ≠ none → ∀ b, ∀ x ∈ new b, ∃ s, held' o s ∧ s.marks x = true) :
    Tallies w' held' where
  toWatched := i.watched
  bounded b x member := by
    rw [i.board] at member
    rcases List.mem_append.mp member with old | there
    · exact Nat.lt_of_lt_of_le (h.bounded b x old) (i.next b)
    · exact (i.numbers b x there).2
  ordered b := by
    rw [i.board]
    refine List.pairwise_append.mpr ⟨h.ordered b, i.ordered b, fun x old y there => ?_⟩
    exact Nat.lt_of_lt_of_le (h.bounded b x old) (i.numbers b y there).1
  issued o' s there := by
    rcases more o' s there with before | ⟨-, now, -⟩
    · exact i.issued s (h.issued o' s before)
    · exact now
  belongs o' s there b x member marks := by
    rw [i.board] at member
    -- old subscriptions mark old fixtures only, and new ones new fixtures
    rcases List.mem_append.mp member with old | fresh
    · rcases more o' s there with before | ⟨-, -, unknown⟩
      · rw [owner?, i.serves b x old]
        exact h.belongs o' s before b x old marks
      · exact absurd (h.issued_of_marks old marks) unknown
    · rcases more o' s there with before | ⟨rfl, -, -⟩
      · rw [i.fresh b x fresh s (h.issued o' s before)] at marks
        cases marks
      · exact owned b x fresh
  marked b x member index owner := by
    rw [i.board] at member
    rcases List.mem_append.mp member with old | fresh
    · rw [owner?, i.serves b x old] at owner
      obtain ⟨s, there, marks⟩ := h.marked b x old index owner
      exact ⟨s, kept index s there, marks⟩
    · obtain rfl : o = some index := (owned b x fresh).symm.trans owner
      exact marked (by rintro ⟨⟩) b x fresh

/-- What is listed **on one board** only. -/
def onlyOn (b : Board) (new : List (Nat × Fixture)) (other : Board) : List (Nat × Fixture) :=
  if other = b then new else []

/-- What is on one board only **is on this board**. -/
theorem mem_onlyOn {b other : Board} {new : List (Nat × Fixture)} {x : Nat × Fixture}
    (member : x ∈ onlyOn b new other) : other = b ∧ x ∈ new := by
  unfold onlyOn at member
  split at member
  · next same => exact ⟨same, member⟩
  · cases member

/-- What was given out is still given out when **more was given out**. -/
theorem Issued.mono {s : Subscription} (h : w.Issued s) (next : ∀ b, w.nextOn b ≤ w'.nextOn b)
    (watchers : w.watchers.length ≤ w'.watchers.length) : w'.Issued s := by
  cases s with
  | event name id => exact Nat.lt_of_lt_of_le h (next .bus)
  | threshold id => exact Nat.lt_of_lt_of_le h (next .numbers)
  | timer index => exact Nat.lt_of_lt_of_le h (next .clock)
  | pattern place => exact Nat.lt_of_lt_of_le h watchers

/-- A fixture with **a number that was not given out** is marked by nothing that was given out, unless
it is a watcher. -/
theorem Issued.marks_eq_false {s : Subscription} (h : w.Issued s) {number : Nat} {fixture : Fixture}
    (later : w.nextOn fixture.board ≤ number)
    (plain : ∀ name place, fixture = .subscriber name (.watcher place) → ¬ s = .pattern place) :
    s.marks (number, fixture) = false := by
  refine eq_false_of_ne_true fun marks => ?_
  rcases issued_iff_of_marks marks with ⟨name, place, own, watches⟩ | issued
  · exact plain name place watches own
  · exact absurd (issued.mp h) (Nat.not_lt.mpr later)

/-- **At most one fixture** that is no watcher is listed with the next number. -/
theorem installs_next {fixture : Fixture} {new : List (Nat × Fixture)}
    (one : new.Sublist [(w.nextOn fixture.board, fixture)])
    (plain : ∀ name place, fixture ≠ .subscriber name (.watcher place)) (watched : Watched w')
    (board : ∀ b, w'.board b = w.board b ++ onlyOn fixture.board new b)
    (watchers : w'.watchers = w.watchers) (next : ∀ b, w.nextOn b ≤ w'.nextOn b)
    (given : w.nextOn fixture.board < w'.nextOn fixture.board) :
    Installs w w' (onlyOn fixture.board new) where
  watched := watched
  board := board
  serves b x member := by
    unfold serves?
    rw [watchers]
  next := next
  numbers b x member := by
    obtain ⟨rfl, there⟩ := mem_onlyOn member
    obtain rfl := List.mem_singleton.mp (one.subset there)
    exact ⟨Nat.le_refl _, given⟩
  ordered b := by
    unfold onlyOn
    split
    · exact (List.pairwise_singleton _ _).sublist one
    · exact .nil
  issued s before := before.mono next (Nat.le_of_eq (congrArg List.length watchers).symm)
  fresh b x member s before := by
    obtain ⟨rfl, there⟩ := mem_onlyOn member
    obtain rfl := List.mem_singleton.mp (one.subset there)
    exact before.marks_eq_false (Nat.le_refl _) fun name place same => absurd same (plain name place)

/-- **A target subscribed** is listed on the bus. -/
theorem Tallies.installs_subscribe (h : Tallies w held) (name : String) (target : Target) :
    Installs w { w with bus := w.bus.subscribe name (.target target) }
      (onlyOn .bus [(w.bus.nextId, .subscriber name (.target target))]) := by
  refine @installs_next w _ (.subscriber name (.target target)) _ (List.Sublist.refl _)
    (by rintro _ _ ⟨⟩) ⟨fun s member place => ?_, fun x there held member => ?_, h.closed⟩
    (fun b => ?_) rfl (fun b => ?_) (Nat.lt_succ_self _)
  · rcases List.mem_append.mp member with old | new
    · exact h.heard s old place
    · obtain rfl := List.mem_singleton.mp new
      refine ⟨fun watches => (by cases watches), ?_⟩
      -- no watcher knows the number that is given out only now
      rintro ⟨x, found, known⟩
      exact absurd (h.known x (List.mem_of_getElem? found) _ known) (Nat.lt_irrefl _)
  · exact Nat.lt_succ_of_lt (h.known x there held member)
  · cases b with
    | bus => exact List.map_append
    | numbers | texts | clock => exact (List.append_nil _).symm
  · cases b with
    | bus => exact Nat.le_succ _
    | numbers | texts | clock => exact Nat.le_refl _

/-- **A listener to numbers** is listed on its board. -/
theorem Tallies.installs_listenNumber (h : Tallies w held) (l : NumberListener) :
    Installs w { w with store := w.store.listenNumber l }
      (onlyOn .numbers [(w.store.nextId, .listener l)]) := by
  refine @installs_next w _ (.listener l) _ (List.Sublist.refl _) (by rintro _ _ ⟨⟩)
    ⟨h.heard, h.known, h.closed⟩ (fun b => ?_) rfl (fun b => ?_) (Nat.lt_succ_self _)
  · cases b with
    | numbers => exact List.map_append
    | bus | texts | clock => exact (List.append_nil _).symm
  · cases b with
    | numbers | texts => exact Nat.le_succ _
    | bus | clock => exact Nat.le_refl _

/-- **A listener to texts** is listed on its board. -/
theorem Tallies.installs_listenText (h : Tallies w held) (callback : Nat) :
    Installs w { w with store := w.store.listenText callback }
      (onlyOn .texts [(w.store.nextId, .reader callback)]) := by
  refine @installs_next w _ (.reader callback) _ (List.Sublist.refl _) (by rintro _ _ ⟨⟩)
    ⟨h.heard, h.known, h.closed⟩ (fun b => ?_) rfl (fun b => ?_) (Nat.lt_succ_self _)
  · cases b with
    | texts => exact List.map_append
    | bus | numbers | clock => exact (List.append_nil _).symm
  · cases b with
    | numbers | texts => exact Nat.le_succ _
    | bus | clock => exact Nat.le_refl _

/-- There is one more timer after one was added. -/
theorem length_addTimer (w : World) (interval : Nat) (target : Target) :
    (w.addTimer interval target).timers.length = w.timers.length + 1 := by
  unfold addTimer
  split <;> exact List.length_append

/-- **A timer** is listed on the clock, unless it has no interval. -/
theorem Tallies.installs_addTimer (h : Tallies w held) (interval : Nat) (target : Target) :
    Installs w (w.addTimer interval target)
      (onlyOn .clock (if interval = 0 then [] else [(w.timers.length, .timer interval target)])) := by
  let timed : World := { w with
    timers := w.timers ++
      [{ interval, deadline := w.now + interval, target, active := interval ≠ 0 }] }
  have same : (w.addTimer interval target).rack = timed.rack := by
    unfold addTimer
    dsimp only
    split <;> rfl
  have length : w.nextOn .clock < timed.nextOn .clock := by
    show _ < (w.timers ++ _).length
    rw [List.length_append]
    exact Nat.lt_succ_self _
  refine Installs.congr (@installs_next w timed (.timer interval target) _ ?_ (by rintro _ _ ⟨⟩)
    ⟨h.heard, h.known, h.closed⟩ (fun b => ?_) rfl (fun b => ?_) length) same
  · split
    · exact List.nil_sublist _
    · exact List.Sublist.refl _
  · cases b with
    | clock =>
      show ((w.timers ++ _).zipIdx).filterMap _ = _
      rw [List.zipIdx_append, List.filterMap_append]
      congr 1
      -- without an interval the timer is not active, so it is not listed
      by_cases empty : interval = 0 <;> simp [onlyOn, empty, Fixture.board]
    | bus | numbers | texts => exact (List.append_nil _).symm
  · cases b with
    | clock => exact Nat.le_of_lt length
    | bus | numbers | texts => exact Nat.le_refl _

/-- Who is subscribed after a handler was **subscribed to many names**. -/
theorem subscribers_foldl_subscribe {α : Type} (b : Bus α) (names : List String) (handler : α) :
    (names.foldl (fun bus name => bus.subscribe name handler) b).subscribers
        = b.subscribers ++ (names.zipIdx b.nextId).map (fun n => ⟨n.1, n.2, handler⟩)
      ∧ (names.foldl (fun bus name => bus.subscribe name handler) b).nextId
        = b.nextId + names.length := by
  induction names generalizing b with
  | nil => simp
  | cons first rest ih =>
    obtain ⟨subscribers, nextId⟩ := ih (b.subscribe first handler)
    rw [List.foldl_cons, subscribers, nextId]
    refine ⟨?_, ?_⟩
    · rw [List.zipIdx_cons, List.map_cons, Bus.subscribe, List.append_assoc]
      rfl
    · show b.nextId + 1 + rest.length = b.nextId + (rest.length + 1)
      omega

/-- The bus and the watchers after **one more watcher**. -/
theorem bus_addWatcher (w : World) (sequence : List String) (withinMs : UInt64) (target : Target) :
    (w.addWatcher sequence withinMs target).bus.subscribers
        = w.bus.subscribers ++ (sequence.eraseDups.zipIdx w.bus.nextId).map
          (fun n => ⟨n.1, n.2, .watcher w.watchers.length⟩)
      ∧ (w.addWatcher sequence withinMs target).bus.nextId
        = w.bus.nextId + sequence.eraseDups.length :=
  subscribers_foldl_subscribe w.bus sequence.eraseDups (.watcher w.watchers.length)

/-- A new watcher comes **last**, and has seen nothing. -/
theorem watchers_addWatcher (w : World) (sequence : List String) (withinMs : UInt64)
    (target : Target) (place : Nat) :
    (w.addWatcher sequence withinMs target).watchers[place]?
      = if place = w.watchers.length then
          some {
            matcher := .fresh sequence withinMs
            target
            subscriptions := sequence.eraseDups.zipIdx w.bus.nextId }
        else w.watchers[place]? := by
  show (w.watchers ++ [_])[place]? = _
  rcases Nat.lt_trichotomy place w.watchers.length with before | rfl | beyond
  · rw [List.getElem?_append_left before, if_neg (Nat.ne_of_lt before)]
  · rw [List.getElem?_concat_length, if_pos rfl]
    rfl
  · rw [if_neg (Nat.ne_of_gt beyond), List.getElem?_eq_none (Nat.le_of_lt beyond),
      List.getElem?_eq_none (by rw [List.length_append]; exact beyond)]

/-- A subscriber has a number that was given out, and is no watcher that is still to come. -/
theorem Tallies.of_subscriber (h : Tallies w held) {s : Subscriber Handler}
    (member : s ∈ w.bus.subscribers) :
    s.id < w.bus.nextId ∧ s.handler ≠ .watcher w.watchers.length := by
  refine ⟨h.bounded .bus _ (List.mem_map_of_mem
    (f := fun s => (s.id, Fixture.subscriber s.name s.handler)) member), fun watches => ?_⟩
  obtain ⟨x, found, -⟩ := (h.heard s member _).mp watches
  exact absurd (List.getElem?_eq_some_iff.mp found).1 (Nat.lt_irrefl _)

/-- A new watcher **knows where it is subscribed**. -/
theorem Tallies.watched_addWatcher (h : Tallies w held) (sequence : List String)
    (withinMs : UInt64) (target : Target) : Watched (w.addWatcher sequence withinMs target) := by
  obtain ⟨subscribers, nextId⟩ := bus_addWatcher w sequence withinMs target
  refine ⟨fun s member place => ?_, fun x there held member => ?_, fun x there => ?_⟩
  · rw [subscribers] at member
    rw [watchers_addWatcher]
    split_ifs with here
    · rw [here]
      rcases List.mem_append.mp member with old | new
      -- a subscriber from before has a number below the new ones, and watches elsewhere
      · obtain ⟨bounded, elsewhere⟩ := h.of_subscriber old
        refine ⟨fun watches => absurd watches elsewhere, ?_⟩
        rintro ⟨x, same, known⟩
        obtain rfl := Option.some.inj same
        exact absurd bounded (Nat.not_lt.mpr (List.le_snd_of_mem_zipIdx known))
      · obtain ⟨n, there, rfl⟩ := List.mem_map.mp new
        exact ⟨fun _ => ⟨_, rfl, there⟩, fun _ => rfl⟩
    · rcases List.mem_append.mp member with old | new
      · exact h.heard s old place
      · obtain ⟨n, there, rfl⟩ := List.mem_map.mp new
        -- the new subscribers are the new watcher's, which is in another place
        refine ⟨fun watches => absurd (Handler.watcher.inj watches).symm here, ?_⟩
        rintro ⟨x, found, known⟩
        exact absurd (h.known x (List.mem_of_getElem? found) _ known)
          (Nat.not_lt.mpr (List.le_snd_of_mem_zipIdx there))
  · rw [nextId]
    rcases List.mem_append.mp there with old | new
    · exact Nat.lt_of_lt_of_le (h.known x old held member) (Nat.le_add_right _ _)
    · obtain rfl := List.mem_singleton.mp new
      exact List.snd_lt_add_of_mem_zipIdx member
  · rcases List.mem_append.mp there with old | new
    · exact h.closed x old
    · obtain rfl := List.mem_singleton.mp new
      rintro ⟨⟩

/-- What is there is there **for the same** when there is one more watcher. -/
theorem Tallies.serves?_addWatcher (h : Tallies w held) (sequence : List String)
    (withinMs : UInt64) (target : Target) {b : Board} {x : Nat × Fixture} (member : x ∈ w.board b) :
    (w.addWatcher sequence withinMs target).serves? x.2 = w.serves? x.2 := by
  obtain ⟨number, fixture⟩ := x
  match fixture with
  | .subscriber name (.watcher place) =>
    have other : place ≠ w.watchers.length := by
      rintro rfl
      obtain rfl := board_of_mem member
      obtain ⟨s, old, same⟩ := List.mem_map.mp member
      injection same with _ fixture
      injection fixture with _ handler
      exact (h.of_subscriber old).2 handler
    simp only [serves?, watchers_addWatcher, if_neg other]
  | .subscriber _ (.target _) | .listener _ | .reader _ | .timer _ _ => rfl

/-- **A watcher** is listed on the bus under each name of its pattern. -/
theorem Tallies.installs_addWatcher (h : Tallies w held) (sequence : List String)
    (withinMs : UInt64) (target : Target) :
    Installs w (w.addWatcher sequence withinMs target)
      (onlyOn .bus ((sequence.eraseDups.zipIdx w.bus.nextId).map fun n =>
        (n.2, .subscriber n.1 (.watcher w.watchers.length)))) := by
  obtain ⟨subscribers, nextId⟩ := bus_addWatcher w sequence withinMs target
  have next (b : Board) : w.nextOn b ≤ (w.addWatcher sequence withinMs target).nextOn b := by
    cases b with
    | bus => exact (Nat.le_add_right _ _).trans_eq nextId.symm
    | numbers | texts | clock => exact Nat.le_refl _
  -- whatever the watcher adds is on the bus, under one of its names
  have listed {b : Board} {x : Nat × Fixture} (member : x ∈ onlyOn .bus
      ((sequence.eraseDups.zipIdx w.bus.nextId).map fun n =>
        (n.2, Fixture.subscriber n.1 (.watcher w.watchers.length))) b) :
      b = .bus ∧ ∃ n ∈ sequence.eraseDups.zipIdx w.bus.nextId,
        (n.2, .subscriber n.1 (.watcher w.watchers.length)) = x :=
    ⟨(mem_onlyOn member).1, List.mem_map.mp (mem_onlyOn member).2⟩
  refine
    { watched := h.watched_addWatcher sequence withinMs target
      board := fun b => ?_
      serves := fun b x => h.serves?_addWatcher sequence withinMs target
      next
      numbers := fun b x member => ?_
      ordered := fun b => ?_
      issued := fun s before => before.mono next ?_
      fresh := fun b x member s before => ?_ }
  · cases b with
    | bus =>
      rw [board, subscribers, List.map_append, List.map_map]
      rfl
    | numbers | texts | clock => exact (List.append_nil _).symm
  · obtain ⟨rfl, n, there, rfl⟩ := listed member
    exact ⟨List.le_snd_of_mem_zipIdx there,
      (List.snd_lt_add_of_mem_zipIdx there).trans_eq nextId.symm⟩
  · unfold onlyOn
    split
    -- numbers are handed out in order
    · have ascending : ((sequence.eraseDups.zipIdx w.bus.nextId).map (·.2)).Pairwise (· < ·) := by
        rw [List.zipIdx_map_snd]
        exact List.pairwise_lt_range'
      exact List.pairwise_map.mpr (List.pairwise_map.mp ascending)
    · exact .nil
  · show _ ≤ (w.watchers ++ _).length
    rw [List.length_append]
    exact Nat.le_add_right _ _
  · obtain ⟨rfl, n, there, rfl⟩ := listed member
    -- a subscription that was issued before marks none of the new numbers
    refine before.marks_eq_false (List.le_snd_of_mem_zipIdx there) fun name place same watches => ?_
    injection same with _ handler
    rw [watches, ← Handler.watcher.inj handler] at before
    exact absurd before (Nat.lt_irrefl _)

end World

end RuleDispatch
