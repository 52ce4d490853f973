import RuleDispatch.Proofs.Relevance.Disregard

/-! # Two worlds that are akin

Two worlds are akin when they are one and the same in the guise in which nothing shows of what is
disregarded. Moments that have come are stamped in the one and in the other, and all that counts of them is
that what is stamped alike is as far apart. Then whoever is called does the same in both, callbacks,
listeners, watchers and rules.

* `World.Akin` — two worlds that are akin.
* `InStep`, `InStep.observe` — stamps that windows cannot tell apart, and what a matcher makes of them.
* `Disregard.Unread`, `readsAlike_of_unread` — the conditions look at nothing that is disregarded.
* `World.Akin.fire`, `World.Akin.runCallback`, `World.Akin.observe` — one call. -/

namespace RuleDispatch

/-- Two worlds are **akin** when they are the same without what is disregarded, the moments that have
come stamped in the one and in the other. -/
def World.Akin (c : Disregard) (stamp stamp' : Timestamp → Timestamp) (w w' : World) : Prop :=
  w.under (c.guise stamp) = w'.under (c.guise stamp')

/-- No registered rule **reads a value that is disregarded**. -/
def Disregard.Unread (c : Disregard) (w : World) : Prop :=
  ∀ r ∈ w.registrations, r.disposed = false → ∀ cond ∈ r.rule.conditions, ∀ s, cond.reads = some s →
    c.values s = false

/-- Two ways of stamping moments are **in step**: what is stamped alike is as far apart, as far as windows
can tell. -/
def InStep (stamp stamp' : Timestamp → Timestamp) : Prop :=
  ∀ {start start' stop stop' : Timestamp}, stamp start = stamp' start' → stamp stop = stamp' stop' →
    ∀ ms, withinWindow start stop ms = withinWindow start' stop' ms

/-- Matchers that have come as far **come as far with the next event**, and say the same of it. -/
theorem InStep.observe {stamp stamp' : Timestamp → Timestamp} (step : InStep stamp stamp')
    {c : Disregard} {m m' : Matcher} (same : (c.guise stamp).matcher m = (c.guise stamp').matcher m')
    (name : String) {time time' : Timestamp} (stamped : stamp time = stamp' time') :
    (m.observe name time).1 = (m'.observe name time').1
      ∧ (c.guise stamp).matcher (m.observe name time).2
        = (c.guise stamp').matcher (m'.observe name time').2 := by
  obtain ⟨sequence, withinMs, index, start⟩ := m
  obtain ⟨sequence', withinMs', index', start'⟩ := m'
  obtain ⟨rfl, rfl, rfl, starts⟩ := Matcher.mk.inj same
  cases sequence with
  | nil => exact ⟨rfl, same⟩
  | cons first rest =>
    have began : stamp (Matcher.startAt ⟨first :: rest, withinMs, index, start⟩ time)
        = stamp' (Matcher.startAt ⟨first :: rest, withinMs, index, start'⟩ time') := by
      unfold Matcher.startAt
      split_ifs
      · exact stamped
      · cases start <;> cases start' <;> simp_all
    have window := step began stamped withinMs.toNat
    -- however far it has come, the attempt is said to have begun at one moment
    have kept (place : Nat) {began began' : Timestamp} (same : stamp began = stamp' began') :
        (c.guise stamp).matcher ⟨first :: rest, withinMs, place, some began⟩
          = (c.guise stamp').matcher ⟨first :: rest, withinMs, place, some began'⟩ :=
      congrArg (fun start => Matcher.mk (first :: rest) withinMs place (some start)) same
    unfold Matcher.observe
    dsimp only
    rw [window]
    split_ifs
    · exact ⟨rfl, kept _ began⟩
    · exact ⟨rfl, kept _ began⟩
    · exact ⟨rfl, kept _ began⟩
    · exact ⟨rfl, kept _ stamped⟩
    · exact ⟨rfl, kept _ began⟩

/-- A table without some keys has **the same under all others**. -/
theorem Keyed.lookup_filter {α : Type} (keeps : String → Bool) {key : String} (kept : keeps key = true)
    (table : Keyed α) : (table.filter fun entry => keeps entry.1).lookup key = table.lookup key := by
  induction table with
  | nil => rfl
  | cons entry rest ih =>
    obtain ⟨name, held⟩ := entry
    by_cases same : key = name
    · subst same
      rw [List.filter_cons_of_pos (by simpa using kept), List.lookup_cons_self, List.lookup_cons_self]
    · have other : (key == name) = false := by simpa using same
      rw [List.lookup_cons, other, ← ih]
      by_cases keeps_name : keeps name = true
      · rw [List.filter_cons_of_pos (by simpa using keeps_name), List.lookup_cons, other]
      · rw [List.filter_cons_of_neg (by simpa using keeps_name)]

namespace World

variable {c : Disregard} {stamp stamp' : Timestamp → Timestamp} {w w' : World}

/-- Rules that read no value that is disregarded **read the same**. -/
theorem readsAlike_of_unread (unread : c.Unread w) (stamp : Timestamp → Timestamp) :
    w.ReadsAlike (c.guise stamp) := by
  intro r member live
  -- each condition looks at one value, and that one is kept
  have each (cond : Condition) (listed : cond ∈ r.rule.conditions) :
      cond.holds (w.under (c.guise stamp)).store.reading = cond.holds w.store.reading := by
    have seen := unread r member live cond listed
    cases cond with
    | stateEquals entity value =>
      have same : (w.under (c.guise stamp)).store.text? entity = w.store.text? entity :=
        Keyed.lookup_filter (fun key => !c.values (.text key)) (by rw [seen _ rfl, Bool.not_false])
          w.store.texts
      exact congrArg (fun text => decide (Option.getD text "" = value)) same
    | numericCompare entity bounds =>
      have same : (w.under (c.guise stamp)).store.number? entity = w.store.number? entity :=
        Keyed.lookup_filter (fun key => !c.values (.number key)) (by rw [seen _ rfl, Bool.not_false])
          w.store.numbers
      exact congrArg (fun number => bounds.contains (Option.getD number 0)) same
    | unknown => rfl
  rw [Bool.eq_iff_iff, allHold, allHold, List.all_eq_true, List.all_eq_true]
  exact forall₂_congr fun cond listed => by rw [each cond listed]

namespace Akin

/-! ## 1. What is the same -/

/-- What is read off a world **in its guise** is the same. -/
theorem read {α : Type} (h : Akin c stamp stamp' w w') (f : World → α) :
    f (w.under (c.guise stamp)) = f (w'.under (c.guise stamp')) :=
  congrArg f h

theorem now (h : Akin c stamp stamp' w w') : w.now = w'.now := h.read World.now

theorem bus (h : Akin c stamp stamp' w w') : w.bus = w'.bus := h.read World.bus

theorem timers (h : Akin c stamp stamp' w w') : w.timers = w'.timers := h.read World.timers

/-- Akin worlds have **the same rules** in the same places. -/
theorem registrations (h : Akin c stamp stamp' w w') : w.registrations = w'.registrations :=
  h.read World.registrations

theorem engine (h : Akin c stamp stamp' w w') : w.engine = w'.engine := h.read World.engine

theorem labels (h : Akin c stamp stamp' w w') : w.labels = w'.labels := h.read World.labels

theorem calls (h : Akin c stamp stamp' w w') : w.calls = w'.calls := h.read World.calls

/-- The same listens to numbers, and to texts. -/
theorem hearNumbers (h : Akin c stamp stamp' w w') : w.store.hearNumbers = w'.store.hearNumbers :=
  h.read fun u => u.store.hearNumbers

/-- Akin worlds have **the same listeners to texts**. -/
theorem hearTexts (h : Akin c stamp stamp' w w') : w.store.hearTexts = w'.store.hearTexts :=
  h.read fun u => u.store.hearTexts

/-- What no rule reads in a world **no rule reads in an akin one**. -/
theorem unread (h : Akin c stamp stamp' w w') (unread : c.Unread w) : c.Unread w' := by
  rw [Disregard.Unread, ← h.registrations]
  exact unread

/-- The callbacks in a place have one label, and **do the same**. -/
theorem callback (h : Akin c stamp stamp' w w') (index : Nat) :
    (w.callbacks[index]? = none ∧ w'.callbacks[index]? = none)
      ∨ ∃ b b', w.callbacks[index]? = some b ∧ w'.callbacks[index]? = some b'
        ∧ b.label = b'.label ∧ c.script b.script = c.script b'.script := by
  have same := h.read (fun u : World => u.callbacks[index]?)
  simp only [under, List.getElem?_map] at same
  cases found : w.callbacks[index]? with
  | none =>
    cases found' : w'.callbacks[index]? with
    | none => exact .inl ⟨rfl, rfl⟩
    | some b' => simp [found, found'] at same
  | some b =>
    cases found' : w'.callbacks[index]? with
    | none => simp [found, found'] at same
    | some b' =>
      rw [found, found'] at same
      have both : b.under (c.guise stamp) = b'.under (c.guise stamp') := Option.some.inj same
      obtain ⟨label, script⟩ := Callback.mk.inj both
      exact .inr ⟨b, b', rfl, rfl, label, script⟩

/-! ## 2. Small changes -/

/-- What is the same **in every guise** is done in both worlds. -/
theorem map (h : Akin c stamp stamp' w w') {f : World → World}
    (same : ∀ g u, (f u).under g = f (u.under g)) : Akin c stamp stamp' (f w) (f w') := by
  rw [Akin, same, same, h]

/-- **More to be done**, the same in both worlds. -/
theorem push (h : Akin c stamp stamp' w w') {frames frames' : List Frame}
    (same : frames.map (·.under (c.guise stamp)) = frames'.map (·.under (c.guise stamp'))) :
    Akin c stamp stamp' (w.push frames) (w'.push frames') := by
  rw [Akin, under_push, under_push, h, same]

/-- **Recording** the same keeps worlds akin. -/
theorem record (h : Akin c stamp stamp' w w') {entry : Entry} (steady : entry.isSteady = true) :
    Akin c stamp stamp' (w.record entry) (w'.record entry) := by
  rw [Akin, under_record _ w steady, under_record _ w' steady, h]

end Akin

/-- A record that is not kept **does not show**. -/
theorem under_record_of_not_steady (c : Disregard) (stamp : Timestamp → Timestamp) (w : World)
    {entry : Entry} (dropped : entry.isSteady = false) :
    (w.record entry).under (c.guise stamp) = w.under (c.guise stamp) := by
  have log : (c.guise stamp).log ((w.now, entry) :: w.log) = (c.guise stamp).log w.log := by
    show List.filter _ _ = List.filter _ _
    rw [List.filter_cons_of_neg]
    simp [dropped]
  simp only [under, World.record, log]

/-- A timer **set to its next moment**, and another turn for it. -/
def rewound (w : World) (index deadline : Nat) : World :=
  { w with timers := w.timers.modify index fun t => { t with deadline } }.push [.resume (.timer index)]

/-- A timer's **turn**. -/
theorem tick_eq_rewound {index : Nat} {t : Timer} (found : w.timers[index]? = some t) :
    w.tick index = if !t.active || w.now < t.deadline then w else
      (w.rewound index (t.nextDeadline w.now)).callTarget .tick t.target := by
  rw [tick, found]
  rfl

namespace Akin

/-- **Records that are not kept** do not matter. -/
theorem records (h : Akin c stamp stamp' w w') {entry entry' : Entry} (dropped : entry.isSteady = false)
    (dropped' : entry'.isSteady = false) :
    Akin c stamp stamp' (w.record entry) (w'.record entry') := by
  rw [Akin, under_record_of_not_steady c stamp w dropped,
    under_record_of_not_steady c stamp' w' dropped', h]

/-! ## 3. Calls -/

/-- **Firing a rule** that reads nothing that is disregarded. -/
theorem fire (h : Akin c stamp stamp' w w') (unread : c.Unread w) (index : Nat) :
    Akin c stamp stamp' (w.fire index) (w'.fire index) := by
  rw [Akin, under_fire _ w index (c.spares_guise stamp _) (readsAlike_of_unread unread stamp),
    under_fire _ w' index (c.spares_guise stamp' _) (readsAlike_of_unread (h.unread unread) stamp'), h]

/-- Operations that are the same but for what is disregarded make **such frames**. -/
theorem scriptFrames {ops ops' : List Operation} (same : ops.map c.operation = ops'.map c.operation) :
    (World.scriptFrames ops).map (·.under (c.guise stamp))
      = (World.scriptFrames ops').map (·.under (c.guise stamp')) := by
  have frames (stamp : Timestamp → Timestamp) (ops : List Operation) :
      (World.scriptFrames ops).map (·.under (c.guise stamp))
        = World.scriptFrames (ops.map c.operation) := by
    simp only [World.scriptFrames, List.map_flatMap, List.flatMap_map]
    rfl
  rw [frames, frames, same]

/-- A callback **goes on with another script**, one that does the same. -/
theorem rescript (h : Akin c stamp stamp' w w') (index : Nat) {s s' : Script Operation}
    (same : c.script s = c.script s') :
    Akin c stamp stamp'
      { w with callbacks := w.callbacks.modify index fun b => { b with script := s } }
      { w' with callbacks := w'.callbacks.modify index fun b => { b with script := s' } } := by
  have left := under_modifyCallback (c.guise stamp) w index (f := fun b => { b with script := s })
    (k := fun b => { b with script := c.script s }) fun _ => rfl
  have right := under_modifyCallback (c.guise stamp') w' index (f := fun b => { b with script := s' })
    (k := fun b => { b with script := c.script s' }) fun _ => rfl
  rw [Akin, left, right, h, same]

/-- **Calling a callback** that does the same; its record is not kept. -/
theorem runCallback (h : Akin c stamp stamp' w w') (index : Nat) {entry entry' : String → Entry}
    (dropped : ∀ label, (entry label).isSteady = false)
    (dropped' : ∀ label, (entry' label).isSteady = false) :
    Akin c stamp stamp' (w.runCallback index entry) (w'.runCallback index entry') := by
  rcases h.callback index with ⟨none, none'⟩ | ⟨b, b', found, found', -, same⟩
  · rw [World.runCallback, World.runCallback, none, none']
    exact h
  · obtain ⟨frames, later⟩ := Disregard.script_call same
    have recorded := h.records (dropped b.label) (dropped' b'.label)
    rw [World.runCallback, World.runCallback, found, found']
    exact (recorded.rescript index later).push (scriptFrames frames)

/-- **Calling a target** keeps worlds akin, whatever is recorded of the call. -/
theorem callTarget (h : Akin c stamp stamp' w w') (unread : c.Unread w) {entry entry' : String → Entry}
    (dropped : ∀ label, (entry label).isSteady = false)
    (dropped' : ∀ label, (entry' label).isSteady = false) (target : Target) :
    Akin c stamp stamp' (w.callTarget entry target) (w'.callTarget entry' target) := by
  cases target with
  | callback index => exact h.runCallback index dropped dropped'
  | rule index => exact h.fire unread index

/-- **A listener to numbers told**, whatever was stored before. -/
theorem hearNumber (h : Akin c stamp stamp' w w') (unread : c.Unread w) (key : String) (value : Float)
    (listener : NumberListener) :
    Akin c stamp stamp' (w.hearNumber key value listener) (w'.hearNumber key value listener) := by
  cases listener with
  | callback index => exact h.runCallback index (fun _ => rfl) fun _ => rfl
  | threshold rule entity bounds =>
    unfold World.hearNumber
    dsimp only
    split_ifs
    · exact h.fire unread rule
    · exact h

/-- **A listener to texts told**, whatever was stored before. -/
theorem hearText (h : Akin c stamp stamp' w w') (key value : String) (index : Nat) :
    Akin c stamp stamp' (w.hearText key value index) (w'.hearText key value index) :=
  h.runCallback index (fun _ => rfl) fun _ => rfl

/-- **A tick.** -/
theorem tick (h : Akin c stamp stamp' w w') (unread : c.Unread w) (index : Nat) :
    Akin c stamp stamp' (w.tick index) (w'.tick index) := by
  cases found : w.timers[index]? with
  | none =>
    have found' : w'.timers[index]? = none := h.timers ▸ found
    rw [World.tick, World.tick, found, found']
    exact h
  | some t =>
    have found' : w'.timers[index]? = some t := h.timers ▸ found
    rw [tick_eq_rewound found, tick_eq_rewound found', ← h.now]
    split_ifs
    · exact h
    · have again : Akin c stamp stamp' (w.rewound index (t.nextDeadline w.now))
          (w'.rewound index (t.nextDeadline w.now)) := h.read (World.rewound · index _)
      exact again.callTarget unread (fun _ => rfl) (fun _ => rfl) t.target

/-! ## 4. Patterns -/

/-- The watchers in a place are there for one target, and have **come as far**. -/
theorem watcher (h : Akin c stamp stamp' w w') (index : Nat) :
    (w.watchers[index]? = none ∧ w'.watchers[index]? = none)
      ∨ ∃ x x', w.watchers[index]? = some x ∧ w'.watchers[index]? = some x'
        ∧ x.under (c.guise stamp) = x'.under (c.guise stamp') := by
  have same := h.read fun u => u.watchers[index]?
  simp only [under, List.getElem?_map] at same
  cases found : w.watchers[index]? with
  | none =>
    cases found' : w'.watchers[index]? with
    | none => exact .inl ⟨rfl, rfl⟩
    | some x' => simp [found, found'] at same
  | some x =>
    cases found' : w'.watchers[index]? with
    | none => simp [found, found'] at same
    | some x' =>
      rw [found, found'] at same
      exact .inr ⟨x, x', rfl, rfl, Option.some.inj same⟩

/-- A watcher **has come as far** as another. -/
theorem rematch (h : Akin c stamp stamp' w w') (index : Nat) {m m' : Matcher}
    (same : (c.guise stamp).matcher m = (c.guise stamp').matcher m') :
    Akin c stamp stamp'
      { w with watchers := w.watchers.modify index fun x => { x with matcher := m } }
      { w' with watchers := w'.watchers.modify index fun x => { x with matcher := m' } } := by
  have left := under_modifyWatcher (c.guise stamp) w index (f := fun x => { x with matcher := m })
    (k := fun x => { x with matcher := (c.guise stamp).matcher m }) fun _ => rfl
  have right := under_modifyWatcher (c.guise stamp') w' index (f := fun x => { x with matcher := m' })
    (k := fun x => { x with matcher := (c.guise stamp').matcher m' }) fun _ => rfl
  rw [Akin, left, right, h, same]

/-- **Settling what a watcher made of an event** keeps worlds akin, when the same came of it. -/
theorem settleWatcher (h : Akin c stamp stamp' w w') (unread : c.Unread w) {x x' : Watcher}
    (disposed : x.disposed = x'.disposed) (target : x.target = x'.target) (name : String)
    (outcome : Outcome) :
    Akin c stamp stamp' (w.settleWatcher x name outcome) (w'.settleWatcher x' name outcome) := by
  unfold World.settleWatcher
  rw [disposed, target]
  split
  · split_ifs
    · exact h
    · exact h.callTarget unread (fun _ => rfl) (fun _ => rfl) x'.target
  · exact h.record rfl
  · exact h

/-- **An event shown to a watcher**, stamped in the one world and in the other. -/
theorem observe (h : Akin c stamp stamp' w w') (unread : c.Unread w) (step : InStep stamp stamp')
    {e e' : Event} (name : e.name = e'.name) (time : stamp e.timestamp = stamp' e'.timestamp)
    (index : Nat) : Akin c stamp stamp' (w.observe e index) (w'.observe e' index) := by
  unfold World.observe
  rcases h.watcher index with ⟨none, none'⟩ | ⟨x, x', found, found', same⟩
  · rw [none, none']
    exact h
  · obtain ⟨matcher, target, -, disposed⟩ := Watcher.mk.inj same
    -- both have come as far, and the event is as late for the one as for the other
    obtain ⟨outcome, later⟩ := step.observe matcher e.name time
    rw [found, found', ← name]
    dsimp only
    rw [← outcome]
    refine settleWatcher ?_ ?_ disposed target e.name _
    · exact h.rematch index later
    · exact unread

/-- **An event handed to a handler.** -/
theorem handle (h : Akin c stamp stamp' w w') (unread : c.Unread w) (step : InStep stamp stamp')
    {e e' : Event} (name : e.name = e'.name) (time : stamp e.timestamp = stamp' e'.timestamp)
    (handler : Handler) : Akin c stamp stamp' (w.handle e handler) (w'.handle e' handler) := by
  cases handler with
  | target target => exact h.callTarget unread (fun _ => rfl) (fun _ => rfl) target
  | watcher index => exact h.observe unread step name time index

end Akin

end World

end RuleDispatch
