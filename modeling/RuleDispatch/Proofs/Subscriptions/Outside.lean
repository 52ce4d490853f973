import RuleDispatch.Proofs.Subscriptions.Books

/-! # Work from outside

Callbacks are subscribed and taken back by labels. What a label holds on to is there for a callback, so
whatever is done from outside leaves alone what is there for rules, and keeps the books right.

* `World.Tallied.listed_outside`, `World.Tallied.retract_outside` — something listed, something taken
  off.
* `World.Tallied.outside` — every piece of work from outside. -/

namespace RuleDispatch

namespace World

variable {w w' : World}

/-! ## 1. Listed and taken off -/

/-- Something **listed from outside** is there for no rule. -/
theorem Tallied.listed_outside (h : Tallied w) {new : Board → List (Nat × Fixture)}
    (i : Installs w w' new) (callbacks : ∀ b, ∀ x ∈ new b, w'.serves? x.2 = none)
    (registrations : w'.registrations = w.registrations)
    (labelled : ∀ s, w'.Labelled s → w.Labelled s ∨ (w'.Issued s ∧ ¬ w.Issued s))
    (lent : ∀ held ∈ w'.labels.subscriptions, ∃ place, held.2.2.2 = .target (.callback place)) :
    Tallied w' ∧ ∀ b, w'.services b = w.services b := by
  have records (index : Nat) (s : Subscription) :
      w'.Records (some index) s ↔ w.Records (some index) s := by
    simp only [Records, registrations]
  have tallies : Tallies w' w'.Records := by
    refine h.installs i (o := none) (fun b x member => ?_) (fun index s => (records index s).mpr)
      (fun o s there => ?_) fun outside => absurd rfl outside
    · rw [owner?, callbacks b x member]
      rfl
    · cases o with
      | none => exact (labelled s there).imp id fun new => ⟨rfl, new⟩
      | some index => exact .inl ((records index s).mp there)
  refine ⟨⟨tallies, lent⟩, fun b => ?_⟩
  have old : (w.board b).filterMap (fun x => w'.service x.2) = w.services b :=
    List.filterMap_congr fun x member => by rw [service, service, i.serves b x member]
  have none : (new b).filterMap (fun x => w'.service x.2) = [] :=
    List.filterMap_eq_nil_iff.mpr fun x member => by rw [service, callbacks b x member]; rfl
  rw [services, i.board, List.filterMap_append, old, none, List.append_nil]

/-- Something **taken off from outside** was there for no rule. -/
theorem Tallied.retract_outside (h : Tallied w) {s : Subscription}
    (outside : ∀ b, ∀ x ∈ w.board b, s.marks x = true → w.owner? x.2 = none) :
    Tallied (w.retract s) ∧ ∀ b, (w.retract s).services b = w.services b := by
  obtain ⟨labels, registrations⟩ := retract_keeps w s
  have records (o : Option Nat) (t : Subscription) : (w.retract s).Records o t ↔ w.Records o t := by
    cases o with
    | none => cases t <;> simp only [Records, Labelled, labels]
    | some index => simp only [Records, registrations]
  have tallies : Tallies (w.retract s) (w.retract s).Records :=
    h.toTallies.retract s (fun o t => (records o t).mp)
      fun index t _ => (records (some index) t).mpr
  refine ⟨⟨tallies, labels ▸ h.lent⟩, fun b => ?_⟩
  have same : (w.retract s).service = w.service := by
    funext fixture
    rw [service, service, serves?_retract]
  rw [services, services, h.board_retract, same, List.filterMap_filter]
  refine List.filterMap_congr fun x member => ?_
  cases marks : s.marks x with
  | false => rfl
  | true =>
    -- what is taken off was there for no rule
    have owner := outside b x member marks
    unfold owner? at owner
    rw [service, Option.map_eq_none_iff.mp owner]
    rfl

/-- What a label held on to is still there **for no rule** after something new was listed. -/
theorem Tallied.outside_of_labelled (h : Tallied w) {new : Board → List (Nat × Fixture)}
    (i : Installs w w' new) {s : Subscription} (labelled : w.Labelled s) :
    ∀ b, ∀ x ∈ w'.board b, s.marks x = true → w'.owner? x.2 = none := by
  intro b x member marks
  rw [i.board] at member
  rcases List.mem_append.mp member with old | fresh
  · rw [owner?, i.serves b x old]
    exact h.belongs none s labelled b x old marks
  · rw [i.fresh b x fresh s (h.issued none s labelled)] at marks
    cases marks

/-! ## 2. Something listed -/

/-- The books are right, and what is there for rules is **what it was**. -/
structure Respects (w w' : World) : Prop where
  tallied : Tallied w'
  services : ∀ b, w'.services b = w.services b
  registrations : w'.fittings.registrations = w.fittings.registrations

/-- A callback **subscribed** under a label. -/
theorem Tallied.subscribeAs (h : Tallied w) (label name : String) (place : Nat) :
    Respects w (w.subscribeAs label name (.target (.callback place))) := by
  have i := (h.installs_subscribe name (.callback place)).congr
    (u := w.subscribeAs label name (.target (.callback place))) rfl
  have outside := h.listed_outside i (fun b x member => ?_) rfl (fun s there => ?_)
    fun held member => ?_
  · exact ⟨outside.1, outside.2, rfl⟩
  · obtain rfl := List.mem_singleton.mp (mem_onlyOn member).2
    rfl
  · cases s with
    | event other id =>
      -- the label holds on to the new number, or another one to what it held
      obtain ⟨held, member, rfl⟩ := there
      rcases Keyed.eq_or_mem_of_mem_put member with rfl | old
      · exact .inr ⟨Nat.lt_succ_self _, Nat.lt_irrefl _⟩
      · exact .inl ⟨held, old, rfl⟩
    | threshold | timer | pattern => exact .inl there
  · rcases Keyed.eq_or_mem_of_mem_put member with rfl | old
    · exact ⟨place, rfl⟩
    · exact h.lent held old

/-- A callback that **listens**, to numbers or to texts. -/
theorem Tallied.listenAs (h : Tallied w) (label : String) {store : Store NumberListener Nat}
    {new : Board → List (Nat × Fixture)} (i : Installs w { w with store } new)
    (callbacks : ∀ b, ∀ x ∈ new b, serves? { w with store } x.2 = none)
    (next : store.nextId = w.store.nextId + 1) :
    Respects w { w with
      store
      labels := { w.labels with listeners := w.labels.listeners.put label w.store.nextId } } := by
  have outside := h.listed_outside
    (i.congr (u := { w with
      store
      labels := { w.labels with listeners := w.labels.listeners.put label w.store.nextId } }) rfl)
    callbacks rfl (fun s there => ?_) h.lent
  · exact ⟨outside.1, outside.2, rfl⟩
  · cases s with
    | threshold id =>
      obtain ⟨held, member, rfl⟩ := there
      rcases Keyed.eq_or_mem_of_mem_put member with rfl | old
      · exact .inr ⟨(Nat.lt_succ_self _).trans_eq next.symm, Nat.lt_irrefl _⟩
      · exact .inl ⟨held, old, rfl⟩
    | event | timer | pattern => exact .inl there

/-- What a label held on to **taken off** after something new was listed. -/
theorem Respects.retract (h : Tallied w) {new : Board → List (Nat × Fixture)}
    (i : Installs w w' new) (u : Respects w w') {s : Subscription} (labelled : w.Labelled s) :
    Respects w (w'.retract s) := by
  obtain ⟨tallied, services⟩ := u.tallied.retract_outside (h.outside_of_labelled i labelled)
  refine ⟨tallied, fun b => (services b).trans (u.services b), ?_⟩
  rw [← u.registrations]
  exact congrArg (List.map Registration.unslotted) (retract_keeps w' s).2

/-- A callback that **waits for a pattern**; the watcher that had the label is disposed of. -/
theorem Tallied.watchAs (h : Tallied w) (label : String) (sequence : List String)
    (withinMs : UInt64) (place : Nat) :
    Respects w (w.watchAs label sequence withinMs (.callback place)) := by
  let watched : World := { w.addWatcher sequence withinMs (.callback place) with
    labels := { w.labels with watchers := w.labels.watchers.put label w.watchers.length } }
  have i := (h.installs_addWatcher sequence withinMs (.callback place)).congr (u := watched) rfl
  have length : watched.watchers.length = w.watchers.length + 1 := List.length_append
  have outside := h.listed_outside i (fun b x member => ?_) rfl (fun s there => ?_) h.lent
  · have first : Respects w watched := ⟨outside.1, outside.2, rfl⟩
    unfold World.watchAs
    dsimp only
    split
    · -- the label had a watcher, which is disposed of after the new one was made
      next old found =>
      have labelled : w.Labelled (.pattern old) := ⟨_, Keyed.mem_of_lookup found, rfl⟩
      exact first.retract h i labelled
    · exact first
  · obtain ⟨n, -, rfl⟩ := List.mem_map.mp (mem_onlyOn member).2
    have own : (w.addWatcher sequence withinMs (.callback place)).serves?
        (.subscriber n.1 (.watcher w.watchers.length)) = none := by
      rw [serves?, watchers_addWatcher, if_pos rfl]
      rfl
    exact own
  · cases s with
    | pattern other =>
      obtain ⟨held, member, rfl⟩ := there
      rcases Keyed.eq_or_mem_of_mem_put member with rfl | old
      · exact .inr ⟨(Nat.lt_succ_self _).trans_eq length.symm, Nat.lt_irrefl _⟩
      · exact .inl ⟨held, old, rfl⟩
    | event | threshold | timer => exact .inl there

/-- A callback that **a timer calls**; the timer that had the label is cancelled. -/
theorem Tallied.timerAs (h : Tallied w) (label : String) (interval place : Nat) :
    Respects w (w.timerAs label interval (.callback place)) := by
  let timed : World := { w.addTimer interval (.callback place) with
    labels := { w.labels with timers := w.labels.timers.put label w.timers.length } }
  have i := (h.installs_addTimer interval (.callback place)).congr (u := timed) rfl
  have length : timed.timers.length = w.timers.length + 1 := length_addTimer w interval _
  have registrations : timed.registrations = w.registrations := by
    show (w.addTimer interval (.callback place)).registrations = _
    unfold addTimer
    split <;> rfl
  have labels : (w.addTimer interval (.callback place)).labels = w.labels := by
    unfold addTimer
    split <;> rfl
  have outside := h.listed_outside i (fun b x member => ?_) registrations (fun s there => ?_) h.lent
  -- the new timer is put in first, and then the one that had the label goes
  · have first : Respects w timed :=
      ⟨outside.1, outside.2, congrArg (List.map Registration.unslotted) registrations⟩
    have answered {v : World} (u : Respects w v) (answer : Answer) :
        Respects w (v.respond answer) :=
      ⟨u.tallied.of_fittings rfl, u.services, u.registrations⟩
    have relabelled : { w.addTimer interval (.callback place) with
        labels := { (w.addTimer interval (.callback place)).labels with
          timers := (w.addTimer interval (.callback place)).labels.timers.put label
            w.timers.length } } = timed := by
      rw [labels]
    unfold World.timerAs
    dsimp only
    rw [relabelled]
    refine answered ?_ _
    split
    · next old found =>
      have labelled : w.Labelled (.timer old) := ⟨_, Keyed.mem_of_lookup found, rfl⟩
      exact first.retract h i labelled
    · exact first
  · have there := (mem_onlyOn member).2
    split at there
    · cases there
    · obtain rfl := List.mem_singleton.mp there
      rfl
  · cases s with
    | timer other =>
      obtain ⟨held, member, rfl⟩ := there
      -- the label holds on to the new timer, or another one to what it held
      rcases Keyed.eq_or_mem_of_mem_put member with rfl | old
      · exact .inr ⟨(Nat.lt_succ_self _).trans_eq length.symm, Nat.lt_irrefl _⟩
      · exact .inl ⟨held, old, rfl⟩
    | event | threshold | pattern => exact .inl there

/-! ## 3. Every piece of work -/

/-- A label that **lets go** of what it held. -/
theorem Tallied.letGo (h : Tallied w) {labels : Labels}
    (subscriptions : labels.subscriptions = w.labels.subscriptions)
    (fewer : ∀ s, Labelled { w with labels } s → w.Labelled s) : Respects w { w with labels } := by
  have before : Tallies { w with labels } w.Records := h.toTallies.congr rfl
  have tallies : Tallies { w with labels } (Records { w with labels }) := by
    refine before.mono (fun o s there => ?_) fun index s there => there
    cases o with
    | none => exact fewer s there
    | some index => exact there
  exact ⟨⟨tallies, subscriptions.symm ▸ h.lent⟩, fun b => rfl, rfl⟩

/-- **Every piece of work from outside** keeps the books right, and leaves alone what is there for
rules. -/
theorem Tallied.outside (h : Tallied w) (work : Work true w w') : Respects w w' := by
  cases work with
  | quiet same =>
    exact ⟨h.of_fittings same, services_congr (congrArg Fittings.toRack same),
      congrArg Fittings.registrations same⟩
  | @subscribe w label name handler lends =>
    -- what is lent is a callback: labels hold nothing else
    have callback : ∃ place, handler = .target (.callback place) := by
      rcases lends with callback | ⟨held, member, rfl⟩
      · exact callback
      · exact h.lent held member
    obtain ⟨place, rfl⟩ := callback
    exact h.subscribeAs label name place
  | listenNumber _ label place =>
    refine h.listenAs label (h.installs_listenNumber (.callback place)) (fun b x member => ?_) rfl
    obtain rfl := List.mem_singleton.mp (mem_onlyOn member).2
    rfl
  | listenText _ label place =>
    refine h.listenAs label (h.installs_listenText place) (fun b x member => ?_) rfl
    obtain rfl := List.mem_singleton.mp (mem_onlyOn member).2
    rfl
  | watch _ label sequence withinMs place => exact h.watchAs label sequence withinMs place
  | timer _ label interval place => exact h.timerAs label interval place
  | @retract w s labelled =>
    obtain ⟨tallied, services⟩ := h.retract_outside (h.belongs none s labelled)
    exact ⟨tallied, services, congrArg (List.map Registration.unslotted) (retract_keeps w s).2⟩
  | letGoWatcher _ label =>
    -- forgetting a label lets go of what it held, and of nothing else
    refine h.letGo rfl fun s there => ?_
    cases s with
    | pattern place =>
      obtain ⟨held, member, same⟩ := there
      exact ⟨held, Keyed.mem_of_mem_remove member, same⟩
    | event | threshold | timer => exact there
  | letGoTimer _ label =>
    refine h.letGo rfl fun s there => ?_
    cases s with
    | timer index =>
      obtain ⟨held, member, same⟩ := there
      exact ⟨held, Keyed.mem_of_mem_remove member, same⟩
    | event | threshold | pattern => exact there

end World

end RuleDispatch
