import RuleDispatch.Proofs.Disposal.Rewiring
import RuleDispatch.Proofs.Lookouts
import RuleDispatch.Proofs.Subscriptions.Once

/-! # Watchers hear the names of their pattern

A watcher subscribes to the names of its pattern and to nothing else, and only its own disposal takes these
subscriptions back: rules and labels hold on to other numbers. So whoever looks on the bus for a name finds
just the watchers that are not disposed of and have the name in their pattern.

* `World.Attends` — watchers are subscribed to the names of their pattern as long as they are there.
* `World.Attends.retract`, `World.Attends.addWatcher`, `World.Attends.wireAll` — what keeps it so.
* `World.Attends.work`, `World.attends_after` — every piece of work does, and so does every history.
* `World.Attends.mem_handlers_iff` — which watchers hear a name. -/

namespace RuleDispatch.World

variable {w w' : World} {held held' : Option Nat → Subscription → Prop}

/-- Watchers are **subscribed to the names of their pattern** as long as they are not disposed of, and what
is held besides are other subscriptions. -/
structure Attends (w : World) (held : Option Nat → Subscription → Prop) : Prop where
  /-- There is one subscription for each name. -/
  names : ∀ (place : Nat) (x : Watcher), w.watchers[place]? = some x → x.disposed = false →
    x.subscriptions.map Prod.fst = x.matcher.sequence.eraseDups
  /-- All of them are on the bus. -/
  listed : ∀ (place : Nat) (x : Watcher), w.watchers[place]? = some x → ∀ s ∈ x.subscriptions,
    (⟨s.1, s.2, .watcher place⟩ : Subscriber Handler) ∈ w.bus.subscribers
  /-- Nobody else holds their numbers. -/
  apart : ∀ (place : Nat) (x : Watcher), w.watchers[place]? = some x → ∀ s ∈ x.subscriptions,
    ∀ o name, ¬ held o (.event name s.2)

/-- A timer under a label leaves **watchers and rules** alone. -/
theorem timerAs_keeps (w : World) (label : String) (interval : Nat) (target : Target) :
    (w.timerAs label interval target).watchers = w.watchers
      ∧ (w.timerAs label interval target).registrations = w.registrations := by
  have cancelled (v : World) (index : Nat) :
      (v.cancelTimer index).watchers = v.watchers
        ∧ (v.cancelTimer index).registrations = v.registrations := by
    unfold cancelTimer
    split <;> exact ⟨rfl, rfl⟩
  have added : (w.addTimer interval target).watchers = w.watchers
      ∧ (w.addTimer interval target).registrations = w.registrations := by
    unfold addTimer
    split <;> exact ⟨rfl, rfl⟩
  unfold timerAs
  dsimp only [respond]
  split
  · exact ⟨(cancelled _ _).1.trans added.1, (cancelled _ _).2.trans added.2⟩
  · exact added

/-- What is disposed of is **the watcher in its place**. -/
theorem watchers_disposeWatcher (w : World) (place other : Nat) :
    (w.disposeWatcher place).watchers[other]?
      = (w.watchers[other]?).map fun x => if place = other then x.retired else x := by
  refine (watchers_retract w (.pattern place) other).trans ?_
  cases w.watchers[other]? with
  | none => rfl
  | some x => simp [Watcher.retired]

namespace Attends

/-- Watchers stay subscribed where **less is held besides**. -/
theorem mono (h : Attends w held)
    (fewer : ∀ o name id, held' o (.event name id) → held o (.event name id)) : Attends w held' where
  names := h.names
  listed := h.listed
  apart place x there s member o name own := h.apart place x there s member o name (fewer _ _ _ own)

/-- What a watcher has seen does not matter. -/
theorem congr (h : Attends w held) (same : w'.rack = w.rack) : Attends w' held := by
  have bus : w'.bus = w.bus := congrArg Rack.bus same
  have before {place : Nat} {x : Watcher} (there : w'.watchers[place]? = some x) :
      ∃ old, w.watchers[place]? = some old ∧ old.unseen = x.unseen := by
    have unseen : w'.watchers.map Watcher.unseen = w.watchers.map Watcher.unseen :=
      congrArg Rack.watchers same
    have shown := congrArg (·[place]?) unseen
    simp only [List.getElem?_map, there, Option.map_some] at shown
    exact Option.map_eq_some_iff.mp shown.symm
  refine ⟨fun place x there live => ?_, fun place x there s member => ?_,
    fun place x there s member => ?_⟩
  all_goals
    obtain ⟨old, there', alike⟩ := before there
    have subscriptions : old.subscriptions = x.subscriptions :=
      show old.unseen.subscriptions = x.unseen.subscriptions by rw [alike]
  · have sequence : old.matcher.sequence = x.matcher.sequence :=
      show old.unseen.matcher.sequence = x.unseen.matcher.sequence by rw [alike]
    have disposed : old.disposed = x.disposed :=
      show old.unseen.disposed = x.unseen.disposed by rw [alike]
    rw [← subscriptions, ← sequence]
    exact h.names place old there' (disposed.trans live)
  · rw [← subscriptions] at member
    exact bus ▸ h.listed place old there' s member
  · rw [← subscriptions] at member
    exact h.apart place old there' s member

/-- Attendance depends on **the fittings only**. -/
theorem of_fittings (h : Attends w w.Records) (same : w'.fittings = w.fittings) :
    Attends w' w'.Records :=
  (h.congr (congrArg Fittings.toRack same)).mono fun o _ _ =>
    (records_congr (congrArg Fittings.labels same) (congrArg Fittings.registrations same) o _).mp

/-! ## 1. More on the bus -/

/-- **Others** may be subscribed, and new numbers may be held. -/
theorem others (h : Attends w held) (watched : Watched w) (watchers : w'.watchers = w.watchers)
    (more : w.bus.subscribers ⊆ w'.bus.subscribers)
    (grown : ∀ o name id, held' o (.event name id) → held o (.event name id) ∨ w.bus.nextId ≤ id) :
    Attends w' held' where
  names := by
    rw [watchers]
    exact h.names
  listed := by
    rw [watchers]
    exact fun place x there s member => more (h.listed place x there s member)
  apart := by
    rw [watchers]
    intro place x there s member o name own
    rcases grown o name s.2 own with before | new
    · exact h.apart place x there s member o name before
    · exact absurd (watched.known x (List.mem_of_getElem? there) s member) (Nat.not_lt.mpr new)

/-- **A new watcher** is subscribed to the names of its pattern. -/
theorem addWatcher (h : Attends w held) (tallies : Tallies w held) (sequence : List String)
    (withinMs : UInt64) (target : Target) : Attends (w.addWatcher sequence withinMs target) held := by
  obtain ⟨subscribers, -⟩ := bus_addWatcher w sequence withinMs target
  refine ⟨fun place x there live => ?_, fun place x there s member => ?_,
    fun place x there s member o name own => ?_⟩
  all_goals
    rw [watchers_addWatcher] at there
    split_ifs at there with here
  · obtain rfl := Option.some.inj there
    exact List.zipIdx_map_fst _ _
  · exact h.names place x there live
  · obtain rfl := Option.some.inj there
    rw [subscribers, here]
    exact List.mem_append_right _ (List.mem_map.mpr ⟨s, member, rfl⟩)
  · rw [subscribers]
    exact List.mem_append_left _ (h.listed place x there s member)
  · -- its numbers are new ones, so nobody holds them already
    obtain rfl := Option.some.inj there
    have before : s.2 < w.bus.nextId := tallies.issued o _ own
    exact absurd before (Nat.not_lt.mpr (List.le_snd_of_mem_zipIdx member))
  · exact h.apart place x there s member o name own

/-! ## 2. What is taken off -/

/-- **A watcher disposed of** takes its own subscriptions back. -/
theorem disposeWatcher (h : Attends w held) (watched : Watched w) (place : Nat) :
    Attends (w.disposeWatcher place) held := by
  -- a watcher that is there afterwards gave everything back, or is another one and as it was
  have view {other : Nat} {x : Watcher} (there : (w.disposeWatcher place).watchers[other]? = some x) :
      ∃ old, w.watchers[other]? = some old
        ∧ ((x.disposed = true ∧ x.subscriptions = []) ∨ (place ≠ other ∧ x = old)) := by
    rw [watchers_disposeWatcher] at there
    obtain ⟨old, found, rfl⟩ := Option.map_eq_some_iff.mp there
    refine ⟨old, found, ?_⟩
    split_ifs with here
    · exact .inl ⟨rfl, rfl⟩
    · exact .inr ⟨here, rfl⟩
  refine ⟨fun other x there live => ?_, fun other x there s member => ?_,
    fun other x there s member => ?_⟩
  all_goals
    obtain ⟨old, found, ⟨gone, none⟩ | ⟨elsewhere, rfl⟩⟩ := view there
  · rw [gone] at live
    cases live
  · exact h.names other x found live
  · rw [none] at member
    cases member
  · -- the others are not those of the watcher that is disposed of
    rw [watched.subscribers_disposeWatcher]
    refine List.mem_filter.mpr ⟨h.listed other x found s member, decide_eq_true ?_⟩
    exact fun same => elsewhere (Handler.watcher.inj same).symm
  · rw [none] at member
    cases member
  · exact h.apart other x found s member

/-- **Something taken off** that is held: no number of a watcher is. -/
theorem retract (h : Attends w held) (watched : Watched w) {s : Subscription}
    (own : ∃ o, held o s) : Attends (w.retract s) held := by
  cases s with
  | event name id =>
    refine ⟨h.names, fun place x there t member => ?_, h.apart⟩
    refine List.mem_filter.mpr ⟨h.listed place x there t member, ?_⟩
    have other : t.2 ≠ id := by
      rintro rfl
      obtain ⟨o, own⟩ := own
      exact h.apart place x there t member o name own
    simp [other]
  | threshold id => exact ⟨h.names, h.listed, h.apart⟩
  | timer index =>
    have still : (w.cancelTimer index).bus = w.bus := by
      unfold cancelTimer
      split <;> rfl
    exact h.others watched (watchers_cancelTimer w index) (by rw [World.retract, still]; exact fun _ => id)
      fun o name id own => .inl own
  | pattern place => exact h.disposeWatcher watched place

/-- So it is with **several things**. -/
theorem foldl_retract (h : Attends w held) (watched : Watched w) {subscriptions : List Subscription}
    (own : ∀ s ∈ subscriptions, ∃ o, held o s) :
    Attends (subscriptions.foldl World.retract w) held := by
  induction subscriptions generalizing w with
  | nil => exact h
  | cons s rest ih =>
    exact ih (h.retract watched (own s List.mem_cons_self)) (watched.retract s)
      fun t member => own t (List.mem_cons_of_mem _ member)

/-- **A rule disposed of.** -/
theorem dispose (h : Attends w w.Records) (tallied : Tallied w) (index : Nat) :
    Attends (w.dispose index) (w.dispose index).Records := by
  cases found : w.registrations[index]? with
  | none =>
    rw [show w.dispose index = w by rw [World.dispose, found]]
    exact h
  | some r =>
    let marked := w.modifyRegistration index fun r => { r with disposed := true, subscriptions := [] }
    obtain ⟨labels, registrations⟩ := foldl_retract_keeps marked r.subscriptions
    have first : Attends marked w.Records := h.congr rfl
    have stripped : Attends (r.subscriptions.foldl World.retract marked) w.Records :=
      first.foldl_retract (tallied.toWatched.congr rfl) fun s member => ⟨some index, r, found, member⟩
    have done : Attends (r.subscriptions.foldl World.retract marked)
        (r.subscriptions.foldl World.retract marked).Records :=
      stripped.mono fun o name id own =>
        ((records_of_emptied (w := w) labels registrations o _).mp own).2
    unfold World.dispose
    rw [found]
    dsimp only
    split
    · next empty =>
      rw [empty] at done
      exact done
    · exact done.of_fittings rfl

/-- **Disposing of rules** leaves the watchers of all others subscribed. -/
theorem disposeEach (h : Attends w w.Records) (accounts : Accounts w) (rules : Keyed Nat) :
    Attends (w.disposeEach rules) (w.disposeEach rules).Records := by
  unfold World.disposeEach
  induction rules generalizing w with
  | nil => exact h
  | cons rule rest ih => exact ih (h.dispose accounts.toTallied rule.2) (accounts.dispose rule.2).1

/-! ## 3. Rules put in -/

/-- **A trigger wired.** -/
theorem wire (h : Attends w held) (tallies : Tallies w held) (index : Nat) (rule : String)
    (trigger : Trigger)
    (grown : ∀ o s, held' o s →
      held o s ∨ (o = some index ∧ (w.wire index rule trigger).2 = some s)) :
    Attends (w.wire index rule trigger).1 held' := by
  -- only a subscription of the rule itself comes with a number of the bus
  have before (quiet : ∀ name id, (w.wire index rule trigger).2 ≠ some (.event name id)) (o : Option Nat)
      (name : String) (id : Nat) (own : held' o (.event name id)) : held o (.event name id) :=
    (grown o _ own).resolve_right fun new => quiet name id new.2
  cases trigger with
  | event name =>
    refine h.others tallies.toWatched rfl (fun _ member => List.mem_append_left _ member)
      fun o name id own => (grown o _ own).imp_right fun new => ?_
    obtain ⟨-, new⟩ := new
    injection new with new
    injection new with _ number
    exact Nat.le_of_eq number
  | threshold entity bounds =>
    exact h.others tallies.toWatched rfl (fun _ => id)
      fun o name id own => .inl (before (by rintro _ _ ⟨⟩) o name id own)
  | schedule ms =>
    refine h.others tallies.toWatched (watchers_addTimer w _ _) ?_
      fun o name id own => .inl (before (by rintro _ _ ⟨⟩) o name id own)
    have still : (w.addTimer ms.toNat (.rule index)).bus = w.bus := by
      unfold addTimer
      split <;> rfl
    rw [World.wire, still]
    exact fun _ => id
  | pattern sequence withinMs =>
    refine (h.addWatcher tallies sequence withinMs (.rule index)).others ?_ rfl (fun _ => id)
      fun o name id own => .inl (before (by rintro _ _ ⟨⟩) o name id own)
    exact tallies.watched_addWatcher sequence withinMs (.rule index)
  | unknown =>
    exact h.others tallies.toWatched rfl (fun _ => id)
      fun o name id own => .inl (before (by rintro _ _ ⟨⟩) o name id own)

/-- **All triggers wired.** -/
theorem wireAll (h : Attends w held) (tallies : Tallies w held) (index : Nat) (rule : String)
    (triggers : List Trigger)
    (grown : ∀ o s, held' o s →
      held o s ∨ (o = some index ∧ s ∈ (w.wireAll index rule triggers).2)) :
    Attends (w.wireAll index rule triggers).1 held' := by
  induction triggers generalizing w held with
  | nil =>
    exact h.mono fun o name id own => (grown o _ own).resolve_right fun new => List.not_mem_nil new.2
  | cons trigger rest ih =>
    obtain ⟨-, -, tallies'⟩ := tallies.wire index rule trigger fun _ _ => Iff.rfl
    refine ih (h.wire tallies index rule trigger fun _ _ => id) tallies' fun o s own => ?_
    -- what the triggers hold on to, one after another
    have all : s ∈ (w.wireAll index rule (trigger :: rest)).2
        ↔ (w.wire index rule trigger).2 = some s
          ∨ s ∈ ((w.wire index rule trigger).1.wireAll index rule rest).2 := by
      show s ∈ (w.wire index rule trigger).2.toList ++ _ ↔ _
      rw [List.mem_append, Option.mem_toList]
      rfl
    rcases grown o s own with old | ⟨here, new⟩
    · exact .inl (.inl old)
    · exact (all.mp new).imp (fun first => .inr ⟨here, first⟩) fun later => ⟨here, later⟩

/-- **A rule put in.** -/
theorem enrol (h : Attends w w.Records) (tallied : Tallied w) (rule : Rule) :
    Attends (w.enrol rule) (w.enrol rule).Records := by
  obtain ⟨labels, registrations⟩ := enrol_keeps w rule
  have first : Attends (w.seated rule) w.Records := h.congr rfl
  have wired : Attends ((w.seated rule).wireAll w.registrations.length rule.id rule.triggers).1
      (w.enrol rule).Records :=
    first.wireAll (tallied.toTallies.congr rfl) w.registrations.length rule.id rule.triggers
      fun o s => (records_of_seated labels registrations o s).mp
  exact wired.congr rfl

/-! ## 4. Work and histories -/

/-- What **labels hold on to** may change, as long as new numbers come from the bus. -/
theorem relabelled (h : Attends w w.Records) (watched : Watched w)
    (grown : ∀ held ∈ w'.labels.subscriptions,
      (∃ old ∈ w.labels.subscriptions, old.2.2.1 = held.2.2.1) ∨ w.bus.nextId ≤ held.2.2.1)
    (registrations : w'.registrations = w.registrations) (watchers : w'.watchers = w.watchers)
    (more : w.bus.subscribers ⊆ w'.bus.subscribers) : Attends w' w'.Records := by
  refine h.others watched watchers more fun o name id own => ?_
  cases o with
  | none =>
    obtain ⟨held, member, rfl⟩ := own
    exact grown held member
  | some index =>
    obtain ⟨r, found, member⟩ := own
    exact .inl ⟨r, registrations ▸ found, member⟩

/-- What a label holds on to **taken off**. -/
theorem retractLabelled (h : Attends w held) (watched : Watched w) {s : Subscription}
    (labelled : held none s)
    (records : ∀ o name id, w.Records o (.event name id) → held o (.event name id)) :
    Attends (w.retract s) (w.retract s).Records := by
  obtain ⟨labels, registrations⟩ := retract_keeps w s
  refine (h.retract watched ⟨none, labelled⟩).mono fun o name id own => records o name id ?_
  exact (records_congr (congrArg (fun l : Labels => { l with cancelled := [] }) labels)
    (congrArg (List.map Registration.unslotted) registrations) o _).mp own

/-- **A watcher under a label**; the one that had the label is disposed of. -/
theorem watchAs (h : Attends w w.Records) (accounts : Accounts w) (label : String)
    (sequence : List String) (withinMs : UInt64) (target : Target) :
    Attends (w.watchAs label sequence withinMs target)
      (w.watchAs label sequence withinMs target).Records := by
  let watching : World := { w.addWatcher sequence withinMs target with
    labels := { w.labels with watchers := w.labels.watchers.put label w.watchers.length } }
  have there : Attends watching w.Records :=
    (h.addWatcher accounts.toTallies sequence withinMs target).congr rfl
  have watched : Watched watching :=
    (accounts.toTallies.watched_addWatcher sequence withinMs target).congr rfl
  unfold World.watchAs
  dsimp only
  split
  · next old found =>
    have labelled : w.Labelled (.pattern old) := ⟨_, Keyed.mem_of_lookup found, rfl⟩
    exact there.retractLabelled watched (s := .pattern old) labelled fun o name id own => by
      cases o <;> exact own
  · exact there.mono fun o name id own => by cases o <;> exact own

/-- **Every piece of work** lets watchers hear the names of their pattern. -/
theorem work (h : Attends w w.Records) (accounts : Accounts w) {outside : Bool}
    (work : Work outside w w') : Attends w' w'.Records := by
  have watched : Watched w := accounts.toWatched
  -- whatever label holds on to something now did so before
  have kept (held : String × String × Nat × Handler) (member : held ∈ w.labels.subscriptions) :
      (∃ old ∈ w.labels.subscriptions, old.2.2.1 = held.2.2.1) ∨ w.bus.nextId ≤ held.2.2.1 :=
    .inl ⟨held, member, rfl⟩
  cases work with
  | quiet same => exact h.of_fittings same
  | @subscribe _ label name handler lends =>
    refine h.relabelled watched (fun held member => ?_) rfl rfl
      fun s member => List.mem_append_left _ member
    rcases Keyed.eq_or_mem_of_mem_put member with rfl | old
    · exact .inr (Nat.le_refl _)
    · exact kept held old
  | listenNumber | listenText | letGoWatcher | letGoTimer =>
    exact h.relabelled watched kept rfl rfl fun _ => id
  | watch _ label sequence withinMs place => exact h.watchAs accounts label sequence withinMs _
  | timer _ label interval place =>
    have wiring := wiring_timerAs w label interval (.callback place)
    have labels : (w.timerAs label interval (.callback place)).labels.subscriptions
        = w.labels.subscriptions := congrArg Wiring.labelled wiring
    have bus : (w.timerAs label interval (.callback place)).bus = w.bus := congrArg Wiring.bus wiring
    obtain ⟨watchers, registrations⟩ := timerAs_keeps w label interval (.callback place)
    exact h.relabelled watched (labels ▸ kept) registrations watchers (bus ▸ fun _ => id)
  | retract labelled => exact h.retractLabelled watched labelled fun _ _ _ => id
  | unregister _ id =>
    unfold World.unregister
    split
    · exact h
    · next index _ =>
      -- the rule is taken off the list before it is disposed of
      have unlisted : Attends { w with engine := w.engine.map (Keyed.remove id) } w.Records := h.congr rfl
      exact unlisted.dispose (accounts.toTallied.congr rfl rfl rfl) index
  | enrol enabled free there => exact h.enrol accounts.toTallied _
  | disposeAll =>
    have unlisted : Attends { w with engine := w.engine.map fun _ => [] } w.Records := h.congr rfl
    exact unlisted.disposeEach (accounts.congr rfl rfl rfl) _
  | dropEngine =>
    have unlisted : Attends { w with engine := none } w.Records := h.congr rfl
    exact unlisted.disposeEach (accounts.congr rfl rfl rfl) _

/-- **Whoever hears a name** as a watcher is not disposed of and has the name in its pattern. -/
theorem mem_handlers_iff (h : Attends w held) (watched : Watched w) (name : String) (place : Nat) :
    .watcher place ∈ w.bus.handlers name
      ↔ ∃ x, w.watchers[place]? = some x ∧ x.disposed = false ∧ name ∈ x.matcher.sequence := by
  constructor
  · intro member
    obtain ⟨s, there, watches⟩ := List.mem_map.mp member
    obtain ⟨subscribed, named⟩ := List.mem_filter.mp there
    obtain ⟨x, found, known⟩ := (watched.heard s subscribed place).mp watches
    -- what is disposed of has no subscriptions
    have live : x.disposed = false := by
      cases gone : x.disposed with
      | false => rfl
      | true =>
        rw [watched.closed x (List.mem_of_getElem? found) gone] at known
        cases known
    refine ⟨x, found, live, ?_⟩
    have among : s.name ∈ x.subscriptions.map Prod.fst := List.mem_map_of_mem (f := Prod.fst) known
    rw [h.names place x found live, List.mem_eraseDups, of_decide_eq_true named] at among
    exact among
  · rintro ⟨x, found, live, named⟩
    rw [← List.mem_eraseDups, ← h.names place x found live] at named
    obtain ⟨s, known, rfl⟩ := List.mem_map.mp named
    exact List.mem_map.mpr
      ⟨_, List.mem_filter.mpr ⟨h.listed place x found s known, decide_eq_true rfl⟩, rfl⟩

end Attends

/-- **Every history** lets watchers hear the names of their pattern. -/
theorem attends_after (exec : Executor) {moves : List Move}
    (h : Accounts w ∧ Attends w w.Records) :
    Accounts (w.after exec moves)
      ∧ Attends (w.after exec moves) (w.after exec moves).Records := by
  refine after_induct (P := fun w => Accounts w ∧ Attends w w.Records) (fun v m both => ?_) h moves
  have works := works_move exec v m
  generalize v.move exec m = later at works
  induction works with
  | refl => exact both
  | @tail between last _ work ih =>
    obtain ⟨accounts, attends⟩ := ih
    refine ⟨?_, attends.work accounts work⟩
    cases outside : v.worksOutside m with
    | true => exact accounts.outside (outside ▸ work)
    | false => exact (accounts.inside (outside ▸ work)).1

/-- Where nothing happened, there are no watchers. -/
theorem attends_empty (wallClock : Timestamp) : Attends (empty wallClock) (empty wallClock).Records where
  names place x there := by cases there
  listed place x there := by cases there
  apart place x there := by cases there

end RuleDispatch.World
