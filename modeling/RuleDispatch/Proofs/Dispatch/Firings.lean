import RuleDispatch.Proofs.Dispatch.Calls
import RuleDispatch.Proofs.Subscriptions.Equipped
import RuleDispatch.Proofs.Subscriptions.Once

/-! # Signals fire what they meet

Who is to be called is read off when a signal is sent, and each of them is called once. As long as no
callback does anything, the calls fire the triggers of registered rules that the signal meets, one after
another, in the order in which they were wired. Each of these firings looks at the conditions in the
store as it is then, and starts one run or leaves everything as it was; no run takes a stride before all
calls are made.

* `World.met` — the triggers that a signal meets.
* `World.Amid`, `World.Amid.step` — in the middle of the calls, and one call on.
* `World.Amid.round` — what all calls come to.
* `World.Attempt`, `World.Answers` — what is said of one firing, and of a signal.
* `signals_fire_what_they_meet` — every reachable world. -/

namespace RuleDispatch

/-- Whether a trigger is a threshold that a number **meets**. -/
def Trigger.isMetBy (key : String) (value : Float) : Trigger → Bool
  | .threshold entity bounds => key = entity && bounds.contains value
  | .event _ | .pattern _ _ | .schedule _ | .unknown => false

namespace World

variable {w u : World} {s : Signal} {exec : Executor}

/-! ## 1. Triggers that are met -/

/-- The handlers under a name that are there for rules, each with **the trigger that it is there
for**. -/
def audience (w : World) (name : String) : List (Handler × Nat × Trigger) :=
  (w.bus.handlers name).filterMap fun handler =>
    (w.serves? (.subscriber name handler)).map fun served => (handler, served)

/-- Whether a handler **passes an event on**: a watcher does when the event completes its pattern. -/
def passesOn (w : World) (event : Event) : Handler → Bool
  | .target _ => true
  | .watcher place => (w.watchers[place]?).any fun x =>
    (x.matcher.observe event.name event.timestamp).1 = .completed

/-- The **triggers that a signal meets**, with the places of their rules, in order: for an event those
that hear its name directly and those whose pattern it completes, for a number the thresholds of its
entity that it lies inside. -/
def met (w : World) : Signal → List (Nat × Trigger)
  | .event event =>
    ((w.audience event.name).filter fun heard => w.passesOn event heard.1).map (·.2)
  | .number key value => w.triggersThat (Trigger.isMetBy key value)

/-- The rule that a callee **fires**. -/
def fires? (w : World) (s : Signal) (c : s.Callee) : Option Nat :=
  (w.reaches? s c).bind Target.rule?

/-- Picking from the triggers of some kind those **of a narrower kind**. -/
theorem triggersThat_of_imp (w : World) (wanted : Trigger → Bool) {narrower : Trigger → Bool}
    (implies : ∀ t, narrower t = true → wanted t = true) :
    (w.triggersThat wanted).filter (fun entry => narrower entry.2) = w.triggersThat narrower := by
  simp only [triggersThat, List.filter_flatMap, List.filter_map, List.filter_filter, Function.comp_def]
  refine List.flatMap_congr fun entry _ => congrArg _ (List.filter_congr fun t _ => ?_)
  cases narrow : narrower t with
  | false => rfl
  | true => simp [implies t narrow]

/-- The rules that are fired are those whose triggers are **met**. -/
theorem Equipped.filterMap_fires? (h : Equipped w) (s : Signal) :
    (w.callees s).filterMap (w.fires? s) = (w.met s).map (·.1) := by
  cases s with
  | event event =>
    rw [met, audience, List.filter_filterMap, List.map_filterMap, List.map_filterMap]
    refine List.filterMap_congr fun handler member => ?_
    cases handler with
    | target target => cases target <;> rfl
    | watcher place =>
      -- a live watcher passes the event on just if it completes its pattern
      obtain ⟨s, there, watches⟩ := List.mem_map.mp member
      have here := h.others s (List.mem_of_mem_filter there)
      rw [watches] at here
      obtain ⟨x, found, live⟩ := here
      have passes : w.passesOn event (.watcher place)
          = decide ((x.matcher.observe event.name event.timestamp).1 = .completed) := by
        rw [passesOn, found, Option.any_some]
      simp only [fires?, reaches?, serves?, found, live, Option.bind_some]
      cases aimed : x.target.rule? <;>
        by_cases completes : (x.matcher.observe event.name event.timestamp).1 = .completed <;>
        simp [aimed, completes, passes, Option.filter]
  | number key value =>
    rw [met, ← w.triggersThat_of_imp Trigger.isThreshold, ← h.numbers,
      List.filter_filterMap, List.map_filterMap]
    · refine List.filterMap_congr fun listener _ => ?_
      cases listener with
      | callback index => rfl
      | threshold rule entity bounds =>
        by_cases meets : (key = entity && bounds.contains value) = true <;>
          simp [fires?, reaches?, NumberListener.serves?, Trigger.isMetBy, Option.filter, meets,
            Target.rule?]
    · intro t meets
      cases t <;> first | rfl | cases meets

/-- The handlers under a name stand for **the triggers that hear it**. -/
theorem Equipped.map_audience (h : Equipped w) (name : String) :
    (w.audience name).map (·.2) = w.triggersThat (Trigger.isHeardUnder name) := by
  rw [← h.bus name, audience, List.map_filterMap]
  refine List.filterMap_congr fun handler _ => ?_
  rw [Option.map_map]
  exact Option.map_id'

/-- What is fired is **registered**. -/
theorem Equipped.registered_of_fires? (h : Equipped w) {c : s.Callee} (member : c ∈ w.callees s)
    {index : Nat} (fires : w.fires? s c = some index) : ∃ rule, (index, rule) ∈ w.registered := by
  have listed (wanted : Trigger → Bool) {entry : Nat × Trigger} (there : entry ∈ w.triggersThat wanted) :
      ∃ rule, (entry.1, rule) ∈ w.registered := by
    obtain ⟨⟨place, rule⟩, registered, member⟩ := List.mem_flatMap.mp there
    obtain ⟨_, -, rfl⟩ := List.mem_map.mp member
    exact ⟨rule, registered⟩
  have there : index ∈ (w.met s).map (·.1) := by
    rw [← h.filterMap_fires?]
    exact List.mem_filterMap.mpr ⟨c, member, fires⟩
  obtain ⟨entry, met, rfl⟩ := List.mem_map.mp there
  cases s with
  | event event =>
    obtain ⟨heard, among, rfl⟩ := List.mem_map.mp met
    refine listed (Trigger.isHeardUnder event.name) ?_
    rw [← h.map_audience]
    exact List.mem_map_of_mem (List.mem_of_mem_filter among)
  | number key value => exact listed _ met

/-! ## 2. In the middle of the calls -/

/-- **In the middle of the calls** for a signal that was sent in a world: some callees are left, and
whatever was called so far, they are still reached as they were. -/
structure Amid (w : World) (s : Signal) (u : World) (left : List s.Callee) : Prop where
  /-- The round stands on what was to be done before. -/
  stack : u.stack = s.frame left :: w.stack
  fittings : u.fittings = w.fittings
  store : u.store = (w.send s).store
  /-- Whoever is left was to be called from the beginning. -/
  members : ∀ c ∈ left, c ∈ w.callees s
  /-- Whoever is left is reached as at the beginning. -/
  reaches : ∀ c ∈ left, u.reaches? s c = w.reaches? s c
  /-- The callbacks that are left do nothing still. -/
  silent : ∀ c ∈ left, ∀ index, w.reaches? s c = some (.callback index) → u.Silent index
  /-- No watcher is shown the event twice. -/
  apart : left.Pairwise fun c later => ∀ place, s.Shows later place → ¬ s.Shows c place

/-- What doing the frame of a signal **comes to**. -/
theorem step_frame_cons {c : s.Callee} {left : List s.Callee} {rest : List Frame}
    (stack : u.stack = s.frame (c :: left) :: rest) :
    u.step exec = ({ u with stack := rest }.push [s.frame left]).call s c := by
  rw [step, stack]
  cases s <;> rfl

/-- The frame of a signal that is left with nobody to call **goes away**. -/
theorem step_frame_nil {rest : List Frame} (stack : u.stack = s.frame [] :: rest) :
    u.step exec = { u with stack := rest } := by
  rw [step, stack]
  cases s <;> rfl

/-- The rule that is proposed for firing is the one that **the next callee** fires. -/
theorem Amid.firing? {left : List s.Callee} (h : Amid w s u left) :
    u.firing? = left.head?.bind (w.fires? s) := by
  rw [World.firing?, h.stack]
  cases left with
  | nil => cases s <;> rfl
  | cons c left =>
    show u.proposed? (s.frame (c :: left)) = w.fires? s c
    rw [proposed?_frame, h.reaches c List.mem_cons_self, fires?]

/-- **One call on**: the rule that the callee fires is proposed for firing. -/
theorem Amid.step {c : s.Callee} {left : List s.Callee} (h : Amid w s u (c :: left))
    (exec : Executor) :
    Amid w s (u.step exec) left
      ∧ { (u.step exec).ledger with stack := w.stack }
        = (w.fires? s c).elim { u.ledger with stack := w.stack }
          (Ledger.fired (w.send s).store.reading { u.ledger with stack := w.stack }) := by
  let below : World := { u with stack := w.stack }.push [s.frame left]
  have reached (c' : s.Callee) : below.reaches? s c' = u.reaches? s c' := reaches?_congr fun _ _ => rfl
  have same : below.reaches? s c = w.reaches? s c :=
    (reached c).trans (h.reaches c List.mem_cons_self)
  obtain ⟨called, others⟩ := called_call below s c fun index target =>
    h.silent c List.mem_cons_self index (same ▸ target)
  have fittings := fittings_call below s c
  rw [step_frame_cons h.stack]
  have ledger : (below.call s c).ledger
      = (w.fires? s c).elim below.ledger (below.ledger.fired (w.send s).store.reading) := by
    rw [called.ledger, same, ← h.store]
    rfl
  have stack : below.ledger.stack = s.frame left :: w.stack := rfl
  refine ⟨⟨?_, fittings.trans h.fittings, called.store.trans h.store,
    fun c' later => h.members c' (List.mem_cons_of_mem c later), fun c' later => ?_,
    fun c' later index target => called.silent index
      (h.silent c' (List.mem_cons_of_mem c later) index target), h.apart.of_cons⟩, ?_⟩
  · show (below.call s c).ledger.stack = _
    rw [ledger, ← stack]
    cases w.fires? s c with
    | none => rfl
    | some index => exact Ledger.stack_fired _ _ index
  · -- the watcher that was shown the signal is none of those left
    refine (reaches?_congr fun place shows => ?_).trans (h.reaches c' (List.mem_cons_of_mem c later))
    exact others place ((List.pairwise_cons.mp h.apart).1 c' later place shows)
  · rw [ledger]
    cases w.fires? s c with
    | none => rfl
    | some index => exact (Ledger.fired_stack _ below.ledger w.stack index).symm

/-! ## 3. All calls -/

/-- So many steps, one for each callee and one more **when none is left**. -/
def turns {α : Type} (left : List α) : List Move :=
  List.replicate (left.length + 1) .step

/-- The turns of one callee more are **one step more**. -/
theorem turns_cons {α : Type} (a : α) (left : List α) : turns (a :: left) = .step :: turns left := rfl

/-- Before each of these steps the world is **in the middle of the calls**. -/
theorem Amid.after {left : List s.Callee} (h : Amid w s u left) (exec : Executor)
    {past future : List Move} (split : turns left = past ++ .step :: future) :
    ∃ later, Amid w s (u.after exec past) later := by
  induction left generalizing u past with
  | nil =>
    cases past with
    | nil => exact ⟨[], h⟩
    | cons m past =>
      have none_left := congrArg List.length split
      simp [turns] at none_left
  | cons c left ih =>
    cases past with
    | nil => exact ⟨c :: left, h⟩
    | cons m past =>
      obtain ⟨rfl, rest⟩ := List.cons.inj split
      exact ih (h.step exec).1 rest

/-- What shows **of each callee** shows of all of them in order. -/
theorem Amid.shown {α : Type} {left : List s.Callee} (h : Amid w s u left)
    {view : World → Option α} (f : s.Callee → Option α)
    (each : ∀ v later, Amid w s v later → view v = later.head?.bind f) :
    World.shown exec view u (turns left) = left.filterMap f := by
  induction left generalizing u with
  | nil =>
    show (view u).toList ++ [] = []
    rw [each u [] h]
    rfl
  | cons c left ih =>
    rw [turns_cons, World.shown, each u (c :: left) h, ih (h.step exec).1, List.filterMap_cons]
    show (f c).toList ++ _ = _
    cases f c <;> rfl

/-- In the middle of the calls **no run takes a stride**, and none comes to its end. -/
theorem Amid.runs_wait {left : List s.Callee} (h : Amid w s u left) (exec : Executor) :
    u.strides exec (turns left) = [] ∧ u.ended exec (turns left) = [] := by
  have none_shown : left.filterMap (fun _ => (none : Option Stride)) = [] :=
    List.filterMap_eq_nil_iff.mpr fun _ _ => rfl
  have none_ends : left.filterMap (fun _ => (none : Option Run)) = [] :=
    List.filterMap_eq_nil_iff.mpr fun _ _ => rfl
  constructor
  · refine (h.shown (fun _ => none) fun v later amid => ?_).trans none_shown
    rw [stride?, amid.stack]
    cases s <;> cases later <;> rfl
  · refine (h.shown (fun _ => none) fun v later amid => ?_).trans none_ends
    rw [ending?, amid.stack]
    cases s <;> cases later <;> rfl

/-- **All calls**: the rules that the callees fire are fired one after another, and no more is done. -/
theorem Amid.round {left : List s.Callee} (h : Amid w s u left) (exec : Executor) :
    (u.after exec (turns left)).ledger
        = (left.filterMap (w.fires? s)).foldl (Ledger.fired (w.send s).store.reading)
          { u.ledger with stack := w.stack }
      ∧ (u.after exec (turns left)).fittings = w.fittings
      ∧ (u.after exec (turns left)).store = (w.send s).store := by
  induction left generalizing u with
  | nil =>
    have last : u.after exec (turns ([] : List s.Callee)) = { u with stack := w.stack } :=
      step_frame_nil h.stack
    rw [last]
    exact ⟨rfl, h.fittings, h.store⟩
  | cons c left ih =>
    obtain ⟨amid, ledger⟩ := h.step exec
    obtain ⟨round, rest⟩ := ih amid
    refine ⟨round.trans ?_, rest⟩
    rw [ledger, List.filterMap_cons]
    cases w.fires? s c <;> rfl

/-- A signal that was just sent is **in the middle of its calls**, with none made. -/
theorem Once.amid (once : Once w) (accounts : Accounts w)
    (silent : ∀ c ∈ w.callees s, ∀ index, w.reaches? s c = some (.callback index) → w.Silent index) :
    Amid w s (w.send s) (w.callees s) where
  stack := by cases s <;> rfl
  fittings := by cases s <;> rfl
  store := rfl
  members _ := id
  reaches c _ := reaches?_congr fun place _ => by cases s <;> rfl
  silent c member index target := by
    cases s <;> exact silent c member index target
  apart := by
    cases s with
    | event event =>
      refine (once.handlers accounts event.name).imp fun {c later} differ place shows shown => ?_
      exact differ place shown shows
    | number key value => exact List.pairwise_of_forall fun _ _ _ shows => shows.elim

/-! ## 4. One firing -/

/-- **One rule proposed for firing**: it is a registered one, its conditions are looked at in the store
as it is now, and either a run is started or nothing is done. The engine does the same when the rule is
fired by hand. -/
structure Attempt (u u' : World) (index : Nat) : Prop where
  /-- It is the rule listed under its id; a run of it starts if the conditions hold and its slot accepts it,
  and nothing happens otherwise. -/
  verdict : ∃ r, u.registrations[index]? = some r ∧ r.disposed = false
    ∧ u.ruleIndex? r.rule.id = some index
    ∧ { u'.ledger with stack := u.stack }
      = if allHold u.store.reading r.rule.conditions = true ∧ r.slot.accepts r.rule.mode = true then
          u.ledger.started index r
        else u.ledger
  /-- Firing it by hand would come to the same. -/
  byHand : ∀ id, u.ruleIndex? id = some index →
    { u'.ledger with stack := u.stack } = (u.perform (.trigger id)).ledger
  bus : u'.bus = u.bus
  store : u'.store = u.store

/-- **Firing by hand** is one rule proposed for firing. -/
theorem perform_trigger {id : String} {index : Nat} (found : u.ruleIndex? id = some index) :
    u.perform (.trigger id) = (u.fire index).respond (.flag true) := by
  rw [perform, withEngine, if_pos (isSome_engine_of_ruleIndex? found), found]

/-- A rule that was proposed for firing **was attempted**, if it is the one listed under its id. -/
theorem attempt_of_fired {u' : World} {index : Nat} {rule : Rule}
    (registered : (index, rule) ∈ u.registered) (listed : u.ruleIndex? rule.id = some index)
    (ledger : { u'.ledger with stack := u.stack } = u.ledger.fired u.store.reading index)
    (bus : u'.bus = u.bus) (store : u'.store = u.store) : Attempt u u' index where
  verdict := by
    obtain ⟨r, found, live, rfl⟩ := mem_registered.mp registered
    refine ⟨r, found, live, listed, ledger.trans ?_⟩
    have entry : u.ledger.entries[index]? = some r.bare :=
      (held?_eq u index).symm.trans (held?_of_registration found)
    simp only [Ledger.fired, entry, Registration.disposed_bare, Registration.rule_bare,
      Registration.slot_bare, live, Bool.not_false, Bool.true_and, Bool.and_eq_true]
    rfl
  byHand id found := by
    rw [ledger, perform_trigger found, ledger_respond, ledger_fire_eq]
  bus := bus
  store := store

/-- A rule **fired by hand** is one firing. -/
theorem Equipped.attempt_trigger (h : Equipped w) {id : String} {index : Nat}
    (found : w.ruleIndex? id = some index) : Attempt w (w.perform (.trigger id)) index := by
  obtain ⟨rule, registered, named⟩ := (h.listed id index).mp found
  rw [perform_trigger found]
  refine attempt_of_fired registered (named ▸ found) ?_
    (congrArg (fun f : Fittings => f.bus) (fittings_fire w index)) (fire_keeps w index).1
  have ledger := ledger_fire_eq w index
  have stack : (w.fire index).ledger.stack = w.stack := by
    rw [ledger]
    exact Ledger.stack_fired _ _ _
  rw [← ledger, ← stack]
  rfl

/-- A firing **in the middle of the calls** is one firing. -/
theorem Amid.attempt {left : List s.Callee} (h : Amid w s u left) (equipped : Equipped w)
    (exec : Executor) {index : Nat} (firing : u.firing? = some index) :
    Attempt u (u.step exec) index := by
  rw [h.firing?] at firing
  cases left with
  | nil => cases firing
  | cons c left =>
    have fires : w.fires? s c = some index := firing
    obtain ⟨amid, ledger⟩ := h.step exec
    obtain ⟨rule, registered⟩ :=
      equipped.registered_of_fires? (h.members c List.mem_cons_self) fires
    -- no call before this one has changed the registered rules, or what is listed
    have engine : u.engine = w.engine := congrArg Fittings.engine h.fittings
    have listed : u.ruleIndex? rule.id = some index := by
      rw [ruleIndex?, engine]
      exact (equipped.listed rule.id index).mpr ⟨rule, registered, rfl⟩
    have same : u.registered = w.registered :=
      registered_congr (congrArg Fittings.registrations h.fittings)
    refine attempt_of_fired (same ▸ registered) listed ?_
      (congrArg (fun f : Fittings => f.bus) (amid.fittings.trans h.fittings.symm))
      (amid.store.trans h.store.symm)
    rw [fires] at ledger
    calc { (u.step exec).ledger with stack := u.stack }
        = { { (u.step exec).ledger with stack := w.stack } with stack := u.stack } := rfl
      _ = { Ledger.fired (w.send s).store.reading { u.ledger with stack := w.stack } index with
            stack := u.stack } := by rw [ledger]; rfl
      _ = Ledger.fired (w.send s).store.reading u.ledger index := (Ledger.fired_stack _ _ _ _).symm
      _ = Ledger.fired u.store.reading u.ledger index := by rw [h.store]

/-- What is said of **a signal sent** in a world. -/
structure Answers (exec : Executor) (w : World) (s : Signal) : Prop where
  /-- The handlers under a name stand for the triggers of registered rules that hear it. -/
  heard : ∀ name, (w.audience name).map (·.2) = w.triggersThat (Trigger.isHeardUnder name)
  /-- The firings attempted are those of the triggers that the signal meets. -/
  fires : World.shown exec World.firing? (w.send s) (turns (w.callees s)) = (w.met s).map (·.1)
  /-- Each of them starts a run or does nothing. -/
  attempts : ∀ past future index, turns (w.callees s) = past ++ .step :: future →
    ((w.send s).after exec past).firing? = some index →
    Attempt ((w.send s).after exec past) ((w.send s).after exec (past ++ [.step])) index
      ∧ ((w.send s).after exec past).store = (w.send s).store
  /-- All calls are made then, and what was to be done before is to be done next. -/
  returns : ((w.send s).after exec (turns (w.callees s))).stack = w.stack
  /-- Nothing else is done to the runs, the slots and the rules. -/
  ledger : ((w.send s).after exec (turns (w.callees s))).ledger
    = ((w.met s).map (·.1)).foldl (Ledger.fired (w.send s).store.reading) w.ledger
  /-- The subscriptions are what they were. -/
  bus : ((w.send s).after exec (turns (w.callees s))).bus = w.bus
  /-- The values are what they were once the signal was sent. -/
  store : ((w.send s).after exec (turns (w.callees s))).store = (w.send s).store
  /-- No run takes a stride or comes to its end before that. -/
  strides : (w.send s).strides exec (turns (w.callees s)) = []
  /-- No run comes to its end before that. -/
  ended : (w.send s).ended exec (turns (w.callees s)) = []

end World

open World

/-- **Signals fire what they meet.** In every reachable world, whatever is to be done next, an event
that is emitted or a number that is written fires exactly the triggers of registered rules that it
meets, in the order in which they were wired, as long as no callback that is called does anything. Each
firing looks at the conditions of its rule in the store as it is then; it starts one run, which is last
of all that is ready, or it leaves the runs, the slots, the bus and the store as they were. No run takes
a stride before all calls are made. Firing a registered rule by hand does what one such firing does. -/
theorem signals_fire_what_they_meet (exec : Executor) (v : World) (reached : Reachable exec v)
    (stack : List Frame) (w : World) (now : w = { v with stack }) (s : Signal)
    (silent : ∀ c ∈ w.callees s, ∀ index, w.reaches? s c = some (.callback index) → w.Silent index) :
    Answers exec w s
      ∧ ∀ id index, w.ruleIndex? id = some index → Attempt w (w.perform (.trigger id)) index := by
  have invariants : Accounts v ∧ Listed v ∧ Once v := by
    obtain ⟨wallClock, moves, rfl⟩ := reached
    exact ⟨(accounts_empty wallClock).after exec moves, (listed_empty wallClock).after exec moves,
      (once_empty wallClock).after exec moves⟩
  -- the invariants do not look at the stack, so they hold whatever is to be done next
  obtain ⟨accounts, listed, once⟩ : Accounts w ∧ Listed w ∧ Once w := by
    subst now
    obtain ⟨accounts, listed, once⟩ := invariants
    exact ⟨accounts.congr rfl rfl rfl, listed, once⟩
  have equipped := accounts.equipped listed
  have amid := once.amid accounts silent
  refine ⟨?_, fun id index => equipped.attempt_trigger⟩
  obtain ⟨ledger, fittings, store⟩ := amid.round exec
  rw [equipped.filterMap_fires?] at ledger
  exact
    { heard := equipped.map_audience
      fires := (amid.shown (w.fires? s) fun _ _ h => h.firing?).trans (equipped.filterMap_fires? s)
      attempts := fun past future index split firing => by
        obtain ⟨left, h⟩ := amid.after exec split
        rw [after_append]
        exact ⟨h.attempt equipped exec firing, h.store⟩
      returns := by
        have stack := congrArg Ledger.stack ledger
        rw [Ledger.stack_foldl_fired] at stack
        exact stack
      ledger := ledger.trans (by cases s <;> rfl)
      bus := congrArg (fun f : Fittings => f.bus) fittings
      store := store
      strides := (amid.runs_wait exec).1
      ended := (amid.runs_wait exec).2 }

/-- A rule that **one event meets twice**. -/
def porch : Rule :=
  { id := "porch", triggers := [.event "motion", .pattern ["motion"] 100, .threshold "lux" {}]
    actions := [.wait 5] }

/-- A world with this rule, and a callback that would fire it but never does. -/
def evening : World :=
  (World.empty .first).after noEffects
    (Move.played (.operation (.subscribe "log" "motion" ⟨[.trigger "porch"], 0⟩)) 1
      ++ Move.played (.operation (.register (some porch))) 1)

/-- The rule is fired twice: the first firing starts a run, and the second leaves all as it is. -/
theorem signals_fire_what_they_meet_porch :
    let w : World := { evening with stack := [.respond .done] }
    let s : Signal := .event ⟨"motion", .first, .null⟩
    World.shown noEffects World.firing? (w.send s) (turns (w.callees s)) = [0, 0]
      ∧ ((w.send s).after noEffects (turns (w.callees s))).ledger.ready = [.run 0]
      ∧ (w.send s).strides noEffects (turns (w.callees s)) = [] := by
  intro w s
  have silent : ∀ c ∈ w.callees s, ∀ index, w.reaches? s c = some (.callback index) →
      w.Silent index := by
    intro c member index target held there
    -- the only callback is never to do anything
    have callbacks : w.callbacks = [⟨"log", ⟨[.trigger "porch"], 0⟩⟩] := rfl
    rw [callbacks] at there
    obtain rfl := List.mem_singleton.mp (List.mem_of_getElem? there)
    rfl
  obtain ⟨answers, -⟩ := signals_fire_what_they_meet noEffects evening
    ⟨.first, _, rfl⟩ [.respond .done] w rfl s silent
  have met : (w.met s).map (·.1) = [0, 0] := by cbv
  refine ⟨answers.fires.trans met, ?_, answers.strides⟩
  rw [answers.ledger, met]
  cbv

end RuleDispatch
