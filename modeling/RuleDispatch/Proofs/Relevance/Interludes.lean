import RuleDispatch.Proofs.Dispatch.Firings
import RuleDispatch.Proofs.Patterns.Attempts
import RuleDispatch.Proofs.Relevance.Shifts

/-! # Interludes that nobody hears of

An event is emitted that no trigger hears of, or a value is written that no trigger and no condition
looks at, in the middle of a history. Nobody is called whom it concerns: a watcher is subscribed to the
names of its own pattern only, and a threshold looks at its own entity. So all calls are made and
nothing comes of them, and everything goes on as it would have without.

* `Notice.concerns`, `World.Foreign`, `World.BlindTo` — notices that concern no trigger, and no condition.
* `World.Indifferent`, `World.Idle` — nobody reacts, and nothing comes of a call.
* `World.Passes`, `Passes.round`, `Equipped.passes_interlude` — one call, a round of calls, and all of it.
* `Equipped.mem_sequence`, `Amid.keeps_attempt` — attempts that other events do not break.
* `only_names_and_distances_matter` — all this, and events shifted in time. -/

namespace RuleDispatch

/-! ## 1. Notices that do not concern a rule -/

/-- Whether a notice **concerns a trigger**: an event by its name, a number by its entity. -/
def Notice.concerns : Notice → Trigger → Bool
  | .event e, t => t.isHeardUnder e.name
  | .number key _, .threshold entity _ => entity = key
  | .number _ _, _ | .text _ _, _ => false

/-- The stored value that a notice **writes**. -/
def Notice.source? : Notice → Option Source
  | .event _ => none
  | .number key _ => some (.number key)
  | .text key _ => some (.text key)

/-- The value that a notice writes is disregarded, and **nothing else**. -/
def Disregard.ofNotice (n : Notice) : Disregard where
  contents := false
  values s := n.source? = some s

/-- The callback that a call is **made to**. -/
def Hearing.callback? : Hearing → Option Nat
  | .event _ (.target (.callback index)) => some index
  | .number _ _ (.callback index) => some index
  | .text _ _ index => some index
  | .event _ (.target (.rule _)) | .event _ (.watcher _) | .number _ _ (.threshold _ _ _) => none

namespace World

variable {w w' : World} {exec : Executor} {n : Notice}

/-- The rule, and the trigger of it, for which a call is **made**. -/
def servedBy? (w : World) : Hearing → Option (Nat × Trigger)
  | .event e handler => w.serves? (.subscriber e.name handler)
  | .number _ _ listener => listener.serves?
  | .text _ _ _ => none

/-- A notice is **foreign** to the rules: it concerns no trigger of a registered one. -/
def Foreign (w : World) (n : Notice) : Prop :=
  ∀ entry ∈ w.registered, ∀ t ∈ entry.2.triggers, n.concerns t = false

/-- **Nobody else reacts** to a notice: whoever is told of it, rules apart, is a callback that does
nothing. -/
def Indifferent (w : World) (n : Notice) : Prop :=
  ∀ h ∈ n.calls w.bus w.store, w.servedBy? h = none → ∃ index, h.callback? = some index ∧ w.Silent index

/-- A call **of which nothing comes**: a callback that does nothing is called, or the threshold of
another entity. -/
inductive Idle (w : World) : Hearing → Prop
  | event (e : Event) {index : Nat} (silent : w.Silent index) :
      Idle w (.event e (.target (.callback index)))
  | number (key : String) (value : Float) {index : Nat} (silent : w.Silent index) :
      Idle w (.number key value (.callback index))
  | other {key entity : String} (value : Float) (rule : Nat) (bounds : Bounds) (differ : key ≠ entity) :
      Idle w (.number key value (.threshold rule entity bounds))
  | text (key value : String) {index : Nat} (silent : w.Silent index) : Idle w (.text key value index)

/-- A registered rule has the **triggers of some kind** that are listed. -/
theorem exists_registered_of_triggersThat {wanted : Trigger → Bool} {entry : Nat × Trigger}
    (listed : entry ∈ w.triggersThat wanted) :
    ∃ rule, (entry.1, rule) ∈ w.registered ∧ entry.2 ∈ rule.triggers ∧ wanted entry.2 = true := by
  obtain ⟨⟨index, rule⟩, registered, member⟩ := List.mem_flatMap.mp listed
  obtain ⟨trigger, kept, rfl⟩ := List.mem_map.mp member
  obtain ⟨there, wants⟩ := List.mem_filter.mp kept
  exact ⟨rule, registered, there, wants⟩

/-- A call that is made for a rule **about an event** is made for a trigger that hears it. -/
theorem Equipped.hears_of_servedBy? (h : Equipped w) {e : Event} {handler : Handler}
    (member : handler ∈ w.bus.handlers e.name) {entry : Nat × Trigger}
    (served : w.servedBy? (.event e handler) = some entry) :
    ∃ rule, (entry.1, rule) ∈ w.registered ∧ entry.2 ∈ rule.triggers
      ∧ entry.2.isHeardUnder e.name = true := by
  refine exists_registered_of_triggersThat ?_
  rw [← h.bus e.name]
  exact List.mem_filterMap.mpr ⟨handler, member, served⟩

/-- **Nothing comes of any call** about a notice that is foreign to the rules, if nobody else reacts. -/
theorem Equipped.idle_of_foreign (h : Equipped w) (foreign : w.Foreign n) (indifferent : w.Indifferent n) :
    ∀ call ∈ n.calls w.bus w.store, w.Idle call := by
  intro call member
  have others := indifferent call member
  cases n with
  | event e =>
    obtain ⟨handler, there, rfl⟩ := List.mem_map.mp member
    cases served : w.servedBy? (.event e handler) with
    | some entry =>
      -- a watcher is subscribed to the names of its pattern only, so no rule is called
      obtain ⟨rule, registered, listed, hears⟩ := h.hears_of_servedBy? there served
      have deaf : entry.2.isHeardUnder e.name = false := foreign _ registered _ listed
      rw [hears] at deaf
      cases deaf
    | none =>
      obtain ⟨index, called, silent⟩ := others served
      cases handler with
      | watcher place => cases called
      | target target =>
        cases target with
        | rule index => cases called
        | callback index =>
          obtain rfl := Option.some.inj called
          exact .event e silent
  | number key value =>
    obtain ⟨listener, there, rfl⟩ := List.mem_map.mp member
    cases listener with
    | callback index =>
      obtain ⟨index, called, silent⟩ := others rfl
      obtain rfl := Option.some.inj called
      exact .number key value silent
    | threshold index entity bounds =>
      -- a threshold is told of every number, and looks at the one of its entity
      have listed : (index, .threshold entity bounds) ∈ w.triggersThat Trigger.isThreshold := by
        rw [← h.numbers]
        exact List.mem_filterMap.mpr ⟨_, there, rfl⟩
      obtain ⟨rule, registered, listed, -⟩ := exists_registered_of_triggersThat listed
      have deaf := foreign _ registered _ listed
      exact .other value index bounds fun same => of_decide_eq_false deaf same.symm
  | text key value =>
    obtain ⟨index, -, rfl⟩ := List.mem_map.mp member
    obtain ⟨index, called, silent⟩ := others rfl
    obtain rfl := Option.some.inj called
    exact .text key value silent

/-! ## 2. Calls of which nothing comes -/

/-- One world **passes into another** and nothing comes of it: what is disregarded apart, the two are
akin whatever stands on the stack, the watchers are the same, and callbacks that do nothing go on doing
nothing. -/
structure Passes (c : Disregard) (w w' : World) : Prop where
  akin : ∀ stamp stack, Akin c stamp stamp { w with stack } { w' with stack }
  watchers : w'.watchers = w.watchers
  silent : ∀ index, w.Silent index → w'.Silent index

variable {c : Disregard}

/-- A world **passes into itself**. -/
theorem Passes.refl (c : Disregard) (w : World) : Passes c w w :=
  ⟨fun _ _ => rfl, rfl, fun _ => id⟩

/-- Worlds pass into one another **one after the other**. -/
theorem Passes.trans {u : World} (h : Passes c w u) (k : Passes c u w') : Passes c w w' where
  akin stamp stack := (h.akin stamp stack).trans (k.akin stamp stack)
  watchers := k.watchers.trans h.watchers
  silent index quiet := k.silent index (h.silent index quiet)

/-- Where nothing new is to be done, the two are **akin**. -/
theorem Passes.akin_of_stack (h : Passes c w w') (stack : w'.stack = w.stack)
    (stamp : Timestamp → Timestamp) : Akin c stamp stamp w w' := by
  have same := h.akin stamp w'.stack
  rw [stack] at same
  have whole : { w' with stack := w.stack } = w' := by rw [← stack]
  exact same.trans (congrArg (World.under (c.guise stamp)) whole)

/-- It does not matter **what is to be done**. -/
theorem Passes.restack (h : Passes c w w') (stack stack' : List Frame) :
    Passes c { w with stack } { w' with stack := stack' } :=
  ⟨h.akin, h.watchers, h.silent⟩

/-- **Calling a callback that does nothing**: nothing is left of it but its record. -/
theorem Passes.runCallback (w : World) (c : Disregard) {index : Nat} (silent : w.Silent index)
    (entry : String → Entry) (dropped : ∀ label, (entry label).isSteady = false) :
    Passes c w (w.runCallback index entry) where
  akin stamp stack := by
    unfold World.runCallback
    cases found : w.callbacks[index]? with
    | none => rfl
    | some b =>
      have nothing : c.script b.script.call.2 = c.script b.script :=
        Disregard.script_of_onCall (silent b found)
      -- the callback goes on with a script that is as good as the one it had
      have same : (w.callbacks.modify index fun b' => { b' with script := b.script.call.2 }).map
            (·.under (c.guise stamp))
          = w.callbacks.map (·.under (c.guise stamp)) := by
        refine List.ext_getElem? fun place => ?_
        rw [List.getElem?_map, List.getElem?_map, List.getElem?_modify]
        by_cases here : index = place
        · subst here
          rw [found]
          show some (Callback.under _ (if index = index then _ else _)) = _
          rw [if_pos rfl]
          exact congrArg (fun script => some (Callback.mk b.label script)) nothing
        · simp [here]
      have recorded := under_record_of_not_steady c stamp { w with stack } (dropped b.label)
      refine Eq.trans ?_ (congrArg (fun callbacks => { World.under (c.guise stamp)
        (World.record { w with stack } (entry b.label)) with callbacks }) same.symm)
      rw [recorded]
      rfl
  watchers := (called_runCallback w index entry silent).2
  silent := (called_runCallback w index entry silent).1.silent

/-- Nothing comes of **an idle call**. -/
theorem Idle.passes {h : Hearing} (idle : w.Idle h) (c : Disregard) : Passes c w (w.hear h) := by
  cases idle with
  | event e silent => exact .runCallback w c silent (fun label => .event label e) fun _ => rfl
  | number key value silent =>
    exact .runCallback w c silent (fun label => .number label key value _) fun _ => rfl
  | text key value silent =>
    exact .runCallback w c silent (fun label => .text label key value _) fun _ => rfl
  | @other key entity value rule bounds differ =>
    rw [hear, hearNumber, if_neg (by simp [differ])]
    exact .refl c w

/-- Callbacks that do nothing as long as others do, **stay idle** with them. -/
theorem Idle.mono {h : Hearing} (idle : w.Idle h) (silent : ∀ index, w.Silent index → w'.Silent index) :
    w'.Idle h := by
  cases idle with
  | event e quiet => exact .event e (silent _ quiet)
  | number key value quiet => exact .number key value (silent _ quiet)
  | text key value quiet => exact .text key value (silent _ quiet)
  | other value rule bounds differ => exact .other value rule bounds differ

/-- **Nothing more is to be done** after an idle call. -/
theorem Idle.stack_hear {h : Hearing} (idle : w.Idle h) : (w.hear h).stack = w.stack := by
  have called {index : Nat} (silent : w.Silent index) (entry : String → Entry) :
      (w.runCallback index entry).stack = w.stack :=
    congrArg Ledger.stack (called_runCallback w index entry silent).1.ledger
  cases idle with
  | event e silent => exact called silent _
  | number key value silent => exact called silent _
  | text key value silent => exact called silent _
  | other value rule bounds differ => rw [hear, hearNumber, if_neg (by simp [differ])]

/-! ## 3. A round of calls of which nothing comes -/

/-- A stretch of a history is **uneventful** when no rule is proposed for firing in it, and no run comes
to its end. -/
structure Uneventful (exec : Executor) (w : World) (moves : List Move) : Prop where
  /-- No rule is proposed for firing. -/
  decisions : w.decisions exec moves = []
  /-- No run comes to its end. -/
  reports : w.reports exec moves = []

/-- **Nothing** is uneventful. -/
theorem Uneventful.nil (exec : Executor) (w : World) : Uneventful exec w [] :=
  ⟨rfl, rfl⟩

/-- A step is uneventful if it **proposes no rule and ends no run**. -/
theorem Uneventful.step {moves : List Move} (firing : w.firing? = none) (ending : w.ending? = none)
    (later : Uneventful exec (w.step exec) moves) : Uneventful exec w (.step :: moves) where
  decisions := by
    rw [World.decisions, World.shown, decision?, firing]
    exact later.decisions
  reports := by
    rw [World.reports, World.shown, report?, ending]
    exact later.reports

/-- What comes from outside is **uneventful**. -/
theorem Uneventful.receive {s : Stimulus} {moves : List Move}
    (later : Uneventful exec (w.receive s) moves) : Uneventful exec w (.receive s :: moves) :=
  ⟨later.decisions, later.reports⟩

/-- What is uneventful **twice over** is so as a whole. -/
theorem Uneventful.append {past future : List Move} (h : Uneventful exec w past)
    (k : Uneventful exec (w.after exec past) future) : Uneventful exec w (past ++ future) where
  decisions := by
    rw [World.decisions, shown_append]
    exact List.append_eq_nil_iff.mpr ⟨h.decisions, k.decisions⟩
  reports := by
    rw [World.reports, shown_append]
    exact List.append_eq_nil_iff.mpr ⟨h.reports, k.reports⟩

/-- An idle call proposes **no rule for firing**. -/
theorem firing?_of_idle {frame : Frame} {base : List Frame} (stack : w.stack = frame :: base)
    (round : frame.isRound = true) (idle : ∀ h ∈ frame.hearings, w.Idle h) : w.firing? = none := by
  rw [firing?, stack, List.head?_cons, Option.bind_some]
  cases frame with
  | deliver e handlers =>
    cases handlers with
    | nil => rfl
    | cons handler rest =>
      cases idle _ List.mem_cons_self
      rfl
  | tellNumber key value listeners =>
    cases listeners with
    | nil => rfl
    | cons listener rest =>
      cases idle _ List.mem_cons_self with
      | number => rfl
      | other _ rule bounds differ =>
        rw [proposed?, NumberListener.rule?, if_neg (by simp [differ])]
  | tellText => rfl
  | perform | respond | record | lines | execute | serve | resume | drain | advanceTo | leap =>
    cases round

/-- A round **ends no run**. -/
theorem ending?_of_isRound {frame : Frame} {base : List Frame} (stack : w.stack = frame :: base)
    (round : frame.isRound = true) : w.ending? = none := by
  rw [ending?, stack]
  cases frame <;> first | rfl | cases round

/-- **A round of idle calls**: they are made one after another, nothing comes of them, and what lies
below is done next. -/
theorem Passes.round (c : Disregard) (exec : Executor) {frame : Frame} {base : List Frame}
    (stack : w.stack = frame :: base) (round : frame.isRound = true)
    (idle : ∀ h ∈ frame.hearings, w.Idle h) :
    Passes c w (w.after exec (turns frame.hearings))
      ∧ (w.after exec (turns frame.hearings)).stack = base
      ∧ Uneventful exec w (turns frame.hearings) := by
  have firing := firing?_of_idle stack round idle
  have ending := ending?_of_isRound stack round
  generalize calls : frame.hearings = left at idle ⊢
  -- by induction on the calls that are left; those that are idle now are idle after each of them
  induction left generalizing w frame with
  | nil =>
    have closed : w.after exec (turns ([] : List Hearing)) = { w with stack := base } :=
      step_of_no_hearings exec stack round calls
    rw [closed]
    exact ⟨⟨fun _ _ => rfl, rfl, fun _ => id⟩, rfl, .step firing ending (.nil exec _)⟩
  | cons h left ih =>
    obtain ⟨frame', round', calls', called⟩ := step_of_hearings exec stack calls
    let below : World := { w with stack := frame' :: base }
    have first : below.Idle h := (idle h List.mem_cons_self).mono fun _ => id
    have passes : Passes c w (w.step exec) := by
      rw [called]
      exact (first.passes c).restack w.stack (below.hear h).stack
    have stack' : (w.step exec).stack = frame' :: base := by
      rw [called]
      exact first.stack_hear
    have idle' : ∀ h ∈ frame'.hearings, (w.step exec).Idle h := fun h member =>
      (idle h (List.mem_cons_of_mem _ (calls' ▸ member))).mono passes.silent
    obtain ⟨later, closed, uneventful⟩ := ih stack' round' (firing?_of_idle stack' round' idle')
      (ending?_of_isRound stack' round') calls' (calls' ▸ idle')
    exact ⟨passes.trans later, closed, .step firing ending uneventful⟩

/-! ## 4. Interludes -/

/-- An operation that gives a notice, and **all that follows** when nothing comes of it: everyone is told
who hears of it, and the operation is answered. -/
def interlude (w : World) (op : Operation) (n : Notice) : List Move :=
  Move.played (.operation op) ((n.calls w.bus w.store).length + 3)

/-- **A value written** does not show where it is disregarded. -/
theorem Passes.tell (w : World) (n : Notice) : Passes (.ofNotice n) w (w.tell n) where
  akin stamp stack := by
    cases n with
    | event e => rfl
    | number key value =>
      exact (under_setNumber_of_disregarded stamp { w with stack } (decide_eq_true rfl) value).symm
    | text key value =>
      exact (under_setText_of_disregarded stamp { w with stack } (decide_eq_true rfl) value).symm
  watchers := by cases n <;> rfl
  silent index quiet := by cases n <;> exact quiet

/-- An operation that gives a notice proposes **no rule for firing**. -/
theorem firing?_of_notice {op : Operation} {rest : List Frame} (stack : w.stack = .perform op :: rest)
    (tells : w.notice? = some n) : w.firing? = none := by
  rw [notice?, stack] at tells
  rw [firing?, stack]
  cases op <;> first | rfl | cases tells

/-- Setting the answer is done **in one step**. -/
theorem step_respond (exec : Executor) {answer : Answer} {base : List Frame}
    (stack : w.stack = .respond answer :: base) :
    w.step exec = { w with stack := base, answer } := by
  rw [step, stack]
  rfl

/-- **Nothing comes of an interlude** that is foreign to the rules, if nobody else reacts: what was to be
done before is to be done next, in a world that is akin. -/
theorem Equipped.passes_interlude (h : Equipped w) (exec : Executor) {op : Operation}
    (tells : (w.receive (.operation op)).notice? = some n) (foreign : w.Foreign n)
    (indifferent : w.Indifferent n) :
    Passes (.ofNotice n) w (w.after exec (w.interlude op n))
      ∧ (w.after exec (w.interlude op n)).stack = w.stack
      ∧ Uneventful exec w (w.interlude op n) := by
  obtain ⟨answer, taken⟩ := step_perform_eq_tell exec rfl tells
  let waiting : World := { w with stack := .respond answer :: w.stack }
  have given : (w.receive (.operation op)).step exec = waiting.tell n := taken
  obtain ⟨frame, begun, round, calls⟩ := exists_stack_tell waiting n
  have moves : w.interlude op n
      = .receive (.operation op) :: .step :: (turns frame.hearings ++ [.step]) := by
    rw [interlude, calls, turns, ← List.replicate_succ']
    rfl
  have written : Passes (.ofNotice n) w (waiting.tell n) :=
    (Passes.tell waiting n).restack w.stack (waiting.tell n).stack
  have idle : ∀ call ∈ frame.hearings, (waiting.tell n).Idle call := fun call member =>
    (h.idle_of_foreign foreign indifferent call (calls ▸ member)).mono written.silent
  -- the value is written, then all calls are made, and the answer is set last
  obtain ⟨passes, stack, uneventful⟩ := Passes.round (.ofNotice n) exec begun round idle
  have after : w.after exec (w.interlude op n)
      = { (waiting.tell n).after exec (turns frame.hearings) with stack := w.stack, answer } := by
    rw [moves, after_cons, after_cons, after_append, move, move, given]
    exact step_respond exec stack
  have last (v : World) : Passes (.ofNotice n) v { v with stack := w.stack, answer } :=
    ⟨fun _ _ => rfl, rfl, fun _ => id⟩
  rw [after]
  refine ⟨(written.trans passes).trans (last _), rfl, ?_⟩
  rw [moves]
  refine .receive (.step (firing?_of_notice rfl tells) rfl ?_)
  rw [given]
  refine uneventful.append (.step ?_ ?_ (.nil exec _))
  · rw [firing?, stack]
    rfl
  · rw [ending?, stack]

/-- A stretch of a history that **shows nothing** may be left out of it. -/
theorem shown_leaving_out {α : Type} {view : World → Option α} {past stretch future : List Move}
    (nothing : World.shown exec view (w.after exec past) stretch = [])
    (same : World.shown exec view (w.after exec past) future
      = World.shown exec view ((w.after exec past).after exec stretch) future) :
    World.shown exec view w (past ++ future)
      = World.shown exec view w (past ++ (stretch ++ future)) := by
  rw [shown_append, shown_append, shown_append, nothing, List.nil_append, same]

/-- **Leaving an uneventful stretch out** of a history changes nothing for the rules, if all goes on in the
same way after it. -/
theorem SameForRules.of_uneventful {past stretch future : List Move}
    (uneventful : Uneventful exec (w.after exec past) stretch)
    (same : SameForRules exec (w.after exec past) future exec ((w.after exec past).after exec stretch)
      future) :
    SameForRules exec w (past ++ future) exec w (past ++ (stretch ++ future)) where
  calls := by
    rw [after_append, after_append, after_append]
    exact same.calls
  decisions := shown_leaving_out uneventful.decisions same.decisions
  reports := shown_leaving_out uneventful.reports same.reports
  slots := by
    rw [after_append, after_append, after_append]
    exact same.slots
  log := by
    rw [after_append, after_append, after_append]
    exact same.log

/-- The rules are **blind to a notice** when no condition of a registered one reads what it writes. -/
def BlindTo (w : World) (n : Notice) : Prop :=
  ∀ entry ∈ w.registered, ∀ cond ∈ entry.2.conditions, ∀ source, cond.reads = some source →
    n.source? ≠ some source

/-- Rules that are blind to a notice **do not read** what it writes. -/
theorem BlindTo.unread (h : w.BlindTo n) : (Disregard.ofNotice n).Unread w := by
  intro r member live cond listed source reads
  obtain ⟨index, found⟩ := List.mem_iff_getElem?.mp member
  have registered : (index, r.rule) ∈ w.registered := mem_registered.mpr ⟨r, found, live, rfl⟩
  exact decide_eq_false (h _ registered cond listed source reads)

/-- An interlude that is foreign to the rules and that they are blind to from then on **may be left
out**. -/
theorem Equipped.sameForRules_interlude {past future : List Move} (h : Equipped (w.after exec past))
    {op : Operation} (tells : ((w.after exec past).receive (.operation op)).notice? = some n)
    (foreign : (w.after exec past).Foreign n) (indifferent : (w.after exec past).Indifferent n)
    (blind : ∀ soon late, future = soon ++ late → (w.after exec (past ++ soon)).BlindTo n) :
    SameForRules exec w (past ++ future) exec w
      (past ++ ((w.after exec past).interlude op n ++ future)) := by
  obtain ⟨passes, stack, uneventful⟩ := h.passes_interlude exec tells foreign indifferent
  have akin := passes.akin_of_stack stack id
  have unread (soon late : List Move) (split : future = soon ++ late) :
      (Disregard.ofNotice n).Unread ((w.after exec past).after exec soon) := by
    have read := blind soon late split
    rw [after_append] at read
    exact read.unread
  have inStep : InStep id id := by
    rintro start start' stop stop' rfl rfl ms
    rfl
  exact .of_uneventful uneventful ((akin.lockstep rfl inStep future unread).sameForRules inStep)

/-! ## 5. Attempts that other events do not break -/

/-- A watcher that is there for a rule is called with **the names of its pattern only**. -/
theorem Equipped.mem_sequence (h : Equipped w) {name : String} {place : Nat} {x : Watcher}
    (member : .watcher place ∈ w.bus.handlers name) (found : w.watchers[place]? = some x)
    (aimed : x.target.rule?.isSome = true) : name ∈ x.matcher.sequence := by
  obtain ⟨index, rule⟩ := Option.isSome_iff_exists.mp aimed
  have served : w.servedBy? (.event ⟨name, .first, .null⟩ (.watcher place))
      = some (index, .pattern x.matcher.sequence x.matcher.withinMs) := by
    rw [servedBy?, serves?, found, Option.bind_some, rule]
    rfl
  obtain ⟨-, -, -, hears⟩ := h.hears_of_servedBy? (e := ⟨name, .first, .null⟩) member served
  exact of_decide_eq_true hears

/-- Calls that do not show the event to a watcher leave **its attempt as it is**. -/
theorem Amid.keeps_attempt {s : Signal} {u : World} {left : List s.Callee} (h : Amid w s u left)
    (exec : Executor) {place : Nat} (apart : ∀ c ∈ left, ¬ s.Shows c place) :
    (u.after exec (turns left)).watchers[place]? = u.watchers[place]? := by
  induction left generalizing u with
  | nil =>
    have last : u.after exec (turns ([] : List s.Callee)) = { u with stack := w.stack } :=
      step_frame_nil h.stack
    rw [last]
  | cons c left ih =>
    have rest := ih (h.step exec).1 fun c' member => apart c' (List.mem_cons_of_mem c member)
    refine rest.trans ?_
    let below : World := { u with stack := w.stack }.push [s.frame left]
    have same : below.reaches? s c = u.reaches? s c := reaches?_congr fun _ _ => rfl
    have quiet (index : Nat) (target : below.reaches? s c = some (.callback index)) : below.Silent index :=
      h.silent c List.mem_cons_self index ((h.reaches c List.mem_cons_self).symm.trans (same ▸ target))
    rw [step_frame_cons h.stack]
    exact (called_call below s c quiet).2 place (apart c List.mem_cons_self)

/-- What is said of **a history at some moment**, with what was before it and what is to come. -/
structure OnlyRelevantMatters (exec : Executor) (clock : Timestamp) (past future : List Move)
    (w : World) : Prop where
  /-- All events may come with other payloads, and shifted by one and the same time. -/
  shifted : ∀ (exec' : Executor) (clock' : Timestamp) (moves : List Move) (d : Int),
    (past ++ future).map Move.plain = moves.map Move.plain →
    (∀ calls service data, (exec calls service data).plain = (exec' calls service data).plain) →
    List.Forall₂ (Event.Shifted d) ((empty clock).emissions exec (past ++ future))
      ((empty clock').emissions exec' moves) →
    SameForRules exec (empty clock) (past ++ future) exec' (empty clock') moves
  /-- Something may be emitted or written in between that concerns no trigger, to which nobody reacts
  and to which the rules are blind from then on; it leaves all attempts as they are. -/
  interlude : ∀ (op : Operation) (n : Notice), (w.receive (.operation op)).notice? = some n →
    w.Foreign n → w.Indifferent n →
    (∀ soon late, future = soon ++ late → ((empty clock).after exec (past ++ soon)).BlindTo n) →
    SameForRules exec (empty clock) (past ++ future)
        exec (empty clock) (past ++ (w.interlude op n ++ future))
      ∧ (w.after exec (w.interlude op n)).watchers = w.watchers
  /-- An event whose name is none of a pattern leaves the attempt of its watcher as it is, whoever else is
  called, although the matcher would start over if it were shown the event. -/
  attempt : ∀ (e : Event) (place : Nat) (x : Watcher), w.watchers[place]? = some x →
    x.target.rule?.isSome = true → x.matcher.sequence ≠ [] → e.name ∉ x.matcher.sequence →
    (∀ c ∈ w.callees (.event e), ∀ index, w.reaches? (.event e) c = some (.callback index) →
      w.Silent index) →
    ((w.send (.event e)).after exec (turns (w.callees (.event e)))).watchers[place]? = some x
      ∧ (x.matcher.observe e.name e.timestamp).1 = .reset
      ∧ (x.matcher.observe e.name e.timestamp).2.index = 0

end World

open World

/-- **Only names, stored values that are read, and distances in time matter.** At any moment of any
history an emission or a write may come in between that concerns no registered rule, and all events may be
shifted in time and carry other payloads: the same services are called at the same moments with the same
data, the same firings are decided in the same way, the same summaries are left, and the slots are the
same. An event that is not in a pattern never breaks an attempt. -/
theorem only_names_and_distances_matter (exec : Executor) (clock : Timestamp) (past future : List Move) :
    OnlyRelevantMatters exec clock past future ((World.empty clock).after exec past) := by
  have accounts := (accounts_empty clock).after exec past
  have once := (once_empty clock).after exec past
  have equipped := accounts.equipped ((listed_empty clock).after exec past)
  refine ⟨?shifted, ?interlude, ?attempt⟩
  case shifted =>
    intro exec' clock' moves d same replies shifted
    exact sameForRules_of_shifted clock clock' same replies shifted
  case interlude =>
    intro op n tells foreign indifferent blind
    exact ⟨equipped.sameForRules_interlude tells foreign indifferent blind,
      (equipped.passes_interlude exec tells foreign indifferent).1.watchers⟩
  case attempt =>
    intro e place x found aimed nonempty absent silent
    have amid := once.amid accounts silent
    have apart : ∀ c ∈ ((World.empty clock).after exec past).callees (.event e),
        ¬ Signal.Shows (.event e) c place := by
      rintro c member rfl
      exact absent (equipped.mem_sequence member found aimed)
    have reset := Matcher.observe_of_other nonempty (fun awaited => absent (List.mem_of_getElem? awaited))
      (fun first => absent (List.mem_of_head? first)) e.timestamp
    rw [reset]
    exact ⟨(amid.keeps_attempt exec apart).trans found, rfl, rfl⟩

/-- A rule that waits **for a pattern**, and looks at a text and at a number. -/
def doorbell : Rule :=
  { id := "doorbell", triggers := [.pattern ["open", "close"] 1000, .threshold "lux" {}]
    conditions := [.stateEquals "mode" ""], actions := [.serviceCall "chime" .null] }

/-- A moment at noon. -/
def noon : Timestamp :=
  ⟨43200, 0, by decide, by decide, Timestamp.first.nanos_lt⟩

/-- A moment 900 milliseconds **later**. -/
def afterNoon : Timestamp :=
  ⟨43200, 900000000, by decide, by decide, by decide⟩

/-- The same, **one hour later**. -/
def oneHour : Timestamp :=
  ⟨46800, 0, by decide, by decide, Timestamp.first.nanos_lt⟩

/-- A moment 900 milliseconds after that. -/
def afterOneHour : Timestamp :=
  ⟨46800, 900000000, by decide, by decide, by decide⟩

/-- A callback that does nothing, the rule, and **a door opened** at some moment. -/
def opening (time : Timestamp) (data : Json) : List Move :=
  Move.played (.operation (.subscribe "log" "ring" ⟨[], 0⟩)) 1
    ++ Move.played (.operation (.register (some doorbell))) 1
    ++ Move.played (.operation (.emit "open" (some time) data)) 4

/-- **The door closed** at some moment, and what follows. -/
def closing (time : Timestamp) (data : Json) : List Move :=
  Move.played (.operation (.emit "close" (some time) data)) 4 ++ Move.played (.advance 0) 3

/-- The chime is heard once whether somebody rings in between or not, and an hour later just so. -/
theorem only_names_and_distances_matter_doorbell :
    let past := opening noon .null
    let future := closing afterNoon .null
    let w := (World.empty .first).after noEffects past
    let ring : Event := ⟨"ring", noon, .null⟩
    let rung := w.interlude (.emit "ring" (some noon) .null) (.event ring)
    SameForRules noEffects (.empty .first) (past ++ future) noEffects (.empty .last)
        (opening oneHour (.bool true) ++ closing afterOneHour (.bool false))
      ∧ SameForRules noEffects (.empty .first) (past ++ future) noEffects (.empty .first)
        (past ++ (rung ++ future))
      ∧ (w.after noEffects rung).watchers = w.watchers
      ∧ SameForRules noEffects (.empty .first) (past ++ future) noEffects (.empty .first)
        (past ++ (w.interlude (.setText "song" "carol") (.text "song" "carol") ++ future))
      ∧ ((w.send (.event ring)).after noEffects (turns (w.callees (.event ring)))).watchers[0]?.map
          (·.matcher.index) = some 1
      ∧ ((World.empty .first).after noEffects (past ++ future)).serviceCalls = [(0, "chime", .null)] := by
  intro past future w ring rung
  obtain ⟨shifted, interlude, attempt⟩ :=
    only_names_and_distances_matter noEffects .first past future
  have registered : w.registered = [(0, doorbell)] := rfl
  have callbacks : w.callbacks = [⟨"log", ⟨[], 0⟩⟩] := rfl
  have handlers : w.bus.handlers "ring" = [.target (.callback 0)] := rfl
  have silent (index : Nat) : w.Silent index := by
    intro c there
    rw [callbacks] at there
    obtain rfl := List.mem_singleton.mp (List.mem_of_getElem? there)
    rfl
  have before : (World.empty .first).emissions noEffects (past ++ future)
      = [⟨"open", noon, .null⟩, ⟨"close", afterNoon, .null⟩] := rfl
  -- the second history is an hour later, and the door opens with another payload
  have later : (World.empty .last).emissions noEffects
        (opening oneHour (.bool true) ++ closing afterOneHour (.bool false))
      = [⟨"open", oneHour, .bool true⟩, ⟨"close", afterOneHour, .bool false⟩] := rfl
  have first : SameForRules noEffects (.empty .first) (past ++ future) noEffects (.empty .last)
      (opening oneHour (.bool true) ++ closing afterOneHour (.bool false)) := by
    refine shifted noEffects .last _ (3600 * nanosPerSecond) rfl (fun _ _ _ => rfl) ?_
    rw [before, later]
    exact .cons ⟨rfl, rfl, rfl, rfl⟩ (.cons ⟨rfl, rfl, rfl, rfl⟩ .nil)
  obtain ⟨second, kept⟩ : SameForRules noEffects (.empty .first) (past ++ future) noEffects (.empty .first)
      (past ++ (rung ++ future)) ∧ (w.after noEffects rung).watchers = w.watchers := by
    refine interlude (.emit "ring" (some noon) .null) (.event ring) rfl ?_ ?_ ?_
    · intro entry member t listed
      rw [registered, List.mem_singleton] at member
      subst member
      fin_cases listed <;> rfl
    -- only the callback listens to the bell, and it does nothing
    · intro call member _
      obtain ⟨handler, there, rfl⟩ := List.mem_map.mp member
      obtain rfl := List.mem_singleton.mp (handlers ▸ there)
      exact ⟨0, rfl, silent 0⟩
    · intro soon late _ entry _ cond _ source _ writes
      cases writes
  have awaiting : w.watchers = [⟨⟨["open", "close"], 1000, 1, some noon⟩, .rule 0,
      [("open", 1), ("close", 2)], false⟩] := rfl
  obtain ⟨again, -, -⟩ := attempt ring 0 _ (congrArg (·[0]?) awaiting) rfl (by decide) (by decide)
    fun _ _ index _ => silent index
  -- whatever part of the future has passed, the doorbell is the only rule
  have always (k : Nat) (within : k ≤ 9) :
      ((World.empty .first).after noEffects (past ++ future.take k)).registered = [(0, doorbell)] := by
    interval_cases k <;> rfl
  have third : SameForRules noEffects (.empty .first) (past ++ future) noEffects (.empty .first)
      (past ++ (w.interlude (.setText "song" "carol") (.text "song" "carol") ++ future)) := by
    refine (interlude _ (.text "song" "carol") rfl ?_ ?_ ?_).1
    · exact fun _ _ _ _ => rfl
    · intro call member
      cases member
    -- the rule reads no text, so the song may be set in between
    · intro soon late split entry member cond listed source reads writes
      have length : soon.length ≤ 9 := by
        have whole : 9 = (soon ++ late).length := congrArg List.length split
        rw [List.length_append] at whole
        omega
      have taken : soon = future.take soon.length := by rw [split, List.take_left]
      rw [taken, always _ length, List.mem_singleton] at member
      subst member
      fin_cases listed
      cases reads
      exact absurd (Source.text.inj (Option.some.inj writes)) (by decide)
  refine ⟨first, second, kept, third, ?_, rfl⟩
  rw [again]
  rfl

end RuleDispatch
