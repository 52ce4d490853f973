import RuleDispatch.Proofs.Ledger

/-! # What is done between strides

Everything that is done for an operation, an event, a write or a tick comes down to a few kinds of
chores on the ledger, or to one rule proposed for firing. The strides of runs, their service calls
and the moves of the clock are apart from this.

* `Frame.isPlain` — the frames that are neither a turn of a task nor a move of the clock.
* `World.proposed?` — the rule that doing a frame proposes for firing.
* `World.Chore`, `World.Chores` — one thing done to the ledger, several in a row.
* `World.Acts` — chores, or one rule proposed for firing.
* `World.acts_plain` — what is done for a plain frame. -/

namespace RuleDispatch

/-- Whether a frame is **neither a turn of a task nor a move of the clock**. -/
def Frame.isPlain : Frame → Bool
  | .perform _ | .respond _ | .record | .deliver _ _ | .tellNumber _ _ _ | .tellText _ _ _
  | .lines _ _ => true
  | .execute _ | .serve _ _ | .resume _ | .drain | .advanceTo _ | .leap _ => false

/-- The rule that a target stands for. -/
def Target.rule? : Target → Option Nat
  | .rule index => some index
  | .callback _ => none

/-- The rule that a listener fires when it is **told of a number**. -/
def NumberListener.rule? (key : String) (value : Float) : NumberListener → Option Nat
  | .callback _ => none
  | .threshold rule entity bounds =>
    if key = entity && bounds.contains value then some rule else none

/-- The rule that a watcher fires **after an outcome**. -/
def Watcher.rule? (watcher : Watcher) : Outcome → Option Nat
  | .completed => if watcher.disposed then none else watcher.target.rule?
  | _ => none

namespace World

/-- The rule that a handler fires when it is **called with an event**. -/
def handlerRule? (w : World) (event : Event) : Handler → Option Nat
  | .target target => target.rule?
  | .watcher index =>
    (w.watchers[index]?).bind fun watcher =>
      watcher.rule? (watcher.matcher.observe event.name event.timestamp).1

/-- It does not matter what else is to be done. -/
theorem handlerRule?_push (w : World) (frames : List Frame) (event : Event) (handler : Handler) :
    (w.push frames).handlerRule? event handler = w.handlerRule? event handler := by
  cases handler <;> rfl

/-- The rule that a timer fires when it is **given its turn**. -/
def timerRule? (w : World) (index : Nat) : Option Nat :=
  (w.timers[index]?).bind fun t =>
    if !t.active || w.now < t.deadline then none else t.target.rule?

/-- The rule that doing a frame **proposes for firing**, by its place. -/
def proposed? (w : World) : Frame → Option Nat
  | .perform (.trigger id) => w.ruleIndex? id
  | .deliver event (handler :: _) => w.handlerRule? event handler
  | .tellNumber key value (listener :: _) => listener.rule? key value
  | .resume (.timer index) => w.timerRule? index
  | _ => none

/-! ## 1. Chores -/

/-- One thing **done to the ledger**, the start of a run of a rule apart. -/
inductive Chore : World → World → Prop where
  /-- At most there is more to be done. -/
  | quiet {w w' : World} (frames : List Frame) (plain : ∀ f ∈ frames, f.isPlain = true)
      (same : w'.ledger = { w.ledger with stack := frames ++ w.ledger.stack }) : Chore w w'
  /-- A run outside any rule is started. -/
  | spawn (w : World) (label : String) (actions : List Action) (cancelled : Bool) :
      Chore w (w.spawn (.label label) actions cancelled)
  /-- A run outside any rule is cancelled. -/
  | cancel {w : World} {id : Nat}
      (outside : ∃ r ∈ w.runs, r.id = id ∧ ∃ label, r.owner = .label label) : Chore w (w.cancelRun id)
  /-- A rule is taken out. -/
  | unregister (w : World) (id : String) : Chore w (w.unregister id)
  /-- A rule is put in under an id that is free. -/
  | enrol {w : World} {rule : Rule} (enabled : rule.enabled = true)
      (free : w.ruleIndex? rule.id = none) (there : w.engine.isSome = true) : Chore w (w.enrol rule)
  /-- All rules are taken out. -/
  | disposeAll (w : World) : Chore w w.disposeAll
  /-- The engine is dropped. -/
  | dropEngine (w : World) : Chore w w.dropEngine

/-- **Several chores** in a row. -/
abbrev Chores : World → World → Prop :=
  Relation.ReflTransGen Chore

/-- What leaves the ledger alone but for more to be done is a chore. -/
theorem Chores.quiet {w w' : World} (frames : List Frame) (plain : ∀ f ∈ frames, f.isPlain = true)
    (same : w'.ledger = { w.ledger with stack := frames ++ w.ledger.stack }) : Chores w w' :=
  .single (.quiet frames plain same)

/-- What leaves the ledger alone is a chore. -/
theorem Chores.of_ledger_eq {w w' : World} (same : w'.ledger = w.ledger) : Chores w w' :=
  .quiet [] (by simp) (by simpa using same)

/-- More plain things to be done are a chore. -/
theorem chores_push (w : World) {frames : List Frame} (plain : ∀ f ∈ frames, f.isPlain = true) :
    Chores w (w.push frames) :=
  .quiet frames plain (ledger_push w frames)

/-- **Chores, or one rule proposed for firing**, the last argument being its place. -/
inductive Acts (w w' : World) : Option Nat → Prop where
  | chores (done : Chores w w') : Acts w w' none
  /-- At most there is more to be done first, and an answer afterwards. -/
  | fires {u : World} {index : Nat} (frames : List Frame)
      (plain : ∀ f ∈ frames, f.isPlain = true)
      (same : u.ledger = { w.ledger with stack := frames ++ w.ledger.stack })
      (registrations : u.registrations = w.registrations) (store : u.store = w.store)
      (done : w'.ledger = (u.fire index).ledger) : Acts w w' (some index)

/-- What is quiet may come before a rule is proposed for firing. -/
theorem Acts.of_quiet {w u w' : World} {firing : Option Nat} (frames : List Frame)
    (plain : ∀ f ∈ frames, f.isPlain = true)
    (same : u.ledger = { w.ledger with stack := frames ++ w.ledger.stack })
    (registrations : u.registrations = w.registrations) (store : u.store = w.store)
    (h : Acts u w' firing) : Acts w w' firing := by
  cases h with
  | chores done => exact .chores ((Chores.quiet frames plain same).trans done)
  | fires more plain' same' registrations' store' done =>
    refine .fires (more ++ frames) ?_ ?_ (registrations'.trans registrations)
      (store'.trans store) done
    · intro f member
      exact (List.mem_append.mp member).elim (plain' f) (plain f)
    · rw [same', same, List.append_assoc]

/-! ## 2. Calls -/

/-- **Firing a rule** is one rule proposed. -/
theorem acts_fire (w : World) (index : Nat) : Acts w (w.fire index) (some index) :=
  .fires [] (by simp) rfl rfl rfl rfl

/-- The frames of a script are **plain**. -/
theorem isPlain_scriptFrames (ops : List Operation) : ∀ f ∈ scriptFrames ops, f.isPlain = true := by
  simp only [scriptFrames, List.mem_flatMap, List.mem_cons, List.not_mem_nil, or_false]
  rintro f ⟨op, -, rfl | rfl⟩ <;> rfl

/-- **A callback that is called** does chores. -/
theorem chores_runCallback (w : World) (index : Nat) (entry : String → Entry) :
    Chores w (w.runCallback index entry) := by
  unfold runCallback
  split
  · exact .refl
  · exact .quiet _ (isPlain_scriptFrames _) rfl

/-- **A call of a target** proposes the rule that the target is, if it is one. -/
theorem acts_callTarget (w : World) (entry : String → Entry) (target : Target) :
    Acts w (w.callTarget entry target) target.rule? := by
  cases target with
  | callback index => exact .chores (chores_runCallback w index entry)
  | rule index => exact acts_fire w index

/-- **What comes of an observation** proposes the rule of the watcher if the pattern is complete. -/
theorem acts_settleWatcher (w : World) (watcher : Watcher) (name : String) (outcome : Outcome) :
    Acts w (w.settleWatcher watcher name outcome) (watcher.rule? outcome) := by
  cases outcome with
  | completed =>
    unfold settleWatcher Watcher.rule?
    dsimp only
    split_ifs
    · exact .chores .refl
    · exact acts_callTarget w _ _
  | expired => exact .chores (.of_ledger_eq (ledger_note w _))
  | advanced | restarted | reset | ignored => exact .chores .refl

/-- **A call of a handler** proposes the rule that the event reaches through it. -/
theorem acts_handle (w : World) (event : Event) (handler : Handler) :
    Acts w (w.handle event handler) (w.handlerRule? event handler) := by
  cases handler with
  | target target => exact acts_callTarget w _ target
  | watcher index =>
    simp only [handle, observe, handlerRule?]
    cases w.watchers[index]? with
    | none => exact .chores .refl
    | some watcher =>
      let shown : World := { w with watchers := w.watchers.modify index fun x =>
        { x with matcher := (watcher.matcher.observe event.name event.timestamp).2 } }
      exact .of_quiet (u := shown) [] (by simp) rfl rfl rfl
        (acts_settleWatcher shown watcher event.name _)

/-- **A call of a listener to texts** does chores. -/
theorem chores_hearText (w : World) (key value : String) (index : Nat) :
    Chores w (w.hearText key value index) :=
  chores_runCallback w index fun label => .text label key value (w.store.text? key)

/-- **A call of a listener to numbers** proposes the rule whose threshold is met. -/
theorem acts_hearNumber (w : World) (key : String) (value : Float) (listener : NumberListener) :
    Acts w (w.hearNumber key value listener) (listener.rule? key value) := by
  cases listener with
  | callback index => exact .chores (chores_runCallback w index fun label =>
      .number label key value (w.store.number? key))
  | threshold rule entity bounds =>
    unfold hearNumber NumberListener.rule?
    dsimp only
    split_ifs
    · exact acts_fire w rule
    · exact .chores .refl

/-! ## 3. Emissions, writes and the console -/

/-- **Emitting an event** is a chore: its handlers are called later. -/
theorem chores_emit (w : World) (event : Event) : Chores w (w.emit event) :=
  chores_push w (by simp [Frame.isPlain])

/-- **Writing a number** is a chore: its listeners are called later. -/
theorem chores_writeNumber (w : World) (key : String) (value : Float) :
    Chores w (w.writeNumber key value) :=
  .quiet [.tellNumber key value w.store.hearNumbers] (by simp [Frame.isPlain]) rfl

/-- **Writing a text** is a chore: its listeners are called later. -/
theorem chores_writeText (w : World) (key value : String) : Chores w (w.writeText key value) :=
  .quiet [.tellText key value w.store.hearTexts] (by simp [Frame.isPlain]) rfl

/-- **A command of the console** is a chore. -/
theorem chores_applyCommand (w : World) {frames : List Frame}
    (plain : ∀ f ∈ frames, f.isPlain = true) (command : Command) :
    Chores w (w.applyCommand frames command) := by
  have first : Chores w (w.push frames) := chores_push w plain
  cases command with
  | emit name data => exact first.trans (chores_emit _ _)
  | setNumber key value => exact first.trans (chores_writeNumber _ key value)
  | setText key value => exact first.trans (chores_writeText _ key value)
  | get key => exact first

/-- **A line of the console** is a chore. -/
theorem chores_readLine (w : World) (line : String) : Chores w (w.readLine line) := by
  unfold readLine
  split
  · exact chores_applyCommand w (by simp [Frame.isPlain]) _
  · exact .of_ledger_eq (ledger_respond w _)

/-- **Lines of the console** are chores. -/
theorem chores_readLines (w : World) (shown : List String) (lines : List (Option String)) :
    Chores w (w.readLines shown lines) := by
  unfold readLines
  split
  · exact .of_ledger_eq rfl
  · exact .of_ledger_eq (ledger_respond w _)
  · split
    · exact chores_applyCommand w (by simp [Frame.isPlain]) _
    · exact chores_push w (by simp [Frame.isPlain])
    · exact (Chores.of_ledger_eq (ledger_note w _)).trans (chores_push _ (by simp [Frame.isPlain]))

/-! ## 4. Rules put in -/

/-- Taking a rule out leaves its id free. -/
theorem ruleIndex?_unregister (w : World) (id : String) :
    (w.unregister id).ruleIndex? id = none := by
  have engine : (w.unregister id).engine = (w.unregister id).ledger.engine := rfl
  unfold ruleIndex?
  rw [engine, ledger_unregister]
  split
  · next free => exact free
  · show (w.engine.map (Keyed.remove id)).bind _ = none
    cases w.engine with
    | none => rfl
    | some rules => simp [Keyed.lookup_remove]

/-- What is registered is registered with an engine. -/
theorem isSome_engine_of_ruleIndex? {w : World} {id : String} {index : Nat}
    (h : w.ruleIndex? id = some index) : w.engine.isSome = true := by
  cases engine : w.engine with
  | none => simp [ruleIndex?, engine] at h
  | some rules => rfl

/-- Taking a rule out leaves the engine there. -/
theorem isSome_engine_unregister (w : World) (id : String) :
    (w.unregister id).engine.isSome = w.engine.isSome := by
  show (w.unregister id).ledger.engine.isSome = w.engine.isSome
  rw [ledger_unregister]
  split
  · rfl
  · exact Option.isSome_map

/-- **Registering a rule** takes out the one with its id, notes what it does, and puts the rule in if
it is enabled. -/
theorem exists_register (w : World) (rule : Rule) :
    ∃ noted : World, noted.ledger = (w.unregister rule.id).ledger
      ∧ w.register rule = if rule.enabled then noted.enrol rule else noted.note .ruleDisabled := by
  refine ⟨if (w.ruleIndex? rule.id).isSome then (w.unregister rule.id).note .ruleReplaced
    else w.unregister rule.id, ?_, rfl⟩
  split_ifs <;> rfl

/-- **Registering a rule** is a chore while there is an engine. -/
theorem chores_register (w : World) (rule : Rule) (there : w.engine.isSome = true) :
    Chores w (w.register rule) := by
  obtain ⟨noted, same, registered⟩ := exists_register w rule
  have engine : noted.engine = (w.unregister rule.id).engine := congrArg Ledger.engine same
  have first : Chores w noted :=
    Relation.ReflTransGen.trans (.single (.unregister w rule.id)) (Chores.of_ledger_eq same)
  rw [registered]
  split_ifs with enabled
  · refine first.tail (.enrol enabled ?_ ?_)
    · rw [ruleIndex?, engine]
      exact ruleIndex?_unregister w rule.id
    · rw [engine, isSome_engine_unregister, there]
  · exact first.trans (Chores.of_ledger_eq (ledger_note _ _))

/-- Putting a rule in leaves the engine there. -/
theorem isSome_engine_enrol (w : World) (rule : Rule) :
    (w.enrol rule).engine.isSome = w.engine.isSome := by
  show (w.enrol rule).ledger.engine.isSome = w.engine.isSome
  rw [ledger_enrol]
  exact Option.isSome_map

/-- Registering a rule leaves the engine there. -/
theorem isSome_engine_register (w : World) (rule : Rule) :
    (w.register rule).engine.isSome = w.engine.isSome := by
  obtain ⟨noted, same, registered⟩ := exists_register w rule
  have first : noted.engine.isSome = w.engine.isSome := by
    rw [← isSome_engine_unregister w rule.id]
    exact congrArg (Option.isSome ∘ Ledger.engine) same
  rw [registered]
  split_ifs
  · exact (isSome_engine_enrol noted rule).trans first
  · exact first

/-- **Registering several rules** is a row of chores while there is an engine. -/
theorem chores_registerAll (w : World) (rules : List Rule) (there : w.engine.isSome = true) :
    Chores w (w.registerAll rules) := by
  unfold registerAll
  induction rules generalizing w with
  | nil => exact .refl
  | cons rule rest ih =>
    exact (chores_register w rule there).trans (ih _ (by rw [isSome_engine_register, there]))

/-- Recording the entries that are left out leaves the ledger alone. -/
theorem ledger_foldl_record {α : Type} (w : World) (entries : List α) (record : α → Entry) :
    (entries.foldl (fun w a => w.record (record a)) w).ledger = w.ledger := by
  induction entries generalizing w with
  | nil => rfl
  | cons entry rest ih => rw [List.foldl_cons, ih, ledger_record]

/-- **Loading a document** is a row of chores while there is an engine. -/
theorem chores_load (w : World) (document : String) (there : w.engine.isSome = true) :
    Chores w (w.load document) := by
  unfold load
  split
  · exact .of_ledger_eq (ledger_respond w _)
  · next batch _ =>
    let told := batch.skipped.foldl (fun w s => w.record (.skipped s)) w
    have same : told.ledger = w.ledger := ledger_foldl_record w batch.skipped _
    have still : told.engine.isSome = true := by
      rw [show told.engine = w.engine from congrArg Ledger.engine same, there]
    exact (Chores.of_ledger_eq same).trans
      ((chores_registerAll told batch.rules still).trans (Chores.of_ledger_eq (ledger_respond _ _)))

/-! ## 5. Operations -/

/-- **Cancelling the runs of a label** is a row of chores. -/
theorem chores_cancelLabel (w : World) (label : String) : Chores w (w.cancelLabel label) := by
  let marked : World :=
    { w with labels := { w.labels with cancelled := label :: w.labels.cancelled } }
  -- a run cancelled keeps its number and its owner, so those left to cancel are still outside
  have each (v : World) (runs : List Run)
      (outside : ∀ r ∈ runs, ∃ r' ∈ v.runs, r'.id = r.id ∧ ∃ label, r'.owner = .label label) :
      Chores v (runs.foldl (fun w r => w.cancelRun r.id) v) := by
    induction runs generalizing v with
    | nil => exact .refl
    | cons r rest ih =>
      refine Relation.ReflTransGen.head (.cancel (outside r List.mem_cons_self)) (ih _ ?_)
      intro other member
      obtain ⟨held, there, same, owner⟩ := outside other (List.mem_cons_of_mem _ member)
      have runs : (v.cancelRun r.id).runs = v.runs.map (Run.cancelIf r.id) :=
        congrArg Ledger.runs (ledger_cancelRun v r.id)
      refine ⟨held.cancelIf r.id, runs ▸ List.mem_map_of_mem there, ?_, ?_⟩
      · rw [Run.id_cancelIf, same]
      · rw [Run.owner_cancelIf]
        exact owner
  have first : Chores w marked := .of_ledger_eq rfl
  refine first.trans (each marked (marked.runs.filter (·.owner = .label label)) fun r member => ?_)
  obtain ⟨there, owner⟩ := List.mem_filter.mp member
  exact ⟨r, there, rfl, label, by simpa using owner⟩

/-- What is asked of the engine is done when it is there. -/
theorem acts_withEngine (w : World) {act : World → World}
    (h : w.engine.isSome = true → Acts w (act w) none) : Acts w (w.withEngine act) none := by
  unfold withEngine
  split_ifs with there
  · exact h there
  · exact .chores (.of_ledger_eq (ledger_respond w _))

/-- Chores answered. -/
theorem Chores.respond {w w' : World} (h : Chores w w') (answer : Answer) :
    Acts w (w'.respond answer) none :=
  .chores (h.trans (Chores.of_ledger_eq (ledger_respond w' answer)))

/-- **Firing a rule by hand** is one rule proposed, if it is registered. -/
theorem acts_trigger (w : World) (id : String) :
    Acts w (w.perform (.trigger id)) (w.ruleIndex? id) := by
  simp only [perform, withEngine]
  cases found : w.ruleIndex? id with
  | none =>
    refine .chores (.of_ledger_eq ?_)
    split_ifs <;> rfl
  | some index =>
    rw [if_pos (isSome_engine_of_ruleIndex? found)]
    exact .fires [] (by simp) rfl rfl rfl (ledger_respond _ _)

/-- Only firing a rule by hand proposes one; **all other operations are chores**. -/
theorem acts_perform (w : World) (op : Operation) :
    Acts w (w.perform op) (w.proposed? (.perform op)) := by
  -- what touches neither rules nor runs proposes nothing
  have quiet {v : World} (same : v.ledger = w.ledger) : Acts w v none :=
    .chores (.of_ledger_eq same)
  cases op with
  | subscribe label name script => exact quiet rfl
  | subscribeAgain label source name =>
    simp only [perform]
    split <;> exact quiet rfl
  | unsubscribe label name =>
    simp only [perform]
    split <;> exact quiet rfl
  | emit name time data =>
    exact .chores ((chores_push w (by simp [Frame.isPlain])).trans (chores_emit _ _))
  | subscribers name => exact quiet rfl
  | setNumber key value =>
    exact .chores ((chores_push w (by simp [Frame.isPlain])).trans (chores_writeNumber _ key value))
  | setText key value =>
    exact .chores ((chores_push w (by simp [Frame.isPlain])).trans (chores_writeText _ key value))
  | get key => exact quiet rfl
  | listenNumber label script => exact quiet rfl
  | listenText label script => exact quiet rfl
  | unlisten label =>
    simp only [perform]
    split <;> exact quiet rfl
  | listeners => exact quiet rfl
  | watch label sequence withinMs script =>
    exact quiet ((ledger_respond _ _).trans ((ledger_watchAs _ _ _ _ _).trans rfl))
  | watchDispose label =>
    simp only [perform]
    split
    · exact quiet ((ledger_respond _ _).trans (ledger_disposeWatcher w _))
    · exact quiet rfl
  | watchState label =>
    simp only [perform]
    split <;> exact quiet rfl
  | watchDrop label =>
    simp only [perform]
    split
    · exact quiet ((ledger_respond _ _).trans (ledger_disposeWatcher _ _))
    · exact quiet rfl
  | timer label ms script => exact quiet ((ledger_timerAs _ _ _ _).trans rfl)
  | timerCancel label =>
    simp only [perform]
    split
    · exact quiet ((ledger_respond _ _).trans (ledger_cancelTimer w _))
    · exact quiet rfl
  | timerActive label =>
    simp only [perform]
    split <;> exact quiet rfl
  | timerDrop label =>
    simp only [perform]
    split
    · exact quiet ((ledger_respond _ _).trans (ledger_cancelTimer _ _))
    · exact quiet rfl
  -- a run that no rule owns is started by a chore
  | run label actions =>
    simp only [perform]
    split
    · exact Chores.respond (.single (.spawn w label _ _)) _
    · exact quiet rfl
  | cancel label => exact (chores_cancelLabel w label).respond _
  | isCancelled label => exact quiet rfl
  | line text => exact .chores (chores_readLine w text)
  | console bytes => exact .chores (chores_push w (by simp [Frame.isPlain]))
  | describe part =>
    simp only [perform]
    split <;> exact quiet rfl
  -- rules come and go only while there is an engine
  | register rule =>
    simp only [perform]
    refine acts_withEngine w fun there => ?_
    split
    · exact (chores_register w _ there).respond _
    · exact quiet rfl
  | load document =>
    simp only [perform]
    exact acts_withEngine w fun there => .chores (chores_load w document there)
  | unregister id =>
    simp only [perform]
    exact acts_withEngine w fun _ => Chores.respond (.single (.unregister w id)) _
  | trigger id => exact acts_trigger w id
  | ruleIds =>
    simp only [perform]
    exact acts_withEngine w fun _ => quiet rfl
  | isRunning id =>
    simp only [perform]
    exact acts_withEngine w fun _ => quiet rfl
  | disposeAll =>
    simp only [perform]
    exact acts_withEngine w fun _ => Chores.respond (.single (.disposeAll w)) _
  | dropEngine =>
    simp only [perform]
    exact acts_withEngine w fun _ => Chores.respond (.single (.dropEngine w)) _

/-! ## 6. Plain frames -/

/-- **What is done for a plain frame** is a row of chores, or one rule proposed for firing. -/
theorem acts_plain (exec : Executor) (w : World) {frame : Frame} (plain : frame.isPlain = true) :
    Acts w (w.act exec frame) (w.proposed? frame) := by
  cases frame with
  | perform op => exact acts_perform w op
  | respond answer => exact .chores (.of_ledger_eq rfl)
  | record => exact .chores (.of_ledger_eq rfl)
  | deliver event handlers =>
    cases handlers with
    | nil => exact .chores .refl
    -- the rest of the round is put back, which is quiet, and then one handler is called
    | cons handler rest =>
      have called := acts_handle (w.push [.deliver event rest]) event handler
      rw [handlerRule?_push] at called
      exact .of_quiet (u := w.push [.deliver event rest]) [.deliver event rest]
        (by simp [Frame.isPlain]) rfl rfl rfl called
  | tellNumber key value listeners =>
    cases listeners with
    | nil => exact .chores .refl
    | cons listener rest =>
      exact .of_quiet (u := w.push [.tellNumber key value rest]) [.tellNumber key value rest]
        (by simp [Frame.isPlain]) rfl rfl rfl (acts_hearNumber _ key value listener)
  | tellText key value listeners =>
    cases listeners with
    | nil => exact .chores .refl
    | cons listener rest =>
      have first : Chores w (w.push [.tellText key value rest]) :=
        chores_push w (by simp [Frame.isPlain])
      exact .chores (first.trans (chores_hearText _ key value listener))
  | lines rest shown => exact .chores (chores_readLines w shown rest)
  | execute | serve | resume | drain | advanceTo | leap => simp [Frame.isPlain] at plain

end World

end RuleDispatch
