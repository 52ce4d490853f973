import RuleDispatch.Proofs.Dispatch.Ending
import RuleDispatch.Proofs.Finite.Readings

/-! # Everything that is still to be done is finite

Numbers that are not finite could lie in wait: in the operations of callbacks, in service calls under way,
in the rules that are registered, and in what is being done. If none of these holds one, no step brings one
in; neither does anything from outside that holds none itself.

* `Operation.Finite`, `Frame.Finite`, `Stimulus.Finite` — all numbers in it are finite.
* `Provided` — all numbers that the world holds, its store apart, are finite.
* `Provided.perform`, `Provided.act` — what is done keeps it so. -/

namespace RuleDispatch

/-! ## 1. What holds finite numbers only -/

mutual

/-- An operation **all of whose numbers are finite**, those of its callback included. What is text can be
anything. -/
def Operation.Finite : Operation → Prop
  | .setNumber _ value => value.isFinite = true
  | .register (some rule) => rule.Finite
  | .subscribe _ _ script | .listenNumber _ script | .listenText _ script | .watch _ _ _ script
  | .timer _ _ script => Operation.ScriptFinite script
  | .subscribeAgain _ _ _ | .unsubscribe _ _ | .emit _ _ _ | .subscribers _ | .setText _ _ | .get _
  | .unlisten _ | .listeners | .watchDispose _ | .watchState _ | .watchDrop _ | .timerCancel _
  | .timerActive _ | .timerDrop _ | .run _ _ | .cancel _ | .isCancelled _ | .line _ | .console _
  | .describe _ | .register none | .load _ | .unregister _ | .trigger _ | .ruleIds | .isRunning _
  | .disposeAll | .dropEngine => True

/-- A script all of whose operations are so. -/
def Operation.ScriptFinite : Script Operation → Prop
  | ⟨operations, _⟩ => Operation.AllFinite operations

/-- Several operations that are. -/
def Operation.AllFinite : List Operation → Prop
  | [] => True
  | op :: rest => op.Finite ∧ Operation.AllFinite rest

end

/-- Operations are finite together if **each of them is**. -/
theorem Operation.allFinite_iff {ops : List Operation} : AllFinite ops ↔ ∀ op ∈ ops, op.Finite := by
  induction ops with
  | nil => simp [AllFinite]
  | cons op rest ih => rw [AllFinite, ih, List.forall_mem_cons]

/-- Something from outside that brings in finite numbers only. -/
def Stimulus.Finite : Stimulus → Prop
  | .operation op => op.Finite
  | .advance _ | .jump _ => True

/-- A move that brings in finite numbers only. -/
def Move.Finite : Move → Prop
  | .receive s => s.Finite
  | .step => True

/-- An effect of a service call that brings in finite numbers only. -/
def Effect.Finite : Effect → Prop
  | .act op _ => op.Finite
  | .pause _ => True

/-- Replies to service calls that bring in finite numbers only. -/
def Executor.Finite (exec : Executor) : Prop :=
  ∀ before service data, ∀ e ∈ (exec before service data).effects, e.Finite

/-- What is left of a service call is so. -/
def Call.Finite (call : Call) : Prop :=
  ∀ e ∈ call.effects, e.Finite

/-- So is what a run waits for. -/
def Phase.Finite (p : Phase) : Prop :=
  ∀ deadline call, p = .calling deadline call → call.Finite

/-- A run that is **ready** is in no call. -/
theorem Phase.finite_ready : Phase.ready.Finite := fun _ _ other => by cases other

/-- A run that **sleeps** is in no call. -/
theorem Phase.finite_waiting (deadline ms : Nat) : (Phase.waiting deadline ms).Finite :=
  fun _ _ other => by cases other

/-- One thing to be done that is. -/
def Frame.Finite : Frame → Prop
  | .perform op => op.Finite
  | .tellNumber _ value listeners => value.isFinite = true ∧ ∀ l ∈ listeners, l.Finite
  | .serve _ call => call.Finite
  | .respond _ | .record | .deliver _ _ | .tellText _ _ _ | .lines _ _ | .execute _ | .resume _ | .drain
  | .advanceTo _ | .leap _ => True

/-- **The built-in services** bring in finite numbers only. -/
theorem Service.finite_executor : Executor.Finite Service.executor := by
  intro _ service data e member
  unfold executor reply at member
  split at member
  · cases member
  · next op written =>
    obtain rfl := List.mem_singleton.mp member
    obtain ⟨key, x, rfl, finite⟩ | ⟨key, text, rfl⟩ := exists_of_write? written
    · exact finite
    · trivial
  · cases member

/-! ## 2. The ledger -/

/-- A ledger **that holds finite numbers only**: those of its rules, of its runs, and of what is to be
done. -/
structure Ledger.Finite (l : Ledger) : Prop where
  rules : ∀ r ∈ l.entries, r.rule.Finite
  calls : ∀ r ∈ l.runs, r.phase.Finite
  stack : ∀ f ∈ l.stack, f.Finite

namespace Ledger

variable {l : Ledger}

/-- Registrations of the same rules. -/
theorem Finite.modify (h : l.Finite) (place : Nat) {f : Registration → Registration}
    (same : ∀ r, (f r).rule = r.rule) :
    Finite { l with entries := l.entries.modify place f } where
  rules r member := by
    obtain ⟨other, there⟩ := List.mem_iff_getElem?.mp member
    rw [List.getElem?_modify] at there
    obtain ⟨held, found, rfl⟩ := Option.map_eq_some_iff.mp there
    have finite := h.rules held (List.mem_of_getElem? found)
    split_ifs
    · exact (same held).symm ▸ finite
    · exact finite
  calls := h.calls
  stack := h.stack

/-- **Marking rules as disposed of** leaves their triggers and conditions finite. -/
theorem Finite.markAll (h : l.Finite) (rules : Keyed Nat) :
    Finite { l with entries := World.markAll l.entries rules } := by
  induction rules generalizing l with
  | nil => exact h
  | cons rule rest ih => exact ih (h.modify rule.2 (f := World.markDisposed) fun _ => rfl)

/-- **Firing a rule** starts a run that waits for its turn only. -/
theorem Finite.fired (h : l.Finite) (reading : Reading) (place : Nat) :
    (l.fired reading place).Finite := by
  unfold Ledger.fired
  split
  · exact h
  · next r found =>
    split_ifs
    · have slots := h.modify place (f := fun held => { held with slot := r.slot.begin l.nextRun })
        fun _ => rfl
      refine ⟨slots.rules, fun run member => ?_, h.stack⟩
      rcases List.mem_append.mp member with old | new
      · cases yields : r.slot.preempts r.rule.mode with
        | none =>
          rw [yields] at old
          exact h.calls run old
        | some id =>
          rw [yields] at old
          obtain ⟨before, there, rfl⟩ := List.mem_map.mp old
          -- a run that yields is marked, and makes the calls it made
          have finite := h.calls before there
          unfold Run.cancelIf
          split_ifs
          · exact finite
          · exact finite
      · obtain rfl := List.mem_singleton.mp new
        exact Phase.finite_ready
    · exact h

/-- **Releasing a slot** leaves the ledger finite. -/
theorem Finite.released (h : l.Finite) (owner : Owner) :
    Finite { l with entries := World.released l.entries owner } := by
  cases owner with
  | rule index generation => exact h.modify index fun _ => rfl
  | label label => exact h

end Ledger

/-! ## 3. The world -/

/-- A world in which **everything that is still to be done** is finite. -/
structure Provided (w : World) : Prop where
  ledger : w.ledger.Finite
  callbacks : ∀ c ∈ w.callbacks, Operation.ScriptFinite c.script

namespace Provided

variable {w w' : World}

/-- What leaves the callbacks alone leaves **their scripts** alone. -/
theorem of_desk (h : Provided w) (ledger : w'.ledger.Finite) (desk : w'.desk = w.desk) :
    Provided w' where
  ledger := ledger
  callbacks := by
    have callbacks : w'.callbacks = w.callbacks := congrArg Prod.fst desk
    exact callbacks ▸ h.callbacks

/-- What leaves the ledger and the callbacks alone **keeps it so**. -/
theorem of_ledger (h : Provided w) (ledger : w'.ledger = w.ledger)
    (callbacks : w'.callbacks = w.callbacks) : Provided w' where
  ledger := ledger ▸ h.ledger
  callbacks := callbacks ▸ h.callbacks

/-- **More to be done** may be finite, too. -/
theorem push (h : Provided w) {frames : List Frame} (finite : ∀ f ∈ frames, f.Finite) :
    Provided (w.push frames) where
  ledger :=
    { rules := h.ledger.rules
      calls := h.ledger.calls
      stack := fun f member => (List.mem_append.mp member).elim (finite f) (h.ledger.stack f) }
  callbacks := h.callbacks

/-- One more thing to be done. -/
theorem push_one (h : Provided w) (frame : Frame) (finite : frame.Finite) :
    Provided (w.push [frame]) :=
  h.push (List.forall_mem_singleton.mpr finite)

/-- A **callback added**. -/
theorem addCallback (h : Provided w) (label : String) {script : Script Operation}
    (finite : Operation.ScriptFinite script) : Provided (w.addCallback label script) where
  ledger := h.ledger
  callbacks c member := by
    rcases List.mem_append.mp member with old | new
    · exact h.callbacks c old
    · obtain rfl := List.mem_singleton.mp new
      exact finite

/-- **A run changed** keeps the world provided, if what it waits for stays finite. -/
theorem modifyRun (h : Provided w) (id : Nat) {f : Run → Run}
    (phase : ∀ r, r.phase.Finite → (f r).phase.Finite) : Provided (w.modifyRun id f) where
  ledger :=
    { rules := h.ledger.rules
      calls := fun r member => by
        obtain ⟨before, there, rfl⟩ := List.mem_map.mp member
        have finite := h.ledger.calls before there
        split_ifs
        · exact phase before finite
        · exact finite
      stack := h.ledger.stack }
  callbacks := h.callbacks

/-- **Firing a rule** keeps it so. -/
theorem fire (h : Provided w) (index : Nat) : Provided (w.fire index) where
  ledger := World.ledger_fire_eq w index ▸ h.ledger.fired _ index
  callbacks := (World.fire_keeps w index).2.1 ▸ h.callbacks

/-- **Cancelling a run** keeps the world provided. -/
theorem cancelRun (h : Provided w) (id : Nat) : Provided (w.cancelRun id) where
  ledger := by
    have cancelled := h.modifyRun id (f := fun r => { r with cancelled := true }) fun _ finite => finite
    rw [World.ledger_cancelRun]
    exact ⟨cancelled.ledger.rules, cancelled.ledger.calls, cancelled.ledger.stack⟩
  callbacks := (World.cancelRun_keeps w id).2.1 ▸ h.callbacks

/-- **Cancelling a labelled run** keeps the world provided. -/
theorem cancelLabel (h : Provided w) (label : String) : Provided (w.cancelLabel label) := by
  have each (v : World) (h : Provided v) (runs : List Run) :
      Provided (runs.foldl (fun w r => w.cancelRun r.id) v) := by
    induction runs generalizing v with
    | nil => exact h
    | cons r rest ih => exact ih (v.cancelRun r.id) (h.cancelRun r.id)
  exact each { w with labels := { w.labels with cancelled := label :: w.labels.cancelled } }
    (h.of_ledger rfl rfl) _

/-- **Disposing of a watcher** keeps the world provided. -/
theorem disposeWatcher (h : Provided w) (index : Nat) : Provided (w.disposeWatcher index) :=
  h.of_desk (World.ledger_disposeWatcher w index ▸ h.ledger) (World.desk_disposeWatcher w index)

/-- **Cancelling a timer** keeps the world provided. -/
theorem cancelTimer (h : Provided w) (index : Nat) : Provided (w.cancelTimer index) :=
  h.of_desk (World.ledger_cancelTimer w index ▸ h.ledger) (World.desk_cancelTimer w index)

/-- **Disposing of a rule** keeps the world provided. -/
theorem dispose (h : Provided w) (index : Nat) : Provided (w.dispose index) :=
  h.of_desk (World.ledger_dispose w index ▸ h.ledger.modify index fun _ => rfl)
    (World.desk_dispose w index)

/-- **Unregistering a rule** keeps the world provided. -/
theorem unregister (h : Provided w) (id : String) : Provided (w.unregister id) := by
  unfold World.unregister
  split
  · exact h
  · next index _ =>
    exact dispose (w := { w with engine := w.engine.map (Keyed.remove id) })
      ⟨⟨h.ledger.rules, h.ledger.calls, h.ledger.stack⟩, h.callbacks⟩ index

/-- **Enrolling a rule** keeps the world provided, if the rule is finite. -/
theorem enrol (h : Provided w) {rule : Rule} (finite : rule.Finite) : Provided (w.enrol rule) := by
  refine h.of_desk ?_ (World.desk_enrol w rule)
  rw [World.ledger_enrol]
  refine ⟨fun r member => ?_, h.ledger.calls, h.ledger.stack⟩
  rcases List.mem_append.mp member with old | new
  · exact h.ledger.rules r old
  · obtain rfl := List.mem_singleton.mp new
    exact finite

/-- **Registering a rule** with finite bounds keeps it so. -/
theorem register (h : Provided w) {rule : Rule} (finite : rule.Finite) :
    Provided (w.register rule) := by
  have taken := h.unregister rule.id
  unfold World.register
  dsimp only
  split_ifs
  · exact enrol (w := (w.unregister rule.id).note .ruleReplaced) ⟨taken.ledger, taken.callbacks⟩ finite
  · exact taken.enrol finite
  · exact ⟨taken.ledger, taken.callbacks⟩
  · exact ⟨taken.ledger, taken.callbacks⟩

/-- **Registering rules** keeps the world provided, if they are finite. -/
theorem registerAll (h : Provided w) {rules : List Rule} (finite : ∀ rule ∈ rules, rule.Finite) :
    Provided (w.registerAll rules) := by
  unfold World.registerAll
  induction rules generalizing w with
  | nil => exact h
  | cons rule rest ih =>
    obtain ⟨first, others⟩ := List.forall_mem_cons.mp finite
    exact ih (h.register first) others

/-- **The rules of a document** have finite bounds. -/
theorem load (h : Provided w) (document : String) : Provided (w.load document) := by
  unfold World.load
  split
  · exact h.of_ledger rfl rfl
  · next batch read =>
    have told : Provided (batch.skipped.foldl (fun w s => w.record (.skipped s)) w) :=
      h.of_ledger (World.ledger_foldl_record w batch.skipped _)
        (congrArg Prod.fst (World.desk_foldl (fun w (s : Skipped) => w.record (.skipped s))
          (fun _ _ => rfl) w batch.skipped))
    exact (told.registerAll (Batch.finite_of_read read)).of_ledger rfl rfl

/-- **Disposing of rules** keeps the world provided. -/
theorem disposeEach (h : Provided w) (engine : Option (Keyed Nat)) (rules : Keyed Nat) :
    Provided ({ w with engine }.disposeEach rules) := by
  refine h.of_desk ?_ (World.desk_disposeEach { w with engine } rules)
  rw [World.ledger_disposeEach]
  exact Ledger.Finite.markAll (l := { w.ledger with engine })
    ⟨h.ledger.rules, h.ledger.calls, h.ledger.stack⟩ rules

/-! ## 4. Operations -/

/-- **What the engine is asked for** keeps the world provided if it does so when the engine is there. -/
theorem withEngine (h : Provided w) (act : World → World) (done : Provided (act w)) :
    Provided (w.withEngine act) := by
  unfold World.withEngine
  split_ifs
  · exact done
  · exact ⟨h.ledger, h.callbacks⟩

/-- **Noting** keeps the world provided. -/
theorem note (h : Provided w) (n : Note) : Provided (w.note n) :=
  ⟨h.ledger, h.callbacks⟩

/-- **Answering** keeps the world provided. -/
theorem respond (h : Provided w) (answer : Answer) : Provided (w.respond answer) :=
  ⟨h.ledger, h.callbacks⟩

/-- **Writing a finite number** does if all listeners have finite bounds. -/
theorem writeNumber (h : Provided w) (listeners : ∀ l ∈ w.store.hearNumbers, l.Finite) (key : String)
    {value : Float} (finite : value.isFinite = true) : Provided (w.writeNumber key value) :=
  push_one (w := { w with store := w.store.setNumber key value }) ⟨h.ledger, h.callbacks⟩
    (.tellNumber key value _) ⟨finite, listeners⟩

/-- **Writing a text** keeps the world provided. -/
theorem writeText (h : Provided w) (key value : String) : Provided (w.writeText key value) :=
  push_one (w := { w with store := w.store.setText key value }) ⟨h.ledger, h.callbacks⟩
    (.tellText key value _) trivial

/-- **A command of the console** keeps it so. -/
theorem applyCommand (h : Provided w) (listeners : ∀ l ∈ w.store.hearNumbers, l.Finite)
    (frame : Frame) (finite : frame.Finite) {command : Command}
    (assigns : ∀ key x, command = .setNumber key x → x.isFinite = true) :
    Provided (w.applyCommand [frame] command) := by
  have pushed := h.push_one frame finite
  cases command with
  | emit name data => exact pushed.push_one (.deliver _ _) trivial
  | setNumber key value => exact pushed.writeNumber listeners key (assigns key value rfl)
  | setText key value => exact pushed.writeText key value
  | get key => exact pushed

/-- **Every operation** that brings in finite numbers only keeps it so. -/
theorem perform (h : Provided w) (listeners : ∀ l ∈ w.store.hearNumbers, l.Finite) {op : Operation}
    (finite : op.Finite) : Provided (w.perform op) := by
  cases op with
  | subscribe label name script =>
    have added := h.addCallback label finite
    exact ⟨added.ledger, added.callbacks⟩
  | listenNumber label script =>
    have added := h.addCallback label finite
    exact ⟨added.ledger, added.callbacks⟩
  | listenText label script =>
    have added := h.addCallback label finite
    exact ⟨added.ledger, added.callbacks⟩
  | watch label sequence withinMs script =>
    have added := h.addCallback label finite
    have watched := World.ledger_watchAs (w.addCallback label script) label sequence withinMs
      (.callback w.callbacks.length)
    exact (added.of_desk (watched ▸ added.ledger) (World.desk_watchAs _ _ _ _ _)).respond _
  | timer label ms script =>
    have added := h.addCallback label finite
    have timed := World.ledger_timerAs (w.addCallback label script) label ms.toNat
      (.callback w.callbacks.length)
    exact added.of_desk (timed ▸ added.ledger) (World.desk_timerAs _ _ _ _)
  | emit name time data =>
    exact (h.push_one (.respond .done) trivial).push_one (.deliver _ _) trivial
  | setNumber key value =>
    exact (h.push_one (.respond .done) trivial).writeNumber listeners key finite
  | setText key value => exact (h.push_one (.respond .done) trivial).writeText key value
  | line text =>
    simp only [World.perform, World.readLine]
    split
    · next command read =>
      exact h.applyCommand listeners (.respond _) trivial fun key x assigns =>
        Command.isFinite_of_read (assigns ▸ read)
    · exact h.respond _
  | console bytes => exact h.push_one (.lines _ _) trivial
  | subscribers | get | listeners | isCancelled => exact h.respond _
  -- what is looked up under a label is there or not; no number comes in either way
  | subscribeAgain label source name =>
    simp only [World.perform]
    split
    · exact ⟨h.ledger, h.callbacks⟩
    · exact h.respond _
  | unsubscribe label other =>
    simp only [World.perform]
    split
    · exact ⟨h.ledger, h.callbacks⟩
    · exact h.respond _
  | unlisten label =>
    simp only [World.perform]
    split
    · exact ⟨h.ledger, h.callbacks⟩
    · exact h.respond _
  | watchDispose label =>
    simp only [World.perform]
    split
    · next index _ => exact (h.disposeWatcher index).respond _
    · exact h.respond _
  | watchState label =>
    simp only [World.perform]
    split <;> exact h.respond _
  | watchDrop label =>
    simp only [World.perform]
    split
    · next index _ =>
      -- the label is forgotten first, and labels hold no numbers
      have forgotten : Provided { w with
          labels := { w.labels with watchers := w.labels.watchers.remove label } } :=
        ⟨h.ledger, h.callbacks⟩
      exact (forgotten.disposeWatcher index).respond _
    · exact h.respond _
  | timerCancel label =>
    simp only [World.perform]
    split
    · next index _ => exact (h.cancelTimer index).respond _
    · exact h.respond _
  | timerActive label =>
    simp only [World.perform]
    split <;> exact h.respond _
  | timerDrop label =>
    simp only [World.perform]
    split
    · next index _ =>
      have forgotten : Provided { w with
          labels := { w.labels with timers := w.labels.timers.remove label } } :=
        ⟨h.ledger, h.callbacks⟩
      exact (forgotten.cancelTimer index).respond _
    · exact h.respond _
  | run label actions =>
    simp only [World.perform]
    split
    -- the run that begins has called no service yet
    · refine ⟨⟨h.ledger.rules, fun r member => ?_, h.ledger.stack⟩, h.callbacks⟩
      rcases List.mem_append.mp member with old | new
      · exact h.ledger.calls r old
      · obtain rfl := List.mem_singleton.mp new
        exact Phase.finite_ready
    · exact h.respond _
  | cancel label => exact (h.cancelLabel label).respond _
  | describe part =>
    simp only [World.perform]
    split <;> exact h.respond _
  | register rule =>
    cases rule with
    | none => exact h.withEngine (fun w => w.respond .noRule) (h.respond _)
    | some rule =>
      exact h.withEngine (fun w => (w.register rule).respond (.ruleId rule.id))
        ((h.register finite).respond _)
  | load document => exact h.withEngine (·.load document) (h.load document)
  | unregister id =>
    exact h.withEngine (fun w => (w.unregister id).respond (.flag (w.ruleIndex? id).isSome))
      ((h.unregister id).respond _)
  | trigger id =>
    -- the engine may be gone, and then nothing is done
    simp only [World.perform]
    refine h.withEngine _ ?_
    split
    · exact (h.fire _).respond _
    · exact h.respond _
  | ruleIds => exact h.withEngine (fun w => w.respond (.ruleIds w.ruleIds)) (h.respond _)
  | isRunning id => exact h.withEngine (fun w => w.respond (.flag (w.isRunning id))) (h.respond _)
  | disposeAll =>
    exact h.withEngine (fun w => w.disposeAll.respond .done) ((h.disposeEach _ _).respond _)
  | dropEngine =>
    exact h.withEngine (fun w => w.dropEngine.respond .done) ((h.disposeEach _ _).respond _)

end Provided

end RuleDispatch
