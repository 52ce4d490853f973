import RuleDispatch.Proofs.Dispatch.Rounds
import RuleDispatch.Proofs.Finite.Provisions

/-! # The store holds numbers

In a world that holds finite numbers only, in its store as well as in all that is still to be done,
everything that happens keeps it so as long as nothing else is brought in from outside. Lines of the
console, documents and the built-in services never do. So a threshold or a numeric condition never meets
an infinity or what is no number: it compares a stored number with its bounds.

* `World.Finite` — all numbers of a world are finite.
* `World.Finite.after` — every history keeps it so.
* `Bounds.Admits` — the comparison of numbers that bounds stand for.
* `Decided`, `World.Finite.decided` — how thresholds and conditions are decided at any point of any history. -/

namespace RuleDispatch

namespace Provided

variable {w : World} {exec : Executor}

/-! ## 1. Calls, strides and turns -/

/-- **Calling a callback** keeps the world provided. -/
theorem runCallback (h : Provided w) (index : Nat) (entry : String → Entry) :
    Provided (w.runCallback index entry) := by
  unfold World.runCallback
  split
  · exact h
  · next c found =>
    have script := h.callbacks c (List.mem_of_getElem? found)
    obtain ⟨label, operations, times⟩ := c
    -- what a call does is part of the script, and so is what is left of it
    have ops : ∀ op ∈ (Script.call ⟨operations, times⟩).1, op.Finite := by
      rw [Script.fst_call, Script.onCall]
      split_ifs
      · exact Operation.allFinite_iff.mp script
      · exact List.forall_mem_nil _
    have left : Operation.ScriptFinite (Script.call ⟨operations, times⟩).2 := by
      cases times <;> exact script
    have called : Provided
        { w with callbacks := w.callbacks.modify index fun c => { c with script := _ } } :=
      ⟨h.ledger, fun c member => by
        obtain ⟨place, there⟩ := List.mem_iff_getElem?.mp member
        rw [List.getElem?_modify] at there
        obtain ⟨held, before, rfl⟩ := Option.map_eq_some_iff.mp there
        split_ifs
        · exact left
        · exact h.callbacks held (List.mem_of_getElem? before)⟩
    have frames : ∀ f ∈ World.scriptFrames (Script.call ⟨operations, times⟩).1, f.Finite := by
      intro f member
      obtain ⟨op, there, either⟩ := List.mem_flatMap.mp member
      rcases List.mem_pair.mp either with rfl | rfl
      · exact ops op there
      · trivial
    have pushed := called.push frames
    exact ⟨pushed.ledger, pushed.callbacks⟩

/-- **Calling a target** keeps the world provided. -/
theorem callTarget (h : Provided w) (entry : String → Entry) (target : Target) :
    Provided (w.callTarget entry target) := by
  cases target with
  | callback index => exact h.runCallback index entry
  | rule index => exact h.fire index

/-- **Delivering an event** keeps the world provided. -/
theorem handle (h : Provided w) (event : Event) (handler : Handler) :
    Provided (w.handle event handler) := by
  cases handler with
  | target target => exact h.callTarget _ target
  | watcher index =>
    simp only [World.handle, World.observe]
    split
    · exact h
    · next watcher _ =>
      have shown : Provided { w with watchers := w.watchers.modify index fun x =>
          { x with matcher := (watcher.matcher.observe event.name event.timestamp).2 } } :=
        ⟨h.ledger, h.callbacks⟩
      unfold World.settleWatcher
      split
      · split_ifs
        · exact shown
        · exact shown.callTarget _ _
      · exact shown.note _
      · exact shown

/-- **Telling a listener of a number** keeps the world provided. -/
theorem hearNumber (h : Provided w) (key : String) (value : Float) (listener : NumberListener) :
    Provided (w.hearNumber key value listener) := by
  cases listener with
  | callback index =>
    exact h.runCallback index fun label => .number label key value (w.store.number? key)
  | threshold rule entity bounds =>
    unfold World.hearNumber
    dsimp only
    split_ifs
    · exact h.fire rule
    · exact h

/-- **A tick of a timer** keeps the world provided. -/
theorem tick (h : Provided w) (index : Nat) : Provided (w.tick index) := by
  unfold World.tick
  split
  · exact h
  · next t _ =>
    dsimp only
    split_ifs
    · exact h
    · have ticked : Provided { w with
          timers := w.timers.modify index fun x => { x with deadline := t.nextDeadline w.now } } :=
        ⟨h.ledger, h.callbacks⟩
      exact (ticked.push_one (.resume (.timer index)) trivial).callTarget _ _

/-- **The end of a run** keeps it so. -/
theorem endRun (h : Provided w) {w' : World} (r : Run)
    (ledger : w'.ledger = { w.ledger with
      runs := w.runs.filter (·.id ≠ r.id)
      entries := World.released w.ledger.entries r.owner })
    (callbacks : w'.callbacks = w.callbacks) : Provided w' where
  ledger := by
    have told := h.ledger.released r.owner
    rw [ledger]
    exact ⟨told.rules, fun run member => told.calls run (List.mem_of_mem_filter member), told.stack⟩
  callbacks := callbacks ▸ h.callbacks

/-- **The end of a run** keeps the world provided. -/
theorem finishRun (h : Provided w) (r : Run) : Provided (w.finishRun r) := by
  refine h.endRun r (World.ledger_finishRun w r) ?_
  unfold World.finishRun
  dsimp only
  split <;> rfl

/-- **A panic of a run** keeps the world provided. -/
theorem panicRun (h : Provided w) (r : Run) : Provided (w.panicRun r) := by
  refine h.endRun r (World.ledger_panicRun w r) ?_
  unfold World.panicRun
  dsimp only
  split <;> rfl

/-- **A stride of a run** keeps it so if service calls do. -/
theorem execute (h : Provided w) (replies : Executor.Finite exec) (id : Nat) :
    Provided (w.execute exec id) := by
  unfold World.execute
  split
  · exact h
  · next r _ =>
    dsimp only
    have on := h.modifyRun id (f := fun r' => { r' with progress := (r.progress.next r.cancelled).2 })
      fun _ finite => finite
    cases (r.progress.next r.cancelled).1 with
    | nothing => exact on.push_one (.execute r.id) trivial
    | call service data =>
      have recorded : Provided { (w.modifyRun id _).record (.call service data) with
          calls := w.calls + 1 } :=
        ⟨⟨on.ledger.rules, on.ledger.calls, on.ledger.stack⟩, on.callbacks⟩
      exact recorded.push_one (.serve r.id _) (replies w.calls service data)
    | wait ms =>
      simp only [World.meet, World.waitFor]
      split
      · exact on.push_one (.execute r.id) trivial
      · exact on.modifyRun _ fun _ _ => Phase.finite_waiting _ _
    | stop => exact (on.note .stopped).push_one (.execute _) trivial
    | finish => exact on.finishRun _

/-- **A step of a service call** does. -/
theorem serve (h : Provided w) (id : Nat) {call : Call} (finite : call.Finite) :
    Provided (w.serve id call) := by
  unfold World.serve
  split
  · unfold World.endCall
    split
    · exact h.push_one (.execute id) trivial
    · exact (h.note _).push_one (.execute id) trivial
    · split
      · exact h
      · exact h.panicRun _
  · next op recorded rest effects =>
    rw [Call.Finite, effects] at finite
    obtain ⟨first, others⟩ := List.forall_mem_cons.mp finite
    -- what the service does first is finite, and the rest of it is done later
    refine h.push (List.forall_mem_cons.mpr ⟨first, fun f member => ?_⟩)
    rcases List.mem_append.mp member with record | last
    · split_ifs at record
      · obtain rfl := List.mem_singleton.mp record
        trivial
      · cases record
    · obtain rfl := List.mem_singleton.mp last
      exact others
  · next ms rest effects =>
    rw [Call.Finite, effects] at finite
    obtain ⟨-, others⟩ := List.forall_mem_cons.mp finite
    dsimp only
    split_ifs
    · exact h.push_one (.serve id _) others
    · exact h.modifyRun id fun _ _ _ _ same => by
        obtain ⟨-, rfl⟩ := Phase.calling.inj same
        exact others

/-- **Waking a run up** keeps the world provided. -/
theorem resumeRun (h : Provided w) (id : Nat) : Provided (w.resumeRun id) := by
  unfold World.resumeRun
  split
  · exact h
  · next r found =>
    split
    · exact h.push_one (.execute id) trivial
    · split_ifs
      · exact (h.modifyRun id fun _ _ => Phase.finite_ready).push_one (.execute id) trivial
      · exact ((h.note _).modifyRun id fun _ _ => Phase.finite_ready).push_one (.execute id)
          trivial
      · exact h
    · next deadline call phase =>
      have member : r ∈ w.runs := List.mem_of_find?_eq_some found
      split_ifs
      · exact (h.modifyRun id fun _ _ => Phase.finite_ready).push_one (.serve id call)
          (h.ledger.calls r member deadline call phase)
      · exact h

/-- **Time passing** does. -/
theorem wakeDue (h : Provided w) : Provided w.wakeDue := by
  refine h.of_desk ?_ (World.desk_foldl World.wake World.desk_wake w w.due)
  rw [World.ledger_wakeDue]
  exact ⟨h.ledger.rules, h.ledger.calls, h.ledger.stack⟩

/-- **Another moment** keeps the world provided. -/
theorem at_time (h : Provided w) (now : Nat) : Provided { w with now } :=
  ⟨⟨h.ledger.rules, h.ledger.calls, h.ledger.stack⟩, h.callbacks⟩

/-- **Moving the clock on** keeps the world provided. -/
theorem advanceTo (h : Provided w) (time : Nat) : Provided (w.advanceTo time) := by
  unfold World.advanceTo
  split
  · split_ifs
    · exact (h.at_time _).wakeDue.push (by simp [Frame.Finite])
    · exact h.at_time time
  · exact h.at_time time

/-- **Giving the ready their turns** keeps the world provided. -/
theorem drain (h : Provided w) : Provided w.drain := by
  unfold World.drain
  split
  · exact h
  · next task rest _ =>
    have given : Provided { w with ready := rest } :=
      ⟨⟨h.ledger.rules, h.ledger.calls, h.ledger.stack⟩, h.callbacks⟩
    exact given.push (by simp [Frame.Finite])

/-- **Reading lines** keeps the world provided. -/
theorem readLines (h : Provided w) (listeners : ∀ l ∈ w.store.hearNumbers, l.Finite)
    (shown : List String) (lines : List (Option String)) : Provided (w.readLines shown lines) := by
  unfold World.readLines
  split
  · exact (h.note _).respond _
  · exact h.respond _
  · next line rest =>
    split
    · next command read =>
      exact h.applyCommand listeners (.lines rest _) trivial fun key x assigns =>
        Command.isFinite_of_read (assigns ▸ read)
    · exact h.push_one (.lines rest _) trivial
    · exact (h.note _).push_one (.lines rest _) trivial

/-- **Everything that is done** keeps it so. -/
theorem act (h : Provided w) (replies : Executor.Finite exec)
    (listeners : ∀ l ∈ w.store.hearNumbers, l.Finite) {frame : Frame} (finite : frame.Finite) :
    Provided (w.act exec frame) := by
  cases frame with
  | perform op => exact h.perform listeners finite
  | respond answer => exact h.respond answer
  | record => exact ⟨h.ledger, h.callbacks⟩
  | deliver event handlers =>
    cases handlers with
    | nil => exact h
    | cons handler rest =>
      exact (h.push_one (.deliver event rest) trivial).handle event handler
  | tellNumber key value told =>
    cases told with
    | nil => exact h
    | cons listener rest =>
      -- of those who are told one less is left
      have others : (Frame.tellNumber key value rest).Finite :=
        ⟨finite.1, (List.forall_mem_cons.mp finite.2).2⟩
      exact (h.push_one _ others).hearNumber key value listener
  | tellText key value told =>
    cases told with
    | nil => exact h
    | cons index rest =>
      exact (h.push_one (.tellText key value rest) trivial).runCallback index
        fun label => .text label key value (w.store.text? key)
  | lines rest shown => exact h.readLines listeners shown rest
  | execute run => exact h.execute replies run
  | serve run call => exact h.serve run finite
  | resume task =>
    cases task with
    | run id => exact h.resumeRun id
    | timer index => exact h.tick index
  | drain => exact h.drain
  | advanceTo time => exact h.advanceTo time
  | leap ms => exact (h.at_time _).wakeDue

/-- So does everything from outside that brings in finite numbers only. -/
theorem receive (h : Provided w) {s : Stimulus} (finite : s.Finite) : Provided (w.receive s) := by
  cases s with
  | operation op => exact h.push_one (.perform op) finite
  | advance ms => exact h.push (by simp [Frame.Finite])
  | jump ms => exact h.push (by simp [Frame.Finite])

end Provided

/-! ## 2. The store -/

/-- A store whose numbers are finite, and whose listeners **compare with finite bounds**. -/
structure Store.Finite (s : Store NumberListener Nat) : Prop where
  numbers : ∀ key x, s.number? key = some x → x.isFinite = true
  listeners : ∀ l ∈ s.hearNumbers, l.Finite

namespace Store

variable {s : Store NumberListener Nat}

/-- What reads as zero does, too. -/
theorem Finite.number (h : s.Finite) (key : String) : (s.number key).isFinite = true := by
  unfold Store.number
  cases stored : s.number? key with
  | none => exact Double.isFinite_ofInt (n := 0) (by decide)
  | some x => exact h.numbers key x stored

/-- **An edit** that brings in finite numbers only keeps a store so. -/
theorem Finite.edit (h : s.Finite) {e : Edit} (finite : e.Finite) : (s.edit e).Finite := by
  cases e with
  | setNumber key value =>
    refine ⟨fun other x stored => ?_, h.listeners⟩
    rw [Store.edit, number?_setNumber] at stored
    split_ifs at stored
    · obtain rfl := Option.some.inj stored
      exact finite
    · exact h.numbers other x stored
  | listenNumber listener =>
    refine ⟨h.numbers, fun l member => ?_⟩
    rw [Store.edit, hearNumbers_listenNumber] at member
    rcases List.mem_append.mp member with old | new
    · exact h.listeners l old
    · obtain rfl := List.mem_singleton.mp new
      exact finite
  | unlisten id =>
    refine ⟨h.numbers, fun l member => ?_⟩
    obtain ⟨held, there, rfl⟩ := List.mem_map.mp member
    exact h.listeners _ (List.mem_map_of_mem (List.mem_of_mem_filter there))
  | subscribe | unsubscribe | listenText | setText => exact ⟨h.numbers, h.listeners⟩

/-- **Finite edits** leave a store finite. -/
theorem Finite.edits (h : s.Finite) {es : List Edit} (finite : Edits.All Edit.Finite es) :
    (es.foldl Store.edit s).Finite := by
  induction es generalizing s with
  | nil => exact h
  | cons e rest ih =>
    obtain ⟨first, others⟩ := List.forall_mem_cons.mp finite
    exact ih (h.edit first) others

end Store

/-- What an operation **writes** is finite if all its numbers are. -/
theorem Operation.Finite.writes {op : Operation} (h : op.Finite) :
    Edits.All Edit.Finite op.writes := by
  cases op with
  | setNumber key value => exact .cons h Edits.all_nil
  | setText key value => exact .cons trivial Edits.all_nil
  | line text => exact Edits.finite_line text
  | _ => exact Edits.all_nil

/-- So are the bounds of the rules that it puts in. -/
theorem Operation.Finite.rules {op : Operation} (h : op.Finite) : ∀ rule ∈ op.rules, rule.Finite := by
  cases op with
  | register rule =>
    cases rule with
    | none => exact List.forall_mem_nil _
    | some rule => exact List.forall_mem_singleton.mpr h
  | load document =>
    rw [Operation.rules]
    cases read : Batch.read document with
    | error fault => exact List.forall_mem_nil _
    | ok batch => exact Batch.finite_of_read read
  | _ => exact List.forall_mem_nil _

/-! ## 3. Histories -/

/-- A world **all of whose numbers are finite**. -/
structure World.Finite (w : World) : Prop where
  provided : Provided w
  store : w.store.Finite

namespace World

variable {w : World} {exec : Executor}

/-- The edits of the next step bring in finite numbers only. -/
theorem Finite.edits (h : w.Finite) : Edits.All Edit.Finite w.edits := by
  unfold World.edits
  split
  · next op below stack =>
    have finite : op.Finite := h.provided.ledger.stack (.perform op) (by
      show _ ∈ w.stack
      rw [stack]
      exact List.mem_cons_self)
    exact Edits.all_perform Edit.moving_finite _ op finite.writes fun rule member =>
      (finite.rules rule member).wires
  · next lines _ _ _ =>
    unfold Edits.lines
    split
    · exact Edits.finite_line _
    · exact Edits.all_nil
    · exact Edits.all_nil
  · exact Edits.all_nil

/-- **A step** keeps all numbers finite. -/
theorem Finite.step (h : w.Finite) (replies : Executor.Finite exec) : (w.step exec).Finite where
  provided := by
    unfold World.step
    split
    · exact h.provided
    · next frame rest stack =>
      have all := h.provided.ledger.stack
      rw [show w.ledger.stack = frame :: rest from stack] at all
      obtain ⟨first, others⟩ := List.forall_mem_cons.mp all
      have below : Provided { w with stack := rest } :=
        ⟨⟨h.provided.ledger.rules, h.provided.ledger.calls, others⟩, h.provided.callbacks⟩
      exact below.act replies h.store.listeners first
  store := by
    rw [(edited_step exec w).store]
    exact h.store.edits h.edits

/-- So does **every history** in which nothing else is brought in from outside. -/
theorem Finite.after (h : w.Finite) (replies : Executor.Finite exec) {moves : List Move}
    (finite : ∀ m ∈ moves, m.Finite) : (w.after exec moves).Finite := by
  induction moves generalizing w with
  | nil => exact h
  | cons m moves ih =>
    obtain ⟨first, others⟩ := List.forall_mem_cons.mp finite
    refine ih ?_ others
    cases m with
    | step => exact h.step replies
    | receive s =>
      have same : (w.receive s).store = w.store := by cases s <;> rfl
      exact ⟨h.provided.receive first, same ▸ h.store⟩

end World

/-- **The daemon starts** with finite numbers only if its rules have finite bounds. -/
theorem Daemon.finite_start (wallClock : Timestamp) {rules : List Rule}
    (finite : ∀ rule ∈ rules, rule.Finite) : (Daemon.start wallClock rules).Finite := by
  have none {α : Type} {P : α → Prop} : ∀ a ∈ ([] : List α), P a := by simp
  have nothing : Provided (World.empty wallClock) := ⟨⟨none, none, none⟩, none⟩
  have stored : (World.empty wallClock).store.Finite :=
    { numbers := fun key x (found : Option.none = some x) => by cases found
      listeners := none }
  refine ⟨nothing.registerAll finite, ?_⟩
  have registered := World.edited_inTurn World.register Edits.register World.edited_register
    (World.empty wallClock) rules
  unfold Daemon.start World.registerAll
  rw [registered.store]
  exact stored.edits (Edits.all_inTurn _ _
    (fun w rule member => Edits.all_register Edit.moving_finite w (finite rule member).wires) _)

/-! ## 4. Comparing -/

/-- The **comparison of numbers** that bounds stand for. -/
def Bounds.Admits (b : Bounds) (q : ℚ) : Prop :=
  (∀ a, b.above = some a → Double.value a < q) ∧ ∀ c, b.below = some c → q < Double.value c

/-- Finite bounds **compare** a finite number with themselves. -/
theorem Bounds.Finite.contains_iff {b : Bounds} (h : b.Finite) {x : Float} (finite : x.isFinite = true) :
    b.contains x = true ↔ b.Admits (Double.value x) := by
  rw [contains_eq_true_iff]
  refine and_congr (forall₂_congr fun a given => ?_) (forall₂_congr fun c given => ?_)
  · exact Double.lt_iff (h.above a given) finite
  · exact Double.lt_iff finite (h.below c given)

/-- **How numbers are stored and compared** in a world: as numbers. -/
structure Decided (w : World) : Prop where
  /-- What is stored is finite. -/
  stored : ∀ key x, w.store.number? key = some x → x.isFinite = true
  /-- So is what the next listener is told. -/
  told : ∀ key x listener, w.hearing? = some (.number key x listener) → x.isFinite = true
  /-- If that is the threshold of a rule, the number is compared with its bounds. -/
  thresholds : ∀ key x place entity bounds,
    w.hearing? = some (.number key x (.threshold place entity bounds)) →
    (bounds.contains x = true ↔ bounds.Admits (Double.value x))
  /-- For the numeric conditions of rules, what is stored is compared with their bounds. -/
  conditions : ∀ r ∈ w.registrations, ∀ entity bounds,
    Condition.numericCompare entity bounds ∈ r.rule.conditions →
    ((Condition.numericCompare entity bounds).holds w.store.reading = true
      ↔ bounds.Admits (Double.value (w.store.number entity)))

/-- What the next listener to numbers is told **is finite**, and so are its bounds. -/
theorem World.Finite.of_hearing? {w : World} (h : w.Finite) {key : String} {x : Float}
    {listener : NumberListener} (next : w.hearing? = some (.number key x listener)) :
    x.isFinite = true ∧ listener.Finite := by
  obtain ⟨frame, top, first⟩ := Option.bind_eq_some_iff.mp next
  have finite : frame.Finite := h.provided.ledger.stack frame (List.mem_of_mem_head? top)
  obtain ⟨later, calls⟩ := List.head?_eq_some_iff.mp first
  cases frame with
  | tellNumber key' x' listeners =>
    obtain ⟨listener', rest, rfl, told, -⟩ := List.map_eq_cons_iff.mp calls
    obtain ⟨-, rfl, rfl⟩ := Hearing.number.inj told
    exact ⟨finite.1, finite.2 _ List.mem_cons_self⟩
  | deliver event handlers =>
    obtain ⟨_, _, _, told, -⟩ := List.map_eq_cons_iff.mp calls
    cases told
  | tellText key' value listeners =>
    obtain ⟨_, _, _, told, -⟩ := List.map_eq_cons_iff.mp calls
    cases told
  | perform | respond | record | lines | execute | serve | resume | drain | advanceTo | leap =>
    cases calls

/-- A world all of whose numbers are finite **compares numbers**. -/
theorem World.Finite.decided {w : World} (h : w.Finite) : Decided w where
  stored := h.store.numbers
  told key x listener next := (h.of_hearing? next).1
  thresholds key x place entity bounds next :=
    Bounds.Finite.contains_iff ((h.of_hearing? next).2 place entity bounds rfl) (h.of_hearing? next).1
  conditions r member entity bounds guard := by
    have rule : r.rule.Finite := h.provided.ledger.rules r.bare (List.mem_map_of_mem member)
    exact Bounds.Finite.contains_iff (rule.conditions _ guard entity bounds rfl) (h.store.number entity)

/-- **The numbers of the daemon are finite at any point of any history**, and thresholds and numeric
conditions compare them with their bounds: it has registered the rules of a document, calls the built-in
services, and is given lines of the console, documents, and whatever else is finite. -/
theorem Daemon.decided_after {document : String} {batch : Batch} (read : Batch.read document = .ok batch)
    (wallClock : Timestamp) {moves : List Move} (finite : ∀ m ∈ moves, m.Finite) :
    Decided ((Daemon.start wallClock batch.rules).after Service.executor moves) :=
  ((Daemon.finite_start wallClock (Batch.finite_of_read read)).after Service.finite_executor
    finite).decided

/-- A document with one rule, which rings when a lamp is too bright. -/
def Daemon.alarmDocument : String :=
  "[[\"alarm\",\"single\",true,[[\"numeric_threshold\",\"lamp\",3]],[],[[\"service_call\",\"ring\"]]]]"

/-- A lamp is set to a number that is too large for a double, and the rule has nothing to compare with
its bound. -/
theorem Daemon.decided_after_huge_number :
    ∃ batch, Batch.read Daemon.alarmDocument = .ok batch ∧ batch.rules.map (·.id) = ["alarm"]
      ∧ Decided ((Daemon.start .first batch.rules).after Service.executor
          (Move.played (.operation (.line "set lamp 1e999")) 3)) := by
  have described : (Batch.read Daemon.alarmDocument).toOption.map (fun b => b.rules.map (·.id))
      = some ["alarm"] := by decide +kernel
  have finite : ∀ m ∈ Move.played (.operation (.line "set lamp 1e999")) 3, m.Finite :=
    List.forall_mem_cons.mpr ⟨trivial, fun m member => (List.eq_of_mem_replicate member) ▸ trivial⟩
  cases read : Batch.read Daemon.alarmDocument with
  | error fault =>
    rw [read] at described
    cases described
  | ok batch =>
    rw [read] at described
    exact ⟨batch, rfl, Option.some.inj described, Daemon.decided_after read .first finite⟩

end RuleDispatch
