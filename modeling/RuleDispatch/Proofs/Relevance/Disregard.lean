import RuleDispatch.Proofs.Guises.Engine

/-! # What may be disregarded

Emissions that are still to come may differ in their moments and payloads, and stored values that nobody
reads may differ altogether. This says which operations, replies and lines of the console are the same
when that is disregarded, and puts the world in a guise in which it does not show.

* `Operation.plain`, `Reply.plain`, `Move.plain` — without the moments and payloads of emissions.
* `Disregard` — what is disregarded.
* `Disregard.SameOp` — which operations are the same then.
* `Disregard.guise` — the guise of the world; moments that have come are stamped anew. -/

namespace RuleDispatch

/-! ## 1. Emissions without moments and payloads -/

/-- What a line of the console says, **the payload of an event apart**: the name of the event, or the
line itself. -/
def lineGist (line : String) : String ⊕ String :=
  match Command.read line with
  | .ok (.emit name _) => .inl name
  | .ok _ | .error _ => .inr line

/-- What console input says, line by line, the payloads of events apart. -/
def inputGist (bytes : List UInt8) : List (Option (String ⊕ String)) :=
  (Console.readLines bytes).map (Option.map lineGist)

/-- Two lines that say the same are **one line, or two emissions of one name**. -/
theorem cases_of_lineGist {line line' : String} (same : lineGist line = lineGist line') :
    line = line' ∨ ∃ name data data', Command.read line = .ok (.emit name data)
      ∧ Command.read line' = .ok (.emit name data') := by
  unfold lineGist at same
  split at same
  · next name data read =>
    split at same
    · next name' data' read' =>
      obtain rfl := Sum.inl.inj same
      exact .inr ⟨name, data, data', read, read'⟩
    · cases same
    · cases same
  · split at same
    · cases same
    · exact .inl (Sum.inr.inj same)
    · exact .inl (Sum.inr.inj same)
  · split at same
    · cases same
    · exact .inl (Sum.inr.inj same)
    · exact .inl (Sum.inr.inj same)

/-- **One and the same** for all that are alike in some respect. -/
noncomputable def typical {α β : Type} [Nonempty α] (f : α → β) (a : α) : α :=
  Function.invFun f (f a)

/-- It is **alike in this respect**, too. -/
theorem apply_typical {α β : Type} [Nonempty α] (f : α → β) (a : α) : f (typical f a) = f a :=
  Function.invFun_eq ⟨a, rfl⟩

/-- It is the same for those, and for **no others**. -/
theorem typical_eq_typical_iff {α β : Type} [Nonempty α] {f : α → β} {a b : α} :
    typical f a = typical f b ↔ f a = f b := by
  constructor
  · intro same
    rw [← apply_typical f a, same, apply_typical f b]
  · intro same
    rw [typical, same, typical]

mutual

/-- An operation **without the moments and payloads** of the events that it emits, or that callbacks
installed by it emit. -/
noncomputable def Operation.plain : Operation → Operation
  | .emit name _ _ => .emit name none .null
  | .line text => .line (typical lineGist text)
  | .console bytes => .console (typical inputGist bytes)
  | .subscribe label name script => .subscribe label name (Operation.plainScript script)
  | .listenNumber label script => .listenNumber label (Operation.plainScript script)
  | .listenText label script => .listenText label (Operation.plainScript script)
  | .watch label sequence withinMs script =>
    .watch label sequence withinMs (Operation.plainScript script)
  | .timer label ms script => .timer label ms (Operation.plainScript script)
  | op => op

/-- A script without them. -/
noncomputable def Operation.plainScript : Script Operation → Script Operation
  | ⟨operations, times⟩ => ⟨Operation.plainAll operations, times⟩

/-- Operations without them. -/
noncomputable def Operation.plainAll : List Operation → List Operation
  | [] => []
  | op :: rest => op.plain :: Operation.plainAll rest

end

/-- Several operations are made plain **one by one**. -/
theorem Operation.plainAll_eq_map (ops : List Operation) : plainAll ops = ops.map plain := by
  induction ops with
  | nil => rfl
  | cons op rest ih => rw [plainAll, ih, List.map_cons]

/-- An effect of a service call without the moments and payloads of emissions. -/
noncomputable def Effect.plain : Effect → Effect
  | .act op recorded => .act op.plain recorded
  | .pause ms => .pause ms

/-- A reply without them. -/
noncomputable def Reply.plain (r : Reply) : Reply :=
  { r with effects := r.effects.map Effect.plain }

/-- Something from outside without them. -/
noncomputable def Stimulus.plain : Stimulus → Stimulus
  | .operation op => .operation op.plain
  | .advance ms => .advance ms
  | .jump ms => .jump ms

/-- Whether an operation **has nothing to disregard** in it: it is no emission, no console input, and it
installs no callback. -/
def Operation.isRigid : Operation → Bool
  | .emit _ _ _ | .line _ | .console _ | .subscribe _ _ _ | .listenNumber _ _ | .listenText _ _
  | .watch _ _ _ _ | .timer _ _ _ => false
  | .subscribeAgain _ _ _ | .unsubscribe _ _ | .subscribers _ | .setNumber _ _ | .setText _ _ | .get _
  | .unlisten _ | .listeners | .watchDispose _ | .watchState _ | .watchDrop _ | .timerCancel _
  | .timerActive _ | .timerDrop _ | .run _ _ | .cancel _ | .isCancelled _ | .describe _
  | .register _ | .load _ | .unregister _ | .trigger _ | .ruleIds | .isRunning _ | .disposeAll
  | .dropEngine => true

/-- An operation that is rigid **is plain already**. -/
theorem Operation.plain_of_isRigid {op : Operation} (rigid : op.isRigid = true) : op.plain = op := by
  cases op <;> first | rfl | cases rigid

/-- To make an operation plain leaves it **rigid if it was**. -/
theorem Operation.isRigid_plain (op : Operation) : op.plain.isRigid = op.isRigid := by
  cases op <;> rfl


/-! ## 2. What is disregarded -/

/-- What is **disregarded**: the moments and payloads of the events that are still to be emitted, or not;
and some of the stored values. -/
structure Disregard where
  contents : Bool
  values : Source → Bool

namespace Disregard

variable {c : Disregard}

/-- An operation without what is disregarded. -/
noncomputable def operation (c : Disregard) (op : Operation) : Operation :=
  if c.contents then op.plain else op

/-- A line of the console without what is disregarded. -/
noncomputable def line (c : Disregard) (line : Option String) : Option String :=
  if c.contents then typical (Option.map lineGist) line else line

/-- What a callback is going to do, without what is disregarded. One that does nothing anyway may be
called as often as one likes. -/
noncomputable def script (c : Disregard) : Script Operation → Script Operation
  | ⟨[], _⟩ => ⟨[], 0⟩
  | ⟨op :: rest, times⟩ => ⟨(op :: rest).map c.operation, times⟩

/-- An effect of a service call without what is disregarded. -/
noncomputable def effect (c : Disregard) : Effect → Effect
  | .act op recorded => .act (c.operation op) recorded
  | .pause ms => .pause ms

/-- A service call under way without what is disregarded. -/
noncomputable def call (c : Disregard) (call : Call) : Call :=
  { call with effects := call.effects.map c.effect }

/-- Two executors give **the same replies**, what is disregarded apart. -/
def SameReplies (c : Disregard) (exec exec' : Executor) : Prop :=
  ∀ calls service data,
    (exec calls service data).effects.map c.effect = (exec' calls service data).effects.map c.effect
      ∧ (exec calls service data).result = (exec' calls service data).result

/-- Something from outside without what is disregarded. -/
noncomputable def stimulus (c : Disregard) : Stimulus → Stimulus
  | .operation op => .operation (c.operation op)
  | .advance ms => .advance ms
  | .jump ms => .jump ms

/-! ## 3. Scripts and lines -/

/-- Two scripts **do the same on the next call**, and are the same afterwards. -/
theorem script_call {s s' : Script Operation} (same : c.script s = c.script s') :
    s.call.1.map c.operation = s'.call.1.map c.operation ∧ c.script s.call.2 = c.script s'.call.2 := by
  obtain ⟨ops, times⟩ := s
  obtain ⟨ops', times'⟩ := s'
  cases ops with
  | nil =>
    cases ops' with
    | nil => cases times <;> cases times' <;> exact ⟨rfl, rfl⟩
    | cons op' rest' => cases congrArg Script.operations same
  | cons op rest =>
    cases ops' with
    | nil => cases congrArg Script.operations same
    | cons op' rest' =>
      have ops := congrArg Script.operations same
      obtain rfl : times = times' := congrArg Script.times same
      cases times with
      | zero => exact ⟨rfl, same⟩
      | succ times => exact ⟨ops, congrArg (Script.mk · times) ops⟩

/-- A callback that does nothing is the same **after it was called**. -/
theorem script_of_onCall {s : Script Operation} (silent : s.onCall 0 = []) :
    c.script s.call.2 = c.script s := by
  obtain ⟨ops, times⟩ := s
  cases times with
  | zero => rfl
  | succ times =>
    obtain rfl : ops = [] := silent
    rfl

/-- Two lines of the console are **the same**: one line, or two emissions of one name. -/
inductive SameLine (c : Disregard) : String → String → Prop
  /-- A line is what it is. -/
  | one (line : String) : SameLine c line line
  /-- Two emissions of one name. -/
  | emission {line line' name : String} {data data' : Json} (contents : c.contents = true)
      (read : Command.read line = .ok (.emit name data))
      (read' : Command.read line' = .ok (.emit name data')) : SameLine c line line'

/-- Where contents do not matter, lines with the same gist **are the same**. -/
theorem sameLine_of_lineGist {line line' : String} (contents : c.contents = true)
    (same : lineGist line = lineGist line') : c.SameLine line line' := by
  rcases cases_of_lineGist same with rfl | ⟨name, data, data', read, read'⟩
  · exact .one line
  · exact .emission contents read read'

/-- What is left of two lines when it is the same: **the lines are the same**, or both are no text. -/
theorem sameLine_of_line {line line' : Option String} (same : c.line line = c.line line') :
    line = none ∧ line' = none
      ∨ ∃ text text', line = some text ∧ line' = some text' ∧ c.SameLine text text' := by
  unfold Disregard.line at same
  by_cases contents : c.contents = true
  · rw [if_pos contents, if_pos contents, typical_eq_typical_iff] at same
    cases line with
    | none =>
      cases line' with
      | none => exact .inl ⟨rfl, rfl⟩
      | some text' => cases same
    | some text =>
      cases line' with
      | none => cases same
      | some text' =>
        exact .inr ⟨text, text', rfl, rfl, sameLine_of_lineGist contents (Option.some.inj same)⟩
  · rw [if_neg contents, if_neg contents] at same
    subst same
    cases line with
    | none => exact .inl ⟨rfl, rfl⟩
    | some text => exact .inr ⟨text, text, rfl, rfl, .one text⟩

/-- Console input that says the same comes in **the same lines**. -/
theorem lines_of_inputGist {bytes bytes' : List UInt8} (contents : c.contents = true)
    (same : inputGist bytes = inputGist bytes') :
    (Console.readLines bytes).map c.line = (Console.readLines bytes').map c.line := by
  have line : c.line = fun line => Function.invFun (Option.map lineGist) (Option.map lineGist line) := by
    funext line
    rw [Disregard.line, if_pos contents]
    rfl
  have typed := congrArg (List.map (Function.invFun (Option.map lineGist))) same
  rw [inputGist, inputGist, List.map_map, List.map_map] at typed
  rw [line]
  exact typed

/-! ## 4. Operations -/

/-- Two operations are **the same**, what is disregarded apart. -/
inductive SameOp (c : Disregard) : Operation → Operation → Prop
  /-- There is nothing to disregard in it. -/
  | rigid {op : Operation} (rigid : op.isRigid = true) : SameOp c op op
  /-- An emission, with any payload and at any time if contents are disregarded. -/
  | emit (name : String) {time time' : Option Timestamp} {data data' : Json}
      (same : c.contents = false → time = time' ∧ data = data') :
      SameOp c (.emit name time data) (.emit name time' data')
  /-- A line of the console. -/
  | line {line line' : String} (same : c.SameLine line line') : SameOp c (.line line) (.line line')
  /-- Console input, line by line. -/
  | console {bytes bytes' : List UInt8}
      (same : (Console.readLines bytes).map c.line = (Console.readLines bytes').map c.line) :
      SameOp c (.console bytes) (.console bytes')
  | subscribe (label name : String) {s s' : Script Operation} (same : c.script s = c.script s') :
      SameOp c (.subscribe label name s) (.subscribe label name s')
  | listenNumber (label : String) {s s' : Script Operation} (same : c.script s = c.script s') :
      SameOp c (.listenNumber label s) (.listenNumber label s')
  | listenText (label : String) {s s' : Script Operation} (same : c.script s = c.script s') :
      SameOp c (.listenText label s) (.listenText label s')
  | watch (label : String) (sequence : List String) (withinMs : UInt64) {s s' : Script Operation}
      (same : c.script s = c.script s') :
      SameOp c (.watch label sequence withinMs s) (.watch label sequence withinMs s')
  | timer (label : String) (ms : UInt64) {s s' : Script Operation} (same : c.script s = c.script s') :
      SameOp c (.timer label ms s) (.timer label ms s')

/-- An operation is the same **as itself**. -/
theorem sameOp_refl (op : Operation) : c.SameOp op op := by
  cases op with
  | emit name time data => exact .emit name fun _ => ⟨rfl, rfl⟩
  | line text => exact .line (.one text)
  | console bytes => exact .console rfl
  | subscribe label name s => exact .subscribe label name rfl
  | listenNumber label s => exact .listenNumber label rfl
  | listenText label s => exact .listenText label rfl
  | watch label sequence withinMs s => exact .watch label sequence withinMs rfl
  | timer label ms s => exact .timer label ms rfl
  | subscribeAgain | unsubscribe | subscribers | setNumber | setText | get | unlisten | listeners
  | watchDispose | watchState | watchDrop | timerCancel | timerActive | timerDrop | run | cancel
  | isCancelled | describe | register | load | unregister | trigger | ruleIds | isRunning | disposeAll
  | dropEngine => exact .rigid rfl

/-- Scripts that are the same **without moments and payloads**. -/
theorem script_of_plainScript (contents : c.contents = true) {s s' : Script Operation}
    (same : Operation.plainScript s = Operation.plainScript s') : c.script s = c.script s' := by
  have operation : c.operation = Operation.plain := by
    funext op
    rw [Disregard.operation, if_pos contents]
  obtain ⟨ops, times⟩ := s
  obtain ⟨ops', times'⟩ := s'
  obtain ⟨ops_same, rfl⟩ := Script.mk.inj same
  rw [Operation.plainAll_eq_map, Operation.plainAll_eq_map, ← operation] at ops_same
  cases ops with
  | nil =>
    obtain rfl := List.map_eq_nil_iff.mp ops_same.symm
    rfl
  | cons op rest =>
    cases ops' with
    | nil => cases ops_same
    | cons op' rest' => exact congrArg (Script.mk · times) ops_same

/-- Operations that are the same **without moments and payloads**. -/
theorem sameOp_of_plain (contents : c.contents = true) {op op' : Operation}
    (same : op.plain = op'.plain) : c.SameOp op op' := by
  by_cases rigid : op.isRigid = true
  · have rigid' : op'.isRigid = true := by
      rw [← op'.isRigid_plain, ← same, op.isRigid_plain, rigid]
    rw [Operation.plain_of_isRigid rigid, Operation.plain_of_isRigid rigid'] at same
    subst same
    exact .rigid rigid
  · cases op with
    | emit name time data =>
      cases op' with
      | emit name' time' data' =>
        obtain rfl : name = name' := (Operation.emit.inj same).1
        exact .emit name fun none => absurd contents (Bool.eq_false_iff.mp none)
      | _ => cases same
    | line text =>
      cases op' with
      | line text' =>
        have gist := typical_eq_typical_iff.mp (Operation.line.inj same)
        exact .line (sameLine_of_lineGist contents gist)
      | _ => cases same
    | console bytes =>
      cases op' with
      | console bytes' =>
        have gist := typical_eq_typical_iff.mp (Operation.console.inj same)
        exact .console (lines_of_inputGist contents gist)
      | _ => cases same
    | subscribe label name s =>
      cases op' with
      | subscribe label' name' s' =>
        obtain ⟨rfl, rfl, scripts⟩ := Operation.subscribe.inj same
        exact .subscribe label name (script_of_plainScript contents scripts)
      | _ => cases same
    | listenNumber label s =>
      cases op' with
      | listenNumber label' s' =>
        obtain ⟨rfl, scripts⟩ := Operation.listenNumber.inj same
        exact .listenNumber label (script_of_plainScript contents scripts)
      | _ => cases same
    | listenText label s =>
      cases op' with
      | listenText label' s' =>
        obtain ⟨rfl, scripts⟩ := Operation.listenText.inj same
        exact .listenText label (script_of_plainScript contents scripts)
      | _ => cases same
    | watch label sequence withinMs s =>
      cases op' with
      | watch label' sequence' withinMs' s' =>
        obtain ⟨rfl, rfl, rfl, scripts⟩ := Operation.watch.inj same
        exact .watch label sequence withinMs (script_of_plainScript contents scripts)
      | _ => cases same
    | timer label ms s =>
      cases op' with
      | timer label' ms' s' =>
        obtain ⟨rfl, rfl, scripts⟩ := Operation.timer.inj same
        exact .timer label ms (script_of_plainScript contents scripts)
      | _ => cases same
    | _ => exact absurd rfl rigid

/-- What is left of two operations when it is the same: **the operations are the same**. -/
theorem sameOp_of_operation {op op' : Operation} (same : c.operation op = c.operation op') :
    c.SameOp op op' := by
  unfold Disregard.operation at same
  by_cases contents : c.contents = true
  · rw [if_pos contents, if_pos contents] at same
    exact sameOp_of_plain contents same
  · rw [if_neg contents, if_neg contents] at same
    exact same ▸ sameOp_refl op

/-! ## 5. The guise -/

/-- The world **without what is disregarded**. The moments that have come are stamped anew, what callbacks
were told is forgotten, and so is what was answered and shown. -/
noncomputable def guise (c : Disregard) (stamp : Timestamp → Timestamp) : Guise where
  clock time := if c.contents then .first else time
  numbers := List.filter fun entry => !c.values (.number entry.1)
  texts := List.filter fun entry => !c.values (.text entry.1)
  script := c.script
  matcher m := { m with start := m.start.map stamp }
  call _ := c.call
  operation := c.operation
  event e := ⟨e.name, stamp e.timestamp, .null⟩
  line := c.line
  shown _ := []
  answer _ := .done
  log := List.filter (·.2.isSteady)
  matcher_fresh _ _ := rfl
  log_cons _ _ _ steady := List.filter_cons_of_pos steady

/-- The guise of what is disregarded **spares every run**. -/
theorem spares_guise (c : Disregard) (stamp : Timestamp → Timestamp) (id : Nat) :
    (c.guise stamp).Spares id :=
  fun _ => rfl

end Disregard

end RuleDispatch
