import RuleDispatch.Proofs.Relevance.Operations

/-! # Steps of two worlds that are akin

Worlds that are akin take the same step, if the event that it may emit is stamped alike in both. A stride
of a run demands the same, and a service call replies the same, as far as it is not disregarded.

* `Frame.Twin` — two things to be done that are the same.
* `World.Akin.execute`, `World.Akin.serve` — runs and service calls.
* `World.Akin.step`, `World.Akin.receive` — one step, and something from outside. -/

namespace RuleDispatch

/-! ## 1. Frames -/

/-- Two things to be done are **the same**, what is disregarded apart. -/
inductive Frame.Twin (c : Disregard) (stamp stamp' : Timestamp → Timestamp) : Frame → Frame → Prop
  | perform {op op' : Operation} (same : c.SameOp op op') : Twin c stamp stamp' (.perform op) (.perform op')
  | respond (answer answer' : Answer) : Twin c stamp stamp' (.respond answer) (.respond answer')
  | record : Twin c stamp stamp' .record .record
  | deliver {e e' : Event} (name : e.name = e'.name) (time : stamp e.timestamp = stamp' e'.timestamp)
      (handlers : List Handler) : Twin c stamp stamp' (.deliver e handlers) (.deliver e' handlers)
  | tellNumber (key : String) (value : Float) (listeners : List NumberListener) :
      Twin c stamp stamp' (.tellNumber key value listeners) (.tellNumber key value listeners)
  | tellText (key value : String) (listeners : List Nat) :
      Twin c stamp stamp' (.tellText key value listeners) (.tellText key value listeners)
  | lines {rest rest' : List (Option String)} (same : rest.map c.line = rest'.map c.line)
      (shown shown' : List String) : Twin c stamp stamp' (.lines rest shown) (.lines rest' shown')
  | execute (id : Nat) : Twin c stamp stamp' (.execute id) (.execute id)
  | serve (id : Nat) {call call' : Call} (same : c.call call = c.call call') :
      Twin c stamp stamp' (.serve id call) (.serve id call')
  | resume (task : Task) : Twin c stamp stamp' (.resume task) (.resume task)
  | drain : Twin c stamp stamp' .drain .drain
  | advanceTo (time : Nat) : Twin c stamp stamp' (.advanceTo time) (.advanceTo time)
  | leap (ms : Nat) : Twin c stamp stamp' (.leap ms) (.leap ms)

variable {c : Disregard} {stamp stamp' : Timestamp → Timestamp}

/-- Frames that are the same in the guise **are the same**. -/
theorem Frame.twin_of_under {f f' : Frame}
    (same : f.under (c.guise stamp) = f'.under (c.guise stamp')) : f.Twin c stamp stamp' f' := by
  -- a guise changes what a frame holds, never what kind of frame it is
  cases f with
  | perform op =>
    cases f' with
    | perform op' => exact .perform (Disregard.sameOp_of_operation (Frame.perform.inj same))
    | _ => cases same
  | respond answer =>
    cases f' with
    | respond answer' => exact .respond answer answer'
    | _ => cases same
  | record =>
    cases f' with
    | record => exact .record
    | _ => cases same
  | deliver e handlers =>
    cases f' with
    | deliver e' handlers' =>
      obtain ⟨events, rfl⟩ := Frame.deliver.inj same
      obtain ⟨name, time, -⟩ := Event.mk.inj events
      exact .deliver name time handlers
    | _ => cases same
  | tellNumber key value listeners =>
    cases f' with
    | tellNumber key' value' listeners' =>
      obtain ⟨rfl, rfl, rfl⟩ := Frame.tellNumber.inj same
      exact .tellNumber key value listeners
    | _ => cases same
  | tellText key value listeners =>
    cases f' with
    | tellText key' value' listeners' =>
      obtain ⟨rfl, rfl, rfl⟩ := Frame.tellText.inj same
      exact .tellText key value listeners
    | _ => cases same
  | lines rest shown =>
    cases f' with
    | lines rest' shown' => exact .lines (Frame.lines.inj same).1 shown shown'
    | _ => cases same
  | execute id =>
    cases f' with
    | execute id' =>
      obtain rfl := Frame.execute.inj same
      exact .execute id
    | _ => cases same
  | serve id call =>
    cases f' with
    | serve id' call' =>
      obtain ⟨rfl, calls⟩ := Frame.serve.inj same
      exact .serve id calls
    | _ => cases same
  | resume task =>
    cases f' with
    | resume task' =>
      obtain rfl := Frame.resume.inj same
      exact .resume task
    | _ => cases same
  | drain =>
    cases f' with
    | drain => exact .drain
    | _ => cases same
  | advanceTo time =>
    cases f' with
    | advanceTo time' =>
      obtain rfl := Frame.advanceTo.inj same
      exact .advanceTo time
    | _ => cases same
  | leap ms =>
    cases f' with
    | leap ms' =>
      obtain rfl := Frame.leap.inj same
      exact .leap ms
    | _ => cases same

namespace World

variable {w w' : World} {exec exec' : Executor}

/-- An operation that emits **emits its event**, at the present moment if no other is given. -/
theorem emission?_emit {name : String} {time : Option Timestamp} {data : Json} {rest : List Frame}
    (stack : w.stack = .perform (.emit name time data) :: rest) :
    w.emission? = some ⟨name, time.getD (.ofMillis w.now), data⟩ := by
  rw [emission?, notice?, stack]
  rfl

/-- A line that emits **emits its event**, as the wall clock says. -/
theorem emission?_line {line name : String} {data : Json} {rest : List Frame}
    (stack : w.stack = .perform (.line line) :: rest) (read : Command.read line = .ok (.emit name data)) :
    w.emission? = some ⟨name, w.wallClock, data⟩ := by
  rw [emission?, notice?, stack]
  dsimp only
  rw [lineNotice?, read]
  rfl

/-- So does the first of several lines. -/
theorem emission?_lines {line name : String} {data : Json} {lines : List (Option String)}
    {shown : List String} {rest : List Frame} (stack : w.stack = .lines (some line :: lines) shown :: rest)
    (read : Command.read line = .ok (.emit name data)) :
    w.emission? = some ⟨name, w.wallClock, data⟩ := by
  rw [emission?, notice?, stack]
  dsimp only
  rw [lineNotice?, read]
  rfl

namespace Akin

/-! ## 2. Runs -/

/-- The runs of a number are **in the same place** of the same rule. -/
theorem run? (h : Akin c stamp stamp' w w') (id : Nat) :
    (w.run? id = none ∧ w'.run? id = none)
      ∨ ∃ r r', w.run? id = some r ∧ w'.run? id = some r'
        ∧ r.under (c.guise stamp) = r'.under (c.guise stamp') := by
  have same := h.read (·.run? id)
  rw [run?_under, run?_under] at same
  cases found : w.run? id with
  | none =>
    cases found' : w'.run? id with
    | none => exact .inl ⟨rfl, rfl⟩
    | some r' => simp [found, found'] at same
  | some r =>
    cases found' : w'.run? id with
    | none => simp [found, found'] at same
    | some r' =>
      rw [found, found'] at same
      exact .inr ⟨r, r', rfl, rfl, Option.some.inj same⟩

/-- **A service called**: the replies are the same. -/
theorem callService (h : Akin c stamp stamp' w w') (replies : c.SameReplies exec exec') (id : Nat)
    (service : String) (data : Json) :
    Akin c stamp stamp' (w.callService exec id service data)
      (w'.callService exec' id service data) := by
  have counted : Akin c stamp stamp' { w.record (.call service data) with calls := w.calls + 1 }
      { w'.record (.call service data) with calls := w'.calls + 1 } :=
    (h.record rfl).map (f := fun u => { u with calls := u.calls + 1 }) fun _ _ => rfl
  obtain ⟨effects, result⟩ := replies w.calls service data
  refine counted.push ?_
  show [Frame.serve id ⟨service, _, _⟩] = [Frame.serve id ⟨service, _, _⟩]
  rw [← h.calls, effects, result]

/-- What a stride **demands**. -/
theorem meet (h : Akin c stamp stamp' w w') (replies : c.SameReplies exec exec') {r r' : Run}
    (same : r.under (c.guise stamp) = r'.under (c.guise stamp')) (demand : Demand) :
    Akin c stamp stamp' (w.meet exec r demand) (w'.meet exec' r' demand) := by
  obtain ⟨id, -⟩ := Run.mk.inj same
  unfold World.meet
  cases demand with
  | nothing =>
    dsimp only
    rw [id]
    exact h.push rfl
  | call service data =>
    dsimp only
    rw [id]
    exact h.callService replies r'.id service data
  | wait ms =>
    dsimp only
    rw [id]
    exact h.map (under_waitFor · · r'.id ms)
  | stop =>
    dsimp only
    rw [id]
    exact (h.record rfl).push rfl
  | finish =>
    dsimp only
    rw [Akin, under_finishRun, under_finishRun, h, same]

/-- **A stride** of a run. -/
theorem execute (h : Akin c stamp stamp' w w') (replies : c.SameReplies exec exec') (id : Nat) :
    Akin c stamp stamp' (w.execute exec id) (w'.execute exec' id) := by
  unfold World.execute
  rcases h.run? id with ⟨none, none'⟩ | ⟨r, r', found, found', same⟩
  · rw [none, none']
    exact h
  · obtain ⟨-, -, progress, -, cancelled⟩ := Run.mk.inj same
    have strode (next : Progress) :
        Akin c stamp stamp' (w.modifyRun id fun r => { r with progress := next })
          (w'.modifyRun id fun r => { r with progress := next }) := by
      have guised (stamp : Timestamp → Timestamp) (u : World) :=
        under_modifyRun (c.guise stamp) u id (f := fun r => { r with progress := next })
          (k := fun r => { r with progress := next }) fun _ _ => rfl
      rw [Akin, guised, guised, h]
    have later (next : Progress) : Run.under (c.guise stamp) { r with progress := next }
        = Run.under (c.guise stamp') { r' with progress := next } :=
      (congrArg (fun s : Run => { s with progress := next }) same :)
    rw [found, found']
    dsimp only
    rw [show r.progress = r'.progress from progress, cancelled]
    exact (strode _).meet replies (later _) _

/-- **The end of a service call.** -/
theorem endCall (h : Akin c stamp stamp' w w') (id : Nat) {call call' : Call}
    (service : call.service = call'.service) (result : call.result = call'.result) :
    Akin c stamp stamp' (w.endCall id call) (w'.endCall id call') := by
  unfold World.endCall
  rw [service, result]
  cases call'.result with
  | done => exact h.push rfl
  | failed reason => exact (h.records rfl rfl).push rfl
  | panicked =>
    dsimp only
    rcases h.run? id with ⟨none, none'⟩ | ⟨r, r', found, found', same⟩
    · rw [none, none']
      exact h
    · rw [found, found']
      dsimp only
      rw [Akin, under_panicRun, under_panicRun, h, same]

/-- **A step of a service call.** -/
theorem serve (h : Akin c stamp stamp' w w') (id : Nat) {call call' : Call}
    (same : c.call call = c.call call') : Akin c stamp stamp' (w.serve id call) (w'.serve id call') := by
  obtain ⟨service, effects, result⟩ := call
  obtain ⟨service', effects', result'⟩ := call'
  obtain ⟨rfl, effects_same, rfl⟩ := Call.mk.inj same
  unfold World.serve
  dsimp only
  cases effects with
  | nil =>
    obtain rfl := List.map_eq_nil_iff.mp effects_same.symm
    -- nothing is left to do for the call in either world
    exact h.endCall id rfl rfl
  | cons effect rest =>
    obtain ⟨effect', rest', rfl, first, later⟩ := List.map_eq_cons_iff.mp effects_same.symm
    have left : c.call ⟨service, rest, result⟩ = c.call ⟨service, rest', result⟩ :=
      congrArg (Call.mk service · result) later.symm
    cases effect with
    | act op recorded =>
      cases effect' with
      | pause => cases first
      | act op' recorded' =>
        obtain ⟨ops, rfl⟩ := Effect.act.inj first
        refine h.push ?_
        cases recorded'
        · show [Frame.perform (c.operation op), .serve id (c.call _)]
            = [.perform (c.operation op'), .serve id (c.call _)]
          rw [ops, left]
        · show [Frame.perform (c.operation op), .record, .serve id (c.call _)]
            = [.perform (c.operation op'), .record, .serve id (c.call _)]
          rw [ops, left]
    | pause ms =>
      cases effect' with
      | act => cases first
      | pause ms' =>
        obtain rfl := Effect.pause.inj first
        -- both clocks show the same time, so both sleep until the same moment
        have moment : w.sleepDeadline ms' = w'.sleepDeadline ms' := by
          rw [World.sleepDeadline, World.sleepDeadline, h.now]
        dsimp only
        split_ifs
        · refine h.push ?_
          show [Frame.serve id (c.call _)] = [.serve id (c.call _)]
          rw [left]
        · have guised (stamp : Timestamp → Timestamp) (u : World) (deadline : Nat) (call : Call) :=
            under_modifyRun (c.guise stamp) u id (f := fun r => { r with phase := .calling deadline call })
              (k := fun r => { r with phase := .calling deadline (c.call call) }) fun _ _ => rfl
          rw [Akin, guised, guised, h, moment, left]

/-! ## 3. One step -/

/-- **One step** of both worlds, if the event that it may emit is stamped alike. -/
theorem step (h : Akin c stamp stamp' w w') (unread : c.Unread w) (replies : c.SameReplies exec exec')
    (inStep : InStep stamp stamp')
    (stamped : ∀ e e', w.emission? = some e → w'.emission? = some e' →
      stamp e.timestamp = stamp' e'.timestamp) :
    Akin c stamp stamp' (w.step exec) (w'.step exec') := by
  have both : w.stack.map (·.under (c.guise stamp)) = w'.stack.map (·.under (c.guise stamp')) :=
    h.read World.stack
  cases stack : w.stack with
  | nil =>
    rw [stack] at both
    rw [step_idle exec w stack, step_idle exec' w' (List.map_eq_nil_iff.mp both.symm)]
    exact h
  | cons f rest =>
    rw [stack] at both
    obtain ⟨f', rest', stack', first, later⟩ := List.map_eq_cons_iff.mp both.symm
    -- the frame is taken off the stack first, so what is done with it begins in worlds that are akin
    have below : Akin c stamp stamp' { w with stack := rest } { w' with stack := rest' } := by
      have same := h.read fun u => { u with stack := rest.map (Frame.under (c.guise stamp)) }
      exact same.trans
        (congrArg (fun stack => { w'.under (c.guise stamp') with stack }) later.symm)
    have pushed {f k : Frame} (same : f.under (c.guise stamp) = k.under (c.guise stamp')) :
        Akin c stamp stamp' (World.push { w with stack := rest } [f])
          (World.push { w' with stack := rest' } [k]) :=
      below.push (congrArg (fun f => [f]) same)
    unfold World.step
    rw [stack, stack']
    show Akin c stamp stamp' (World.act { w with stack := rest } exec f)
      (World.act { w' with stack := rest' } exec' f')
    cases Frame.twin_of_under first.symm with
    | perform same =>
      refine below.perform unread same ?_ ?_
      · rintro name time data time' data' rfl rfl
        exact stamped _ _ (emission?_emit stack) (emission?_emit stack')
      · rintro line line' name data data' rfl rfl read read'
        exact stamped _ _ (emission?_line stack read) (emission?_line stack' read')
    | respond answer answer' => exact below
    | record => exact below.records rfl rfl
    | @deliver e e' name time handlers =>
      cases handlers with
      | nil => exact below
      | cons handler handlers =>
        have left := pushed (f := .deliver e handlers) (k := .deliver e' handlers) (by
          show Frame.deliver ⟨e.name, stamp e.timestamp, .null⟩ _
            = .deliver ⟨e'.name, stamp' e'.timestamp, .null⟩ _
          rw [name, time])
        exact left.handle unread inStep name time handler
    | tellNumber key value listeners =>
      cases listeners with
      | nil => exact below
      | cons listener listeners =>
        have left := pushed (f := .tellNumber key value listeners)
          (k := .tellNumber key value listeners) rfl
        exact left.hearNumber unread key value listener
    | tellText key value listeners =>
      cases listeners with
      | nil => exact below
      | cons listener listeners =>
        have left := pushed (f := .tellText key value listeners) (k := .tellText key value listeners) rfl
        exact left.hearText key value listener
    | lines same shown shown' =>
      refine below.readLines shown shown' same ?_
      rintro line line' rest rest' name data data' rfl rfl read read'
      exact stamped _ _ (emission?_lines stack read) (emission?_lines stack' read')
    | execute id => exact below.execute replies id
    | serve id same => exact below.serve id same
    | resume task =>
      cases task with
      | run id => exact below.map (under_resumeRun · · id)
      | timer index => exact below.tick unread index
    | drain => exact below.map under_drain
    | advanceTo time => exact below.map (under_advanceTo · · time)
    | leap ms => exact below.map (under_leap · · ms)

/-- **Something from outside**, the same in both worlds. -/
theorem receive (h : Akin c stamp stamp' w w') {s s' : Stimulus} (same : c.stimulus s = c.stimulus s') :
    Akin c stamp stamp' (w.receive s) (w'.receive s') := by
  cases s with
  | operation op =>
    cases s' with
    | operation op' =>
      have ops : c.operation op = c.operation op' := Stimulus.operation.inj same
      refine h.push ?_
      show [Frame.perform (c.operation op)] = [.perform (c.operation op')]
      rw [ops]
    | advance => cases same
    | jump => cases same
  | advance ms =>
    cases s' with
    | advance ms' =>
      obtain rfl := Stimulus.advance.inj same
      refine h.push ?_
      rw [h.now]
      rfl
    | operation => cases same
    | jump => cases same
  | jump ms =>
    cases s' with
    | jump ms' =>
      obtain rfl := Stimulus.jump.inj same
      exact h.push rfl
    | operation => cases same
    | advance => cases same

end Akin

end World

end RuleDispatch
