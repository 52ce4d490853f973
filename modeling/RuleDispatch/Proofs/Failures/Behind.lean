import RuleDispatch.Proofs.Failures.Veil

/-! # Steps behind a veil

What is done for an operation, an event, a write or a tick is the same behind a veil, as long as the
veil spares the runs that it starts. A stride is the same if the veil spares the run and the executor
answers its calls as the veil has it.

* `World.behind_perform`, `World.behind_handle`, … — what is done between strides.
* `World.behind_execute`, `World.behind_serve` — strides and service calls.
* `World.Overlooks`, `World.behind_step` — one step of the world. -/

namespace RuleDispatch

/-- A reply to a call of a run behind a veil. -/
def Reply.behind (v : Veil) (id : Nat) (r : Reply) : Reply :=
  { r with result := v.result id r.result }

namespace World

variable (v : Veil) (w : World)

/-! ## 1. Calls -/

/-- What a script does **looks the same behind a veil**. -/
theorem map_behind_scriptFrames (ops : List Operation) :
    (scriptFrames ops).map (·.behind v) = scriptFrames ops := by
  simp only [scriptFrames, List.map_flatMap, List.map_cons, List.map_nil, Frame.behind]

/-- **Calling a callback** is the same behind a veil. -/
theorem behind_runCallback (index : Nat) {entry : String → Entry}
    (loud : ∀ label, (entry label).isFailure = false) :
    (w.runCallback index entry).behind v = (w.behind v).runCallback index entry := by
  unfold runCallback
  rw [callbacks_behind]
  cases w.callbacks[index]? with
  | none => rfl
  | some c =>
    dsimp only
    rw [behind_push, map_behind_scriptFrames, ← behind_record v w (loud c.label)]
    rfl

/-- **Calling a target** is the same behind a veil that spares the next run. -/
theorem behind_callTarget {entry : String → Entry} (loud : ∀ label, (entry label).isFailure = false)
    (target : Target) (spares : v.Spares w.nextRun) :
    (w.callTarget entry target).behind v = (w.behind v).callTarget entry target := by
  cases target with
  | callback index => exact behind_runCallback v w index loud
  | rule index => exact behind_fire v w index spares

/-- **Settling what a watcher made of an event** is the same behind a veil that spares the next run. -/
theorem behind_settleWatcher (watcher : Watcher) (name : String) (outcome : Outcome)
    (spares : v.Spares w.nextRun) :
    (w.settleWatcher watcher name outcome).behind v
      = (w.behind v).settleWatcher watcher name outcome := by
  unfold settleWatcher
  split
  · split_ifs
    · rfl
    · exact behind_callTarget v w (fun _ => rfl) watcher.target spares
  · exact behind_note v w rfl
  · rfl

/-- **Showing an event to a watcher** is the same behind a veil that spares the next run. -/
theorem behind_observe (event : Event) (index : Nat) (spares : v.Spares w.nextRun) :
    (w.observe event index).behind v = (w.behind v).observe event index := by
  unfold observe
  rw [watchers_behind]
  cases w.watchers[index]? with
  | none => rfl
  | some watcher => exact behind_settleWatcher v _ watcher event.name _ spares

/-- **Handing an event to a handler** is the same behind a veil. -/
theorem behind_handle (event : Event) (handler : Handler) (spares : v.Spares w.nextRun) :
    (w.handle event handler).behind v = (w.behind v).handle event handler := by
  cases handler with
  | target target => exact behind_callTarget v w (fun _ => rfl) target spares
  | watcher index => exact behind_observe v w event index spares

/-- **Telling of a number** is the same behind a veil. -/
theorem behind_hearNumber (key : String) (value : Float) (listener : NumberListener)
    (spares : v.Spares w.nextRun) :
    (w.hearNumber key value listener).behind v = (w.behind v).hearNumber key value listener := by
  cases listener with
  | callback index => exact behind_runCallback v w index fun _ => rfl
  | threshold rule entity bounds =>
    unfold hearNumber
    dsimp only
    split_ifs
    · exact behind_fire v w rule spares
    · rfl

/-- **Telling a listener of a text** is the same behind a veil. -/
theorem behind_hearText (key value : String) (index : Nat) :
    (w.hearText key value index).behind v = (w.behind v).hearText key value index :=
  behind_runCallback v w index fun _ => rfl

/-- **A tick** is the same behind a veil. -/
theorem behind_tick (index : Nat) (spares : v.Spares w.nextRun) :
    (w.tick index).behind v = (w.behind v).tick index := by
  unfold tick
  rw [timers_behind]
  cases w.timers[index]? with
  | none => rfl
  | some t =>
    dsimp only
    rw [now_behind]
    split_ifs
    · rfl
    · rw [behind_callTarget v _ (fun _ => rfl) t.target, behind_push]
      · rfl
      · exact spares

/-! ## 2. Emissions, writes and the console -/

/-- **Emitting an event** is the same behind a veil. -/
theorem behind_emit (event : Event) : (w.emit event).behind v = (w.behind v).emit event :=
  behind_push v w _

/-- **Writing a number** is the same behind a veil. -/
theorem behind_writeNumber (key : String) (value : Float) :
    (w.writeNumber key value).behind v = (w.behind v).writeNumber key value :=
  behind_push v _ _

/-- **Writing a text** is the same behind a veil. -/
theorem behind_writeText (key value : String) :
    (w.writeText key value).behind v = (w.behind v).writeText key value :=
  behind_push v _ _

/-- **Obeying a command** is the same behind a veil. -/
theorem behind_applyCommand {frames : List Frame} (plain : frames.map (·.behind v) = frames)
    (command : Command) :
    (w.applyCommand frames command).behind v = (w.behind v).applyCommand frames command := by
  have pushed := behind_push v w frames
  rw [plain] at pushed
  cases command with
  | emit name data => exact (behind_emit v _ _).trans (by rw [pushed]; rfl)
  | setNumber key value => exact (behind_writeNumber v _ key value).trans (by rw [pushed]; rfl)
  | setText key value => exact (behind_writeText v _ key value).trans (by rw [pushed]; rfl)
  | get key => exact pushed

/-- **Reading a line** is the same behind a veil. -/
theorem behind_readLine (line : String) : (w.readLine line).behind v = (w.behind v).readLine line := by
  unfold readLine
  split
  · exact behind_applyCommand v w rfl _
  · rfl

/-- **Reading lines** is the same behind a veil. -/
theorem behind_readLines (shown : List String) (lines : List (Option String)) :
    (w.readLines shown lines).behind v = (w.behind v).readLines shown lines := by
  unfold readLines
  split
  · rw [behind_respond, behind_note v _ rfl]
  · rfl
  · split
    · exact behind_applyCommand v w rfl _
    · exact behind_push v w _
    · rw [behind_push, behind_note v _ rfl]
      rfl

/-! ## 3. Operations -/

/-- **A timer with a label** is the same behind a veil. -/
theorem behind_timerAs (label : String) (interval : Nat) (target : Target) :
    (w.timerAs label interval target).behind v = (w.behind v).timerAs label interval target := by
  have added := behind_of_under v w (under_addTimer v.guise · interval target)
  unfold timerAs
  dsimp only
  rw [← added, show (w.behind v).labels = w.labels from rfl]
  cases w.labels.timers.lookup label with
  | none => rfl
  | some index =>
    exact congrArg (fun u : World => u.respond (.flag (u.timerActive w.timers.length)))
      (behind_cancelTimer v _ index)

/-- **What the engine is asked for** is the same behind a veil if the engine does the same. -/
theorem behind_withEngine {act : World → World} (same : (act w).behind v = act (w.behind v)) :
    (w.withEngine act).behind v = (w.behind v).withEngine act := by
  unfold withEngine
  rw [engine_behind]
  split_ifs
  · exact same
  · rfl

/-- **Loading a document** is the same behind a veil. -/
theorem behind_load (document : String) : (w.load document).behind v = (w.behind v).load document := by
  unfold load
  cases Batch.read document with
  | error fault => rfl
  | ok batch =>
    have skipped := behind_of_under v w (under_foldl_skipped v.guise · batch.skipped)
    dsimp only
    rw [behind_respond, behind_of_under v _ (under_registerAll v.guise · batch.rules), skipped]

/-- **What is described** of a world is the same behind a veil. -/
theorem describe_behind (part : Part) : (w.behind v).describe part = w.describe part := rfl

/-- **An operation** is the same behind a veil that spares the run that it may start. -/
theorem behind_perform (op : Operation) (spares : v.Spares w.nextRun) :
    (w.perform op).behind v = (w.behind v).perform op := by
  cases op with
  | subscribe | subscribers | get | listenNumber | listenText | listeners | isCancelled => rfl
  -- a veil leaves the labels alone, so both worlds find the same under each of them
  | subscribeAgain label source name =>
    unfold perform
    dsimp only
    rw [labels_behind]
    cases w.labels.subscriptions.lookup source <;> rfl
  | unsubscribe label name =>
    unfold perform
    dsimp only
    rw [labels_behind]
    cases w.labels.subscriptions.lookup label <;> rfl
  | emit name time data => exact behind_emit v (w.push [.respond .done]) _
  | setNumber key value => exact behind_writeNumber v (w.push [.respond .done]) key value
  | setText key value => exact behind_writeText v (w.push [.respond .done]) key value
  | unlisten label =>
    unfold perform
    dsimp only
    rw [labels_behind]
    cases w.labels.listeners.lookup label <;> rfl
  | watch label sequence withinMs script =>
    exact congrArg (·.respond .done)
      (behind_of_under v (w.addCallback label script) (under_watchAs v.guise · label sequence withinMs _))
  | watchDispose label =>
    unfold perform
    dsimp only
    rw [labels_behind]
    cases w.labels.watchers.lookup label with
    | none => rfl
    | some index =>
      exact congrArg (fun u : World => u.respond (.watcher (u.watcherDisposed index)))
        (behind_disposeWatcher v w index)
  | watchState label =>
    unfold perform
    dsimp only
    rw [labels_behind]
    cases w.labels.watchers.lookup label <;> rfl
  | watchDrop label =>
    unfold perform
    dsimp only
    rw [labels_behind]
    cases w.labels.watchers.lookup label with
    | none => rfl
    | some index => exact congrArg (·.respond (.flag true)) (behind_disposeWatcher v _ index)
  | timer label ms script => exact behind_timerAs v (w.addCallback label script) label ms.toNat _
  | timerCancel label =>
    unfold perform
    dsimp only
    rw [labels_behind]
    cases w.labels.timers.lookup label with
    | none => rfl
    | some index =>
      exact congrArg (fun u : World => u.respond (.flag (u.timerActive index)))
        (behind_cancelTimer v w index)
  | timerActive label =>
    unfold perform
    dsimp only
    rw [labels_behind]
    cases w.labels.timers.lookup label <;> rfl
  | timerDrop label =>
    unfold perform
    dsimp only
    rw [labels_behind]
    cases w.labels.timers.lookup label with
    | none => rfl
    | some index => exact congrArg (·.respond (.flag true)) (behind_cancelTimer v _ index)
  | run label actions =>
    cases actions with
    | none => rfl
    -- the run that begins is the one that the veil has to spare
    | some actions =>
      exact congrArg (·.respond .done)
        (behind_spawn v w (.label label) actions (w.labelCancelled label) spares)
  | cancel label =>
    exact congrArg (fun u : World => u.respond (.flag (u.labelCancelled label)))
      (behind_of_under v w (under_cancelLabel v.guise · label))
  | line text => exact behind_readLine v w text
  | console bytes => exact behind_push v w _
  | describe part =>
    unfold perform
    dsimp only
    rw [describe_behind]
    cases w.describe part <;> rfl
  | register rule =>
    unfold perform
    refine behind_withEngine v w ?_
    cases rule with
    | none => rfl
    | some rule =>
      exact congrArg (·.respond (.ruleId rule.id))
        (behind_of_under v w (under_register v.guise · rule))
  | load document =>
    unfold perform
    exact behind_withEngine v w (behind_load v w document)
  | unregister id =>
    unfold perform
    exact behind_withEngine v w
      (congrArg (·.respond (.flag (w.ruleIndex? id).isSome))
        (behind_of_under v w (under_unregister v.guise · id)))
  | trigger id =>
    unfold perform
    refine behind_withEngine v w ?_
    -- the veil leaves the engine alone, so the rule is found in the same place
    rw [show (w.behind v).ruleIndex? id = w.ruleIndex? id from rfl]
    cases w.ruleIndex? id with
    | none => rfl
    | some index => exact congrArg (·.respond (.flag true)) (behind_fire v w index spares)
  | ruleIds | isRunning =>
    unfold perform
    exact behind_withEngine v w rfl
  | disposeAll =>
    unfold perform
    exact behind_withEngine v w (congrArg (·.respond .done)
      (behind_of_under v w (under_disposeAll v.guise)))
  | dropEngine =>
    unfold perform
    exact behind_withEngine v w (congrArg (·.respond .done)
      (behind_of_under v w (under_dropEngine v.guise)))

/-! ## 4. Runs -/

/-- **Calling a service** is the same behind a veil, if the answer is the one behind the veil. -/
theorem behind_callService {exec exec' : Executor} {id : Nat} {service : String} {data : Json}
    (answers : exec' w.calls service data = (exec w.calls service data).behind v id) :
    (w.callService exec id service data).behind v
      = (w.behind v).callService exec' id service data := by
  have recorded : (w.record (.call service data)).behind v = (w.behind v).record (.call service data) :=
    behind_record v w rfl
  unfold callService
  dsimp only
  rw [behind_push, calls_behind, answers, ← recorded]
  rfl

/-- What a stride **demands** is done behind a veil, too. -/
theorem behind_meet {exec exec' : Executor} (r : Run)
    (answers : ∀ service data,
      exec' w.calls service data = (exec w.calls service data).behind v r.id) (demand : Demand) :
    (w.meet exec r demand).behind v = (w.behind v).meet exec' (r.behind v) demand := by
  cases demand with
  | nothing => exact behind_push v w _
  | call service data => exact behind_callService v w (answers service data)
  | wait ms => exact behind_of_under v w (under_waitFor v.guise · r.id ms)
  | stop =>
    unfold meet
    rw [behind_push, behind_note v w rfl]
    rfl
  | finish => exact behind_finishRun v w r

/-- **A stride** is the same behind a veil that spares its run. -/
theorem behind_execute {exec exec' : Executor} {id : Nat} (spares : v.Spares id)
    (answers : ∀ service data,
      exec' w.calls service data = (exec w.calls service data).behind v id) :
    (w.execute exec id).behind v = (w.behind v).execute exec' id := by
  unfold execute
  rw [run?_behind]
  cases found : w.run? id with
  | none => rfl
  | some r =>
    obtain rfl : r.id = id := by simpa using List.find?_some found
    -- of a run that is spared the veil hides nothing, whatever its progress is
    have same : (r.behind v).progress = r.progress := by rw [Run.behind, spares]
    have strode (progress : Progress) :
        (w.modifyRun r.id fun r => { r with progress }).behind v
          = (w.behind v).modifyRun r.id fun r => { r with progress } := by
      refine behind_modifyRun v w r.id fun other mine => ?_
      simp only [Run.behind, mine, spares _]
    have later (progress : Progress) :
        ({ r with progress } : Run).behind v = { r.behind v with progress } := by
      simp only [Run.behind, spares _]
    have met (demand : Demand) (progress : Progress) :
        ((w.modifyRun r.id fun r => { r with progress }).meet exec { r with progress } demand).behind v
          = ((w.behind v).modifyRun r.id fun r => { r with progress }).meet exec'
              { r.behind v with progress } demand := by
      rw [← strode, ← later]
      exact behind_meet v (w.modifyRun r.id fun r => { r with progress }) { r with progress } answers
        demand
    dsimp only [Option.map_some]
    rw [Run.cancelled_behind, same]
    exact met _ _

/-- The **end of a service call** is the same behind a veil, if a panic is not hidden. -/
theorem behind_endCall (id : Nat) (call : Call)
    (panic : call.result = .panicked → v.result id .panicked = .panicked) :
    (w.endCall id call).behind v = (w.behind v).endCall id (call.behind v id) := by
  obtain ⟨service, effects, result⟩ := call
  unfold endCall Call.behind
  cases result with
  | done =>
    dsimp only
    rw [v.done id]
    exact behind_push v w _
  | failed reason =>
    -- a failure is seen as one, or it passes for success and its note is left out
    rcases v.failed id reason with ⟨seen, noted⟩ | ⟨hidden, forgotten⟩
    · dsimp only
      rw [seen, behind_push]
      simp only [behind, note, record, noted]
      rfl
    · dsimp only
      rw [hidden, behind_push]
      simp only [behind, note, record, forgotten]
      rfl
  | panicked =>
    dsimp only
    rw [panic rfl, run?_behind]
    cases w.run? id with
    | none => rfl
    | some r => exact behind_panicRun v w r

/-- **A step of a service call** is the same behind a veil, if a panic is not hidden. -/
theorem behind_serve (id : Nat) (call : Call)
    (panic : call.effects = [] → call.result = .panicked → v.result id .panicked = .panicked) :
    (w.serve id call).behind v = (w.behind v).serve id (call.behind v id) := by
  obtain ⟨service, effects, result⟩ := call
  unfold serve
  match effects with
  | [] => exact behind_endCall v w id _ (panic rfl)
  | .act op recorded :: rest =>
    cases recorded <;> exact behind_push v w _
  | .pause ms :: rest =>
    dsimp only [Call.behind]
    split_ifs
    · exact behind_push v w _
    · exact behind_modifyRun v w id fun r mine => by subst mine; rfl

/-! ## 5. One step -/

/-- The next step of a world **does not see a veil**: the veil spares the run that takes the step and
those that begin, the executor answers as the veil has it, and no panic is hidden. -/
structure Overlooks (v : Veil) (exec exec' : Executor) (w : World) : Prop where
  /-- A run that begins is spared. -/
  begun : v.Spares w.nextRun
  /-- So is a run that takes a stride, and its call is answered as the veil has it. -/
  stride : ∀ id rest, w.stack = .execute id :: rest → v.Spares id ∧ ∀ service data,
    exec' w.calls service data = (exec w.calls service data).behind v id
  /-- A panic is seen as one. -/
  panic : ∀ id service rest, w.stack = .serve id ⟨service, [], .panicked⟩ :: rest →
    v.result id .panicked = .panicked

variable {v w}

/-- **One step** is the same behind a veil that it does not see. -/
theorem behind_step {exec exec' : Executor} (overlooks : Overlooks v exec exec' w) :
    (w.step exec).behind v = (w.behind v).step exec' := by
  unfold step
  rw [stack_behind]
  -- the top frame is taken off first, veiled or not
  cases stack : w.stack with
  | nil => rfl
  | cons frame rest =>
    show (act { w with stack := rest } exec frame).behind v
      = act (World.behind v { w with stack := rest }) exec' (frame.behind v)
    cases frame with
    | perform op => exact behind_perform v _ op overlooks.begun
    | respond answer => rfl
    | record => exact behind_record v _ rfl
    | deliver event handlers =>
      cases handlers with
      | nil => rfl
      | cons handler handlers =>
        exact behind_handle v (World.push { w with stack := rest } [.deliver event handlers]) event
          handler overlooks.begun
    | tellNumber key value listeners =>
      cases listeners with
      | nil => rfl
      | cons listener listeners =>
        exact behind_hearNumber v
          (World.push { w with stack := rest } [.tellNumber key value listeners]) key value listener
          overlooks.begun
    | tellText key value listeners =>
      cases listeners with
      | nil => rfl
      | cons listener listeners =>
        exact behind_hearText v
          (World.push { w with stack := rest } [.tellText key value listeners]) key value listener
    | lines lines shown => exact behind_readLines v _ shown lines
    | execute id =>
      -- the executors may answer differently where the veil hides the call
      obtain ⟨spares, answers⟩ := overlooks.stride id rest stack
      exact behind_execute v _ spares answers
    | serve id call =>
      refine behind_serve v _ id call fun returned panicked => ?_
      obtain ⟨service, effects, result⟩ := call
      subst returned panicked
      exact overlooks.panic id service rest stack
    | resume task =>
      cases task with
      | run id => exact behind_of_under v _ (under_resumeRun v.guise · id)
      | timer index => exact behind_tick v _ index overlooks.begun
    | drain => exact behind_of_under v _ (under_drain v.guise)
    | advanceTo time => exact behind_of_under v _ (under_advanceTo v.guise · time)
    | leap ms => exact behind_of_under v _ (f := (·.leap ms)) (under_leap v.guise · ms)

/-- **Something from outside** is taken up behind a veil, too. -/
theorem behind_receive (v : Veil) (w : World) (s : Stimulus) :
    (w.receive s).behind v = (w.behind v).receive s := by
  cases s <;> exact behind_push v w _

end World

end RuleDispatch
