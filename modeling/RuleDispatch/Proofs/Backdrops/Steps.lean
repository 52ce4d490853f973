import RuleDispatch.Proofs.Backdrops.Engine
import RuleDispatch.Proofs.Dispatch.Ending

/-! # Steps against another backdrop

One step of the world is the same against another backdrop, if the backdrop spares the runs that the step
begins or goes on with. An answer that was given before could only be recorded; while what is to be done begins
with an answer of its own it is forgotten, and so is the difference between two backdrops.

* `Unheeding` — things to be done that never look at the answer given before.
* `World.against_perform`, `World.against_readLines` — an operation, and a line of the console.
* `World.against_execute`, `World.against_serve` — strides of runs and service calls.
* `World.Unaware`, `World.against_step`, `World.against_receive` — one step of the world, and what comes from
  outside. -/

namespace RuleDispatch

/-! ## 1. Answers that are not looked at -/

/-- Whether things to be done **never look at the answer given before**: none is recorded before there
is a new one. -/
def Unheeding : List Frame → Prop
  | [] => True
  | .record :: _ => False
  | .perform _ :: _ | .respond _ :: _ | .lines _ _ :: _ => True
  | .deliver _ _ :: rest | .tellNumber _ _ _ :: rest | .tellText _ _ _ :: rest | .execute _ :: rest
  | .serve _ _ :: rest | .resume _ :: rest | .drain :: rest | .advanceTo _ :: rest
  | .leap _ :: rest => Unheeding rest

/-- What a callback does is **answered before it is recorded**. -/
theorem unheeding_scriptFrames {rest : List Frame} (unheeding : Unheeding rest) (ops : List Operation) :
    Unheeding (World.scriptFrames ops ++ rest) := by
  cases ops with
  | nil => exact unheeding
  | cons op later => trivial

namespace World

variable (s : Backdrop) (w : World)

/-! ## 2. Calls -/

/-- **Calling a callback** is the same against every backdrop. -/
theorem against_runCallback (index : Nat) (entry : String → Entry) :
    (w.runCallback index entry).against s = (w.against s).runCallback index entry := by
  unfold runCallback
  rw [show (w.against s).callbacks = w.callbacks from rfl]
  cases w.callbacks[index]? with
  | none => rfl
  | some c => exact against_push s _ _

/-- **A call of a target** is the same against a backdrop that spares the run it may start. -/
theorem against_callTarget (entry : String → Entry) (target : Target) (spares : s.Spares w.nextRun) :
    (w.callTarget entry target).against s = (w.against s).callTarget entry target := by
  cases target with
  | callback index => exact against_runCallback s w index entry
  | rule index => exact against_fire s w index spares

/-- **Showing an event to a watcher** is the same against a backdrop that spares the run it may start. -/
theorem against_observe (event : Event) (index : Nat) (spares : s.Spares w.nextRun) :
    (w.observe event index).against s = (w.against s).observe event index := by
  unfold observe
  rw [show (w.against s).watchers = w.watchers from rfl]
  cases w.watchers[index]? with
  | none => rfl
  | some watcher =>
    dsimp only
    unfold settleWatcher
    split
    · split_ifs
      · rfl
      · exact against_callTarget s _ _ _ spares
    · rfl
    · rfl

/-- **Handing an event to a handler** is the same against every backdrop. -/
theorem against_handle (event : Event) (handler : Handler) (spares : s.Spares w.nextRun) :
    (w.handle event handler).against s = (w.against s).handle event handler := by
  cases handler with
  | target target => exact against_callTarget s w _ target spares
  | watcher index => exact against_observe s w event index spares

/-- **Telling of a number** is the same against every backdrop. -/
theorem against_hearNumber (key : String) (value : Float) (listener : NumberListener)
    (spares : s.Spares w.nextRun) :
    (w.hearNumber key value listener).against s = (w.against s).hearNumber key value listener := by
  cases listener with
  | callback index => exact against_runCallback s w index _
  | threshold rule entity bounds =>
    unfold hearNumber
    dsimp only
    split_ifs
    · exact against_fire s w rule spares
    · rfl

/-- **A tick** is the same against every backdrop. -/
theorem against_tick (index : Nat) (spares : s.Spares w.nextRun) :
    (w.tick index).against s = (w.against s).tick index := by
  unfold tick
  rw [show (w.against s).timers = w.timers from rfl, show (w.against s).now = w.now from rfl]
  cases w.timers[index]? with
  | none => rfl
  | some t =>
    dsimp only
    split_ifs
    · rfl
    · exact against_callTarget s _ _ _ spares

/-! ## 3. The console and operations -/

/-- **Writing a number** is the same against every backdrop. -/
theorem against_writeNumber (key : String) (value : Float) :
    (w.writeNumber key value).against s = (w.against s).writeNumber key value :=
  against_push s _ _

/-- **Writing a text** is the same against every backdrop. -/
theorem against_writeText (key value : String) :
    (w.writeText key value).against s = (w.against s).writeText key value :=
  against_push s _ _

/-- **A command** is carried out in the same way against every backdrop. -/
theorem against_applyCommand (frames : List Frame) (command : Command) :
    (w.applyCommand frames command).against s = (w.against s).applyCommand frames command := by
  have pushed := against_push s w frames
  cases command with
  | emit name data => exact (against_push s _ _).trans (by rw [pushed]; rfl)
  | setNumber key value => exact (against_writeNumber s _ key value).trans (by rw [pushed]; rfl)
  | setText key value => exact (against_writeText s _ key value).trans (by rw [pushed]; rfl)
  | get key => exact pushed

/-- What a command leads to comes **before what it is carried out before**. -/
theorem unheeding_applyCommand {frames : List Frame} (unheeding : Unheeding (frames ++ w.stack))
    (command : Command) : Unheeding (w.applyCommand frames command).stack := by
  cases command <;> exact unheeding

/-- Something done **is the same against a backdrop**: it gives an answer and forgets the one before, or
what is left to be done does not look at the one before. -/
def SameAgainst (w' u' : World) : Prop :=
  w'.against s.answered = u' ∨ (w'.against s = u' ∧ Unheeding w'.stack)

variable {s}

/-- What is done **without an answer** is the same if nobody looks at an answer given before. -/
theorem SameAgainst.of_eq {w' u' : World} (same : w'.against s = u')
    (heeds : s.answer = none ∨ Unheeding w'.stack) : SameAgainst s w' u' := by
  rcases heeds with none | unheeding
  · left
    rw [Backdrop.answered_of_none none]
    exact same
  · right
    exact ⟨same, unheeding⟩

variable (s)

/-- **A line of the console** is the same against every backdrop. -/
theorem sameAgainst_readLine (line : String) :
    SameAgainst s (w.readLine line) ((w.against s).readLine line) := by
  unfold readLine
  split
  · refine .inr ⟨against_applyCommand s w _ _, ?_⟩
    apply unheeding_applyCommand
    trivial
  · exact .inl rfl

/-- **The lines of the console** are read in the same way against every backdrop. -/
theorem sameAgainst_readLines (shown : List String) (lines : List (Option String)) :
    SameAgainst s (w.readLines shown lines) ((w.against s).readLines shown lines) := by
  unfold readLines
  split
  · exact .inl rfl
  · exact .inl rfl
  · split
    · refine .inr ⟨against_applyCommand s w _ _, ?_⟩
      apply unheeding_applyCommand
      trivial
    · exact .inr ⟨against_push s w _, trivial⟩
    · exact .inr ⟨against_push s (w.note _) _, trivial⟩

/-- **An operation** is the same against every backdrop that spares the run that it may start. -/
theorem sameAgainst_perform (op : Operation) (spares : s.Spares w.nextRun) :
    SameAgainst s (w.perform op) ((w.against s).perform op) := by
  have labels : (w.against s).labels = w.labels := rfl
  -- what is asked of the engine is done in both worlds, or in neither
  have withEngine (act : World → World) (same : (act w).against s.answered = act (w.against s)) :
      SameAgainst s (w.withEngine act) ((w.against s).withEngine act) := by
    refine .inl ?_
    unfold World.withEngine
    rw [show (w.against s).engine = w.engine from rfl]
    split_ifs
    · exact same
    · rfl
  cases op with
  | subscribe | subscribers | get | listenNumber | listenText | listeners | isCancelled => exact .inl rfl
  | subscribeAgain label source name =>
    unfold perform
    dsimp only
    rw [labels]
    cases w.labels.subscriptions.lookup source <;> exact .inl rfl
  | unsubscribe label name =>
    unfold perform
    dsimp only
    rw [labels]
    cases w.labels.subscriptions.lookup label <;> exact .inl rfl
  | emit | setNumber | setText =>
    unfold perform
    exact .inr ⟨against_push s _ _, trivial⟩
  | unlisten label =>
    unfold perform
    dsimp only
    rw [labels]
    cases w.labels.listeners.lookup label <;> exact .inl rfl
  | watch label sequence withinMs script =>
    exact .inl (congrArg (·.respond .done)
      (against_watchAs s (w.addCallback label script) label sequence withinMs _))
  | watchDispose label =>
    unfold perform
    dsimp only
    rw [labels]
    cases w.labels.watchers.lookup label with
    | none => exact .inl rfl
    | some index =>
      exact .inl (congrArg (fun u : World => u.respond (.watcher (u.watcherDisposed index)))
        (against_disposeWatcher s w index))
  | watchState label =>
    unfold perform
    dsimp only
    rw [labels]
    cases w.labels.watchers.lookup label <;> exact .inl rfl
  | watchDrop label =>
    unfold perform
    dsimp only
    rw [labels]
    cases w.labels.watchers.lookup label with
    | none => exact .inl rfl
    | some index => exact .inl (congrArg (·.respond (.flag true)) (against_disposeWatcher s _ index))
  | timer label ms script => exact .inl (against_timerAs s (w.addCallback label script) label ms.toNat _)
  | timerCancel label =>
    unfold perform
    dsimp only
    rw [labels]
    cases w.labels.timers.lookup label with
    | none => exact .inl rfl
    | some index =>
      exact .inl (congrArg (fun u : World => u.respond (.flag (u.timerActive index)))
        (against_cancelTimer s w index))
  | timerActive label =>
    unfold perform
    dsimp only
    rw [labels]
    cases w.labels.timers.lookup label <;> exact .inl rfl
  | timerDrop label =>
    unfold perform
    dsimp only
    rw [labels]
    cases w.labels.timers.lookup label with
    | none => exact .inl rfl
    | some index => exact .inl (congrArg (·.respond (.flag true)) (against_cancelTimer s _ index))
  | run label actions =>
    cases actions with
    | none => exact .inl rfl
    | some actions =>
      exact .inl (congrArg (·.respond .done)
        (against_spawn s w (.label label) actions (w.labelCancelled label) spares))
  | cancel label =>
    exact .inl (congrArg (fun u : World => u.respond (.flag (u.labelCancelled label)))
      (against_cancelLabel s w label))
  | line text => exact sameAgainst_readLine s w text
  | console bytes => exact .inr ⟨against_push s w _, trivial⟩
  | describe part =>
    unfold perform
    dsimp only
    rw [show (w.against s).describe part = w.describe part from rfl]
    cases w.describe part <;> exact .inl rfl
  | register rule =>
    unfold perform
    refine withEngine _ ?_
    cases rule with
    | none => rfl
    | some rule => exact congrArg (·.respond (.ruleId rule.id)) (against_register s w rule)
  | load document => exact withEngine _ (against_load s w document)
  | unregister id =>
    exact withEngine _ (congrArg (·.respond (.flag (w.ruleIndex? id).isSome)) (against_unregister s w id))
  | trigger id =>
    unfold perform
    refine withEngine _ ?_
    rw [show (w.against s).ruleIndex? id = w.ruleIndex? id from rfl]
    cases w.ruleIndex? id with
    | none => rfl
    | some index => exact congrArg (·.respond (.flag true)) (against_fire s w index spares)
  | ruleIds | isRunning => exact withEngine _ rfl
  | disposeAll =>
    exact withEngine _ (congrArg (·.respond .done)
      (against_disposeEach s { w with engine := w.engine.map fun _ => [] } (w.engine.getD [])))
  | dropEngine =>
    exact withEngine _ (congrArg (·.respond .done)
      (against_disposeEach s { w with engine := none } (w.engine.getD [])))

/-! ## 4. Plain things done -/

variable {w}

/-- **A call of a callback** does not heed the answer given before. -/
theorem unheeding_runCallback (unheeding : Unheeding w.stack) (index : Nat) (entry : String → Entry) :
    Unheeding (w.runCallback index entry).stack := by
  unfold runCallback
  cases w.callbacks[index]? with
  | none => exact unheeding
  | some c => exact unheeding_scriptFrames unheeding _

/-- **A call of a target** does not heed the answer given before. -/
theorem unheeding_callTarget (unheeding : Unheeding w.stack) (entry : String → Entry) (target : Target) :
    Unheeding (w.callTarget entry target).stack := by
  cases target with
  | callback index => exact unheeding_runCallback unheeding index entry
  | rule index =>
    rw [show (w.callTarget entry (.rule index)).stack = w.stack from congrArg Prod.snd (desk_fire w index)]
    exact unheeding

/-- **A call of a handler** does not heed the answer given before. -/
theorem unheeding_handle (unheeding : Unheeding w.stack) (event : Event) (handler : Handler) :
    Unheeding (w.handle event handler).stack := by
  cases handler with
  | target target => exact unheeding_callTarget unheeding _ target
  | watcher index =>
    unfold handle observe
    dsimp only
    cases w.watchers[index]? with
    | none => exact unheeding
    | some watcher =>
      dsimp only
      unfold settleWatcher
      split
      · split_ifs
        · exact unheeding
        · apply unheeding_callTarget
          exact unheeding
      · exact unheeding
      · exact unheeding

/-- **A call of a listener** does not heed the answer given before. -/
theorem unheeding_hearNumber (unheeding : Unheeding w.stack) (key : String) (value : Float)
    (listener : NumberListener) : Unheeding (w.hearNumber key value listener).stack := by
  cases listener with
  | callback index => exact unheeding_runCallback unheeding index _
  | threshold rule entity bounds =>
    unfold hearNumber
    dsimp only
    split_ifs
    · exact unheeding_callTarget unheeding .tick (.rule rule)
    · exact unheeding

/-- **A plain thing done** is the same against every backdrop that spares the run that it may start, if the
answer given before is not recorded. -/
theorem sameAgainst_act (exec exec' : Executor) {frame : Frame} (plain : frame.isPlain = true)
    (spares : s.Spares w.nextRun) (heeds : s.answer = none ∨ Unheeding (frame :: w.stack)) :
    SameAgainst s (w.act exec frame) ((w.against s).act exec' frame) := by
  cases frame with
  | perform op => exact sameAgainst_perform s w op spares
  | respond answer => exact .inl rfl
  | record =>
    have none : s.answer = none := heeds.resolve_right id
    refine .of_eq ?_ (.inl none)
    show (w.record (.did w.answer)).against s = (w.against s).record (.did (s.answer.getD w.answer))
    rw [none]
    rfl
  | deliver event handlers =>
    cases handlers with
    | nil => exact .of_eq rfl heeds
    -- the rest of the round is put back before the call is made
    | cons handler left =>
      have pushed := against_push s w [.deliver event left]
      refine .of_eq ?_ (heeds.imp_right fun unheeding => unheeding_handle ?_ event handler)
      · exact (against_handle s (w.push [.deliver event left]) event handler spares).trans
          (congrArg (·.handle event handler) pushed)
      · exact unheeding
  | tellNumber key value listeners =>
    cases listeners with
    | nil => exact .of_eq rfl heeds
    | cons listener left =>
      have pushed := against_push s w [.tellNumber key value left]
      refine .of_eq ?_ (heeds.imp_right fun unheeding => unheeding_hearNumber ?_ key value listener)
      · exact (against_hearNumber s (w.push [.tellNumber key value left]) key value listener spares).trans
          (congrArg (·.hearNumber key value listener) pushed)
      · exact unheeding
  | tellText key value listeners =>
    cases listeners with
    | nil => exact .of_eq rfl heeds
    | cons listener left =>
      have pushed := against_push s w [.tellText key value left]
      refine .of_eq ?_ (heeds.imp_right fun unheeding => unheeding_runCallback ?_ listener _)
      · exact (against_runCallback s (w.push [.tellText key value left]) listener _).trans
          (congrArg (·.hearText key value listener) pushed)
      · exact unheeding
  | lines rest shown => exact sameAgainst_readLines s w shown rest
  | execute | serve | resume | drain | advanceTo | leap => cases plain

/-- **A plain step** is the same against every backdrop that spares the run that it may start, if the answer
given before is not recorded. -/
theorem sameAgainst_step (exec exec' : Executor) {frame : Frame} {rest : List Frame}
    (stack : w.stack = frame :: rest) (plain : frame.isPlain = true) (spares : s.Spares w.nextRun)
    (heeds : s.answer = none ∨ Unheeding w.stack) :
    SameAgainst s (w.step exec) ((w.against s).step exec') := by
  unfold step
  rw [stack_against, stack]
  rw [stack] at heeds
  exact sameAgainst_act s (w := { w with stack := rest }) exec exec' plain spares heeds

/-! ## 5. Strides and service calls -/

variable {s} (w)

/-- **Calling a service** is the same against every backdrop, if the executor answers in the same way. -/
theorem against_callService {exec exec' : Executor} {id : Nat} {service : String} {data : Json}
    (answers : exec' (s.calls + w.calls) service data = exec w.calls service data) :
    (w.callService exec id service data).against s = (w.against s).callService exec' id service data := by
  unfold callService
  dsimp only
  rw [show (w.against s).calls = s.calls + w.calls from rfl, answers, against_push]
  rfl

/-- What a stride **demands** is done in the same way against every backdrop. Only the end of a run tells
how many calls it counted. -/
theorem against_meet {exec exec' : Executor} (r : Run) (demand : Demand)
    (answers : ∀ service data, exec' (s.calls + w.calls) service data = exec w.calls service data)
    (counted : demand = .finish → s.counted r.id = 0) :
    (w.meet exec r demand).against s = (w.against s).meet exec' (r.against s) demand := by
  cases demand with
  | nothing => exact against_push s w _
  | call service data => exact against_callService w (answers service data)
  | wait ms => exact against_waitFor s w r.id ms
  | stop => exact against_push s (w.note .stopped) _
  | finish => exact against_finishRun s w r (counted rfl)

/-- **A stride** is the same against every backdrop before which the run demands the same. -/
theorem against_execute {exec exec' : Executor} {id : Nat} {r : Run} (found : w.run? id = some r)
    {f : List Block → List Block}
    (alike : (r.progress.against s id).next r.cancelled
      = ((r.progress.next r.cancelled).1, (r.progress.next r.cancelled).2.against (s.leaving id f) id))
    (answers : ∀ service data, exec' (s.calls + w.calls) service data = exec w.calls service data)
    (counted : (r.progress.next r.cancelled).1 = .finish → s.counted id = 0) :
    (w.execute exec id).against (s.leaving id f) = (w.against s).execute exec' id := by
  obtain rfl : r.id = id := by simpa using List.find?_some found
  unfold execute
  rw [run?_against, found]
  dsimp only [Option.map_some]
  rw [show (r.against s).progress = r.progress.against s r.id from rfl, Run.cancelled_against, alike]
  dsimp only
  rw [← against_strode]
  exact against_meet (s := s.leaving r.id f) (w.modifyRun r.id _) { r with progress := _ } _ answers counted

/-- The **end of a service call** is the same against every backdrop. -/
theorem against_endCall (id : Nat) (call : Call) :
    (w.endCall id call).against s = (w.against s).endCall id call := by
  unfold endCall
  split
  · exact against_push s w _
  · exact against_push s (w.note _) _
  · rw [run?_against]
    cases w.run? id with
    | none => rfl
    | some r => exact against_panicRun s w r

/-- **A step of a service call** is the same against every backdrop. -/
theorem against_serve (id : Nat) (call : Call) :
    (w.serve id call).against s = (w.against s).serve id call := by
  unfold serve
  split
  · exact against_endCall w id call
  · exact against_push s w _
  · dsimp only
    split_ifs
    · exact against_push s w _
    · exact against_modifyRun s w id fun _ _ => rfl

/-! ## 6. One step -/

/-- What **comes from outside** is taken up in the same way against every backdrop. -/
theorem against_receive (s : Backdrop) (w : World) (stimulus : Stimulus) :
    (w.receive stimulus).against s = (w.against s).receive stimulus := by
  cases stimulus <;> exact against_push s w _

/-- The next step of a world **does not see a backdrop**: the backdrop spares the runs that begin or take a
stride, the executor answers as without it, and no answer was given before. -/
structure Unaware (s : Backdrop) (exec exec' : Executor) (w : World) : Prop where
  busy : w.stack ≠ []
  silent : s.answer = none
  begun : s.Spares w.nextRun
  stride : ∀ id rest, w.stack = .execute id :: rest → s.Spares id ∧ ∀ service data,
    exec' (s.calls + w.calls) service data = exec w.calls service data

variable {w}

/-- **One step** is the same against every backdrop that it does not see. -/
theorem against_step {exec exec' : Executor} (unaware : Unaware s exec exec' w) :
    (w.step exec).against s = (w.against s).step exec' := by
  obtain ⟨busy, silent, begun, stride⟩ := unaware
  obtain ⟨frame, rest, stack⟩ := List.exists_cons_of_ne_nil busy
  -- the backdrop holds back no answer, so plain frames are done alike
  have plainly (plain : frame.isPlain = true) : (w.step exec).against s = (w.against s).step exec' := by
    rcases sameAgainst_step s exec exec' stack plain begun (.inl silent) with same | ⟨same, -⟩
    · rwa [Backdrop.answered_of_none silent] at same
    · exact same
  have taken : w.step exec = World.act { w with stack := rest } exec frame := by rw [step, stack]
  have taken' : (w.against s).step exec' = (World.against s { w with stack := rest }).act exec' frame := by
    rw [step, stack_against, stack]
    rfl
  cases frame with
  | perform | respond | record | deliver | tellNumber | tellText | lines => exact plainly rfl
  | execute id =>
    obtain ⟨spares, answers⟩ := stride id rest stack
    rw [taken, taken']
    cases found : World.run? { w with stack := rest } id with
    | none =>
      have none' : (World.against s { w with stack := rest }).run? id = none := by
        rw [run?_against, found]
        rfl
      simp only [act, execute, found, none']
    | some r =>
      have strode := against_execute (s := s) (f := s.agenda id) _ found
        (by rw [Backdrop.leaving_self, spares.progress, spares.progress]) answers
        fun _ => spares.counted
      rwa [Backdrop.leaving_self] at strode
  | serve id call =>
    rw [taken, taken']
    exact against_serve _ id call
  | resume task =>
    rw [taken, taken']
    cases task with
    | run id => exact against_resumeRun s _ id
    | timer index => exact against_tick s _ index begun
  | drain =>
    rw [taken, taken']
    exact against_drain s _
  | advanceTo time =>
    rw [taken, taken']
    exact against_advanceTo s _ time
  | leap ms =>
    rw [taken, taken']
    exact against_leap s { w with stack := rest } ms

end World

end RuleDispatch
