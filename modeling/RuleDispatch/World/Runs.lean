import RuleDispatch.World.Basic

/-! # Runs in the world

* `World.spawn` — a new run, its turn queued up.
* `World.cancelRun` — a run cancelled; if it waits, its wait is over.
* `World.execute` — one step of a run.
* `World.serve` — one step of a service call.
* `World.resumeRun` — a run whose turn it is. -/

namespace RuleDispatch.World

/-! ## 1. Beginning, cancelling, ending -/

/-- A **new run** of a list of actions, its turn queued up. Its number is the `nextRun` of
before. -/
def spawn (w : World) (owner : Owner) (actions : List Action) (cancelled : Bool) : World :=
  { w with
    runs := w.runs ++ [{ id := w.nextRun, owner, progress := .start actions, cancelled }]
    nextRun := w.nextRun + 1
    ready := w.ready ++ [.run w.nextRun] }

/-- Whether a run waits for something that cancelling cuts short. -/
def waitsIn (w : World) (id : Nat) : Bool :=
  match w.run? id with
  | some { phase := .waiting _ _, .. } => true
  | _ => false

/-- The world with a run **cancelled**. A pending wait is over; a service call is not cut short. -/
def cancelRun (w : World) (id : Nat) : World :=
  let marked := w.modifyRun id fun r => { r with cancelled := true }
  if w.waitsIn id then marked.wake (.run id) else marked

/-- The slot of a rule's registration told that a run of some generation is over. -/
def release (w : World) (index generation : Nat) : World :=
  w.modifyRegistration index fun r => { r with slot := r.slot.finish generation }

/-- The name of the rule in a place. -/
def ruleIdAt (w : World) (index : Nat) : String :=
  ((w.registrations[index]?).map (·.rule.id)).getD ""

/-- A run that has **come to its end**. -/
def finishRun (w : World) (r : Run) : World :=
  let w := w.removeRun r.id
  match r.owner with
  | .rule index generation =>
    (w.note (.runFinished (w.ruleIdAt index) r.progress.summary)).release index generation
  | .label label => w.record (.summary label r.progress.summary)

/-- A run that **panicked**: it leaves no summary. -/
def panicRun (w : World) (r : Run) : World :=
  let w := w.removeRun r.id
  match r.owner with
  | .rule index generation => (w.note (.runPanicked (w.ruleIdAt index))).release index generation
  | .label _ => w

/-! ## 2. Steps -/

/-- How many milliseconds a run can be put to sleep: thirty years of 365 days. A longer wait ends
then, too. -/
def longestSleep : Nat :=
  946080000000

/-- When a run that is put to sleep now for so many milliseconds is **due again**. -/
def sleepDeadline (w : World) (ms : Nat) : Nat :=
  w.now + min ms longestSleep

/-- The world with a run that **waits**; not at all if the wait is empty. -/
def waitFor (w : World) (id ms : Nat) : World :=
  if ms = 0 then w.push [.execute id]
  else w.modifyRun id fun r => { r with phase := .waiting (w.sleepDeadline ms) ms }

/-- A service **called** by a run. -/
def callService (w : World) (exec : Executor) (id : Nat) (service : String) (data : Json) : World :=
  let reply := exec w.calls service data
  let w := w.record (.call service data)
  { w with calls := w.calls + 1 }.push [.serve id ⟨service, reply.effects, reply.result⟩]

/-- What a step of a run **demands**, done. -/
def meet (w : World) (exec : Executor) (r : Run) : Demand → World
  | .nothing => w.push [.execute r.id]
  | .call service data => w.callService exec r.id service data
  | .wait ms => w.waitFor r.id ms
  | .stop => (w.note .stopped).push [.execute r.id]
  | .finish => w.finishRun r

/-- **One step of a run.** -/
def execute (w : World) (exec : Executor) (id : Nat) : World :=
  match w.run? id with
  | none => w
  | some r =>
    let (demand, progress) := r.progress.next r.cancelled
    let w := w.modifyRun id fun r => { r with progress }
    w.meet exec { r with progress } demand

/-- The **end of a service call**: a failure is noted and the run goes on. -/
def endCall (w : World) (id : Nat) (call : Call) : World :=
  match call.result with
  | .done => w.push [.execute id]
  | .failed reason => (w.note (.callFailed call.service reason)).push [.execute id]
  | .panicked =>
    match w.run? id with
    | none => w
    | some r => w.panicRun r

/-- **One step of a service call.** -/
def serve (w : World) (id : Nat) (call : Call) : World :=
  match call.effects with
  | [] => w.endCall id call
  | .act op recorded :: rest =>
    w.push (.perform op :: (if recorded then [.record] else [])
      ++ [.serve id { call with effects := rest }])
  | .pause ms :: rest =>
    let call := { call with effects := rest }
    if ms = 0 then w.push [.serve id call]
    else w.modifyRun id fun r => { r with phase := .calling (w.sleepDeadline ms) call }

/-- A wait that was **cut short**: the run notices that it was cancelled. -/
def interrupt (w : World) (id ms : Nat) : World :=
  let w := w.note (.waitInterrupted ms)
  (w.modifyRun id fun r =>
    { r with
      phase := .ready
      progress := { r.progress with summary := r.progress.summary.checkHalt true } }).push
    [.execute id]

/-- A run **whose turn it is** goes on if what it waits for has come. -/
def resumeRun (w : World) (id : Nat) : World :=
  match w.run? id with
  | none => w
  | some r =>
    match r.phase with
    | .ready => w.push [.execute id]
    | .waiting deadline ms =>
      if deadline ≤ w.now then
        (w.modifyRun id fun r => { r with phase := .ready }).push [.execute id]
      else if r.cancelled then w.interrupt id ms
      else w
    | .calling deadline call =>
      if deadline ≤ w.now then
        (w.modifyRun id fun r => { r with phase := .ready }).push [.serve id call]
      else w

end RuleDispatch.World
