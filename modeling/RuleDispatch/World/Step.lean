import RuleDispatch.World.Perform

/-! # Steps of the world

The world moves in small steps, each of which does the innermost thing to be done. Something from
outside only adds to what is to be done, and only when nothing is.

* `World.step` — one step.
* `World.receive` — something from outside taken up.
* `World.settle` — steps until nothing is left to be done.
* `World.play` — something from outside, and all that follows. -/

namespace RuleDispatch.World

/-! ## 1. Time -/

/-- The moments for which tasks wait, oldest task first. -/
def appointments (w : World) : List (Nat × Task) :=
  (w.runs.filterMap fun r => r.deadline?.map fun d => (d, .run r.id))
    ++ w.timers.zipIdx.filterMap fun (t, index) =>
      if t.active then some (t.deadline, .timer index) else none

/-- The tasks **whose moment has come**, in order of their moments. -/
def due (w : World) : List Task :=
  ((w.appointments.filter (·.1 ≤ w.now)).mergeSort fun a b => a.1 ≤ b.1).map (·.2)

/-- The world with all tasks queued up whose moment has come. -/
def wakeDue (w : World) : World :=
  w.due.foldl wake w

/-- The **next moment** for which a task waits. -/
def nextAppointment? (w : World) : Option Nat :=
  (w.appointments.map (·.1)).min?

/-- Time passing up to a moment, with a **stop at the next appointment** if there is one before. -/
def advanceTo (w : World) (time : Nat) : World :=
  match w.nextAppointment? with
  | some next =>
    if next ≤ time then
      ({ w with now := max w.now next }.wakeDue).push [.drain, .advanceTo time]
    else { w with now := time }
  | none => { w with now := time }

/-- Time passing at once. -/
def leap (w : World) (ms : Nat) : World :=
  { w with now := w.now + ms }.wakeDue

/-! ## 2. Steps -/

/-- The task whose turn it is first, **given its turn**, and the others after it. -/
def drain (w : World) : World :=
  match w.ready with
  | [] => w
  | task :: rest => { w with ready := rest }.push [.resume task, .drain]

/-- A task **given its turn**. -/
def resume (w : World) : Task → World
  | .run id => w.resumeRun id
  | .timer index => w.tick index

/-- One thing **done**, when it is not in the stack any more. -/
def act (w : World) (exec : Executor) : Frame → World
  | .perform op => w.perform op
  | .respond answer => w.respond answer
  | .record => w.record (.did w.answer)
  | .deliver _ [] => w
  | .deliver event (handler :: rest) => (w.push [.deliver event rest]).handle event handler
  | .tellNumber _ _ [] => w
  | .tellNumber key value (listener :: rest) =>
    (w.push [.tellNumber key value rest]).hearNumber key value listener
  | .tellText _ _ [] => w
  | .tellText key value (listener :: rest) =>
    (w.push [.tellText key value rest]).hearText key value listener
  | .lines rest shown => w.readLines shown rest
  | .execute run => w.execute exec run
  | .serve run call => w.serve run call
  | .resume task => w.resume task
  | .drain => w.drain
  | .advanceTo time => w.advanceTo time
  | .leap ms => w.leap ms

/-- **One step**: the innermost thing to be done. -/
def step (exec : Executor) (w : World) : World :=
  match w.stack with
  | [] => w
  | frame :: rest => { w with stack := rest }.act exec frame

/-- Something from outside **taken up**. -/
def receive (w : World) : Stimulus → World
  | .operation op => w.push [.perform op]
  | .advance ms => w.push [.drain, .advanceTo (w.now + ms), .respond .done]
  | .jump ms => w.push [.drain, .leap ms, .drain, .respond .done]

/-- **Steps until nothing is left** to be done, or so many. -/
def settle (exec : Executor) : Nat → World → World
  | 0, w => w
  | fuel + 1, w => if w.isIdle then w else settle exec fuel (w.step exec)

/-- More steps than are ever taken. -/
def patience : Nat :=
  1000000000000000000

/-- Something from outside, **and all that follows**. -/
def play (exec : Executor) (w : World) (s : Stimulus) : World :=
  settle exec patience (w.receive s)

/-- A world in which nothing happened yet. -/
def empty (wallClock : Timestamp) : World :=
  { wallClock }

@[simp] theorem settle_zero (exec : Executor) (w : World) : settle exec 0 w = w := rfl

/-- A world with nothing to be done is settled. -/
@[simp] theorem settle_of_idle (exec : Executor) (fuel : Nat) (w : World) (h : w.isIdle = true) :
    settle exec fuel w = w := by
  cases fuel with
  | zero => rfl
  | succ fuel => simp [settle, h]

/-- **More patience changes nothing** once a world is settled. -/
theorem settle_add (exec : Executor) (fuel more : Nat) (w : World)
    (h : (settle exec fuel w).isIdle = true) :
    settle exec (fuel + more) w = settle exec fuel w := by
  induction fuel generalizing w with
  | zero => rw [Nat.zero_add, settle_zero, settle_of_idle exec more w h]
  | succ fuel ih =>
    rw [Nat.succ_add]
    by_cases idle : w.isIdle = true
    · simp [settle, idle]
    · simp only [settle, idle] at h ⊢
      exact ih _ h

/-- Where nothing is to be done, a step **does nothing**. -/
@[simp] theorem step_idle (exec : Executor) (w : World) (h : w.stack = []) : w.step exec = w := by
  simp [step, h]

end RuleDispatch.World
