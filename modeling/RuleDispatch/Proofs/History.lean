import Mathlib
import RuleDispatch.World.Step

/-! # Histories of the world

The world moves step by step, and something from outside may come between any two steps: an
emission, a write, a rule put in or taken out, a move of the clock. A history is a list of such
moves; what holds after every history holds in every order of firings, steps of runs, ticks and ends
of runs.

* `Move`, `World.move`, `World.after`, `Reachable` — moves, one after another.
* `Orderly` — histories in which nothing comes from outside while something is being done.
* `Stride`, `World.strides` — the steps that runs take on the way, and what they demand.
* `Deed`, `World.deedsOf` — the service calls that one run makes on the way, and how it ends.
* `World.ending?`, `World.ended` — the runs that come to their end on the way. -/

namespace RuleDispatch

/-! ## 1. Moves -/

/-- **What happens next**: the innermost thing to be done is done, or something comes from
outside. -/
inductive Move where
  /-- What is to be done next is done. -/
  | step
  /-- Something comes from outside. -/
  | receive (s : Stimulus)

namespace World

/-- The world after **one move**. -/
def move (exec : Executor) (w : World) : Move → World
  | .step => w.step exec
  | .receive s => w.receive s

/-- The world **after a history**. -/
def after (exec : Executor) (w : World) (moves : List Move) : World :=
  moves.foldl (move exec) w

variable {exec : Executor}

@[simp] theorem after_nil (w : World) : w.after exec [] = w := rfl

@[simp] theorem after_cons (w : World) (m : Move) (moves : List Move) :
    w.after exec (m :: moves) = (w.move exec m).after exec moves := rfl

/-- A history can be gone through **one part after the other**. -/
theorem after_append (w : World) (past future : List Move) :
    w.after exec (past ++ future) = (w.after exec past).after exec future :=
  List.foldl_append

/-- What every move keeps is kept **by every history**. -/
theorem after_induct {P : World → Prop} (kept : ∀ w m, P w → P (w.move exec m)) {w : World}
    (h : P w) (moves : List Move) : P (w.after exec moves) := by
  induction moves generalizing w with
  | nil => exact h
  | cons m moves ih => exact ih (kept w m h)

end World

/-- A world is **reachable** when some history leads to it from a world in which nothing happened
yet. -/
def Reachable (exec : Executor) (w : World) : Prop :=
  ∃ wallClock moves, w = (World.empty wallClock).after exec moves

/-- A history is **orderly** when things come from outside only while nothing is being done. -/
def Orderly (exec : Executor) : World → List Move → Prop
  | _, [] => True
  | w, .step :: moves => Orderly exec (w.step exec) moves
  | w, .receive s :: moves => w.isIdle = true ∧ Orderly exec (w.receive s) moves

/-- The first part of an orderly history is orderly, and so is the rest. -/
theorem orderly_append {exec : Executor} {w : World} {past future : List Move} :
    Orderly exec w (past ++ future)
      ↔ Orderly exec w past ∧ Orderly exec (w.after exec past) future := by
  induction past generalizing w with
  | nil => simp [Orderly]
  | cons m past ih =>
    cases m with
    | step => exact ih
    | receive s =>
      simp only [List.cons_append, Orderly, World.after_cons, World.move, ih, and_assoc]

/-- Steps alone are orderly. -/
theorem orderly_replicate (exec : Executor) (w : World) (steps : Nat) :
    Orderly exec w (List.replicate steps .step) := by
  induction steps generalizing w with
  | zero => trivial
  | succ steps ih => exact ih (w.step exec)

/-! ## 2. What runs do on the way -/

/-- A **stride** is one step of a run: the moment, the run before the step, what the step demands,
and how many service calls were made before it. -/
structure Stride where
  time : Nat
  run : Run
  demand : Demand
  calls : Nat

/-- Whether a demand **begins a service call or a wait**. -/
def Demand.begins : Demand → Bool
  | .call _ _ | .wait _ => true
  | .nothing | .stop | .finish => false

/-- **What a run does that shows**: it calls a service, comes to its end, or panics. -/
inductive Deed where
  | call (service : String) (data : Json)
  | finish
  | panic

/-- What a demand shows of its run. -/
def Demand.deed? : Demand → Option Deed
  | .call service data => some (.call service data)
  | .finish => some .finish
  | .nothing | .wait _ | .stop => none

/-- The service call that a deed is. -/
def Deed.call? : Deed → Option (String × Json)
  | .call service data => some (service, data)
  | .finish | .panic => none

/-- Whether a deed is a panic. -/
def Deed.isPanic : Deed → Bool
  | .panic => true
  | .call _ _ | .finish => false

namespace World

/-- The **stride that the next step is**, if a run takes it. -/
def stride? (w : World) : Option Stride :=
  match w.stack with
  | .execute id :: _ =>
    (w.run? id).map fun r => ⟨w.now, r, (r.progress.next r.cancelled).1, w.calls⟩
  | _ => none

/-- The run that the next step **ends**: its last stride is due, or it panics in a service call. -/
def ending? (w : World) : Option Run :=
  match w.stack with
  | .execute id :: _ =>
    (w.run? id).filter fun r => r.progress.agenda.isEmpty
  | .serve id ⟨_, [], .panicked⟩ :: _ => w.run? id
  | _ => none

/-- What the next step **shows of one run**, with its moment. -/
def deed? (id : Nat) (w : World) : Option (Nat × Deed) :=
  match w.stack with
  | .execute run :: _ =>
    if run = id then
      (w.run? id).bind fun r => (r.progress.next r.cancelled).1.deed?.map fun d => (w.now, d)
    else none
  | .serve run ⟨_, [], .panicked⟩ :: _ =>
    if run = id then (w.run? id).map fun _ => (w.now, .panic) else none
  | _ => none

/-- What the steps of a history **show**, in order. -/
def shown {α : Type} (exec : Executor) (view : World → Option α) : World → List Move → List α
  | _, [] => []
  | w, .step :: moves => (view w).toList ++ shown exec view (w.step exec) moves
  | w, .receive s :: moves => shown exec view (w.receive s) moves

/-- The **strides of all runs** in a history. -/
def strides (exec : Executor) (w : World) (moves : List Move) : List Stride :=
  shown exec stride? w moves

/-- The **runs that come to their end** in a history. -/
def ended (exec : Executor) (w : World) (moves : List Move) : List Run :=
  shown exec ending? w moves

/-- The **strides of one run** in a history. -/
def stridesOf (exec : Executor) (w : World) (moves : List Move) (id : Nat) : List Stride :=
  (w.strides exec moves).filter (·.run.id = id)

/-- The **deeds of one run** in a history, with their moments. -/
def deedsOf (exec : Executor) (w : World) (moves : List Move) (id : Nat) : List (Nat × Deed) :=
  shown exec (deed? id) w moves

variable {exec : Executor} {α : Type}

@[simp] theorem shown_nil (view : World → Option α) (w : World) : shown exec view w [] = [] := rfl

/-- What a history shows is what its parts show, **one after the other**. -/
theorem shown_append (view : World → Option α) (w : World) (past future : List Move) :
    shown exec view w (past ++ future)
      = shown exec view w past ++ shown exec view (w.after exec past) future := by
  induction past generalizing w with
  | nil => rfl
  | cons m past ih => cases m <;> simp [shown, move, ih]

/-- What a history shows is what **some step** on the way shows. -/
theorem exists_of_mem_shown {view : World → Option α} {w : World} {moves : List Move} {a : α}
    (h : a ∈ shown exec view w moves) :
    ∃ past future, moves = past ++ .step :: future ∧ view (w.after exec past) = some a := by
  induction moves generalizing w with
  | nil => simp at h
  | cons m moves ih =>
    cases m with
    | receive s =>
      obtain ⟨past, future, rfl, found⟩ := ih h
      exact ⟨.receive s :: past, future, rfl, found⟩
    | step =>
      rcases List.mem_append.mp h with now | later
      · exact ⟨[], moves, rfl, Option.mem_toList.mp now⟩
      · obtain ⟨past, future, rfl, found⟩ := ih later
        exact ⟨.step :: past, future, rfl, found⟩

end World

/-! ## 3. A small world -/

/-- Services that do nothing. -/
def noEffects : Executor :=
  fun _ _ _ => {}

/-- A rule that waits a little and then turns a light on. -/
def nightLight (mode : Mode) : Rule :=
  { id := "light", mode, triggers := [.event "motion"]
    actions := [.wait 5, .serviceCall "on" .null] }

/-- Something from outside, and so many steps after it. -/
def Move.played (s : Stimulus) (steps : Nat) : List Move :=
  .receive s :: List.replicate steps .step

/-- It is orderly to let something in while nothing is being done, and then **let things happen**. -/
theorem orderly_played {exec : Executor} {w : World} (idle : w.isIdle = true) (s : Stimulus)
    (steps : Nat) : Orderly exec w (Move.played s steps) :=
  ⟨idle, orderly_replicate exec _ steps⟩

/-- A hall whose lamp is **listened to**: the first number that is written turns its state on. -/
def hall : World :=
  (World.empty .first).after noEffects
    (Move.played (.operation (.listenNumber "switch" ⟨[.setText "state" "on"], 1⟩)) 1)

end RuleDispatch
