import RuleDispatch.Rule.Action

/-! # The interpreter of actions

A run works off a list of actions one step at a time. What is left to do is an agenda: lists of
actions, and bodies still to be repeated, the innermost first. Before every action the run looks
whether it was cancelled or stopped; a run that was takes no further action, though the iterations
that are left are still counted.

* `Summary` — what a run did so far.
* `Block`, `Progress` — the agenda and the summary.
* `Progress.next` — one step, with what it demands of the world. -/

namespace RuleDispatch

/-- **What a run did.** -/
structure Summary where
  /-- Calls handed over, those that failed included. -/
  serviceCalls : Nat := 0
  /-- Iterations begun by repetitions at every level. -/
  iterations : Nat := 0
  /-- Whether the run ended before its last action. -/
  halted : Bool := false
  /-- Whether that was because it was cancelled. -/
  cancelled : Bool := false
deriving DecidableEq, Repr

/-- The summary after looking whether the run was **cancelled**. A run that has halted already does
not look. -/
def Summary.checkHalt (s : Summary) (cancelled : Bool) : Summary :=
  if !s.halted && cancelled then { s with halted := true, cancelled := true } else s

/-- A part of **what is left to do**. -/
inductive Block where
  /-- These actions in order. -/
  | list (actions : List Action)
  /-- So many more iterations of these actions. -/
  | loop (count : Nat) (actions : List Action)

/-- A run **under way**: what is left to do, the innermost part first, and what was done. -/
structure Progress where
  agenda : List Block
  summary : Summary := {}

/-- What one step **demands of the world**. -/
inductive Demand where
  /-- Nothing. -/
  | nothing
  /-- To call a service. -/
  | call (service : String) (data : Json)
  /-- To wait so many milliseconds. -/
  | wait (ms : Nat)
  /-- To take note of a stop. -/
  | stop
  /-- To end the run: nothing is left to do. -/
  | finish

namespace Progress

/-- A run of a list of actions **before its first step**. -/
def start (actions : List Action) : Progress :=
  { agenda := [.list actions] }

/-- One action, when what is left after it is `agenda`. -/
def act (agenda : List Block) (s : Summary) : Action → Demand × Progress
  | .serviceCall service data =>
    (.call service data, ⟨agenda, { s with serviceCalls := s.serviceCalls + 1 }⟩)
  | .wait ms => (.wait ms.toNat, ⟨agenda, s⟩)
  | .repeatCount count actions => (.nothing, ⟨.loop count.toNat actions :: agenda, s⟩)
  | .stop => (.stop, ⟨agenda, { s with halted := true }⟩)
  | .unknown => (.nothing, ⟨agenda, s⟩)

/-- **One step**; `cancelled` says whether the run was cancelled by now. -/
def next (p : Progress) (cancelled : Bool) : Demand × Progress :=
  match p.agenda with
  | [] => (.finish, p)
  | .list [] :: rest => (.nothing, { p with agenda := rest })
  | .list (action :: actions) :: rest =>
    let s := p.summary.checkHalt cancelled
    if s.halted then (.nothing, ⟨rest, s⟩) else act (.list actions :: rest) s action
  | .loop 0 _ :: rest => (.nothing, { p with agenda := rest })
  | .loop (count + 1) actions :: rest =>
    (.nothing, ⟨.list actions :: .loop count actions :: rest,
      { p.summary with iterations := p.summary.iterations + 1 }⟩)

/-- With nothing on its agenda a run **finishes**. -/
@[simp] theorem next_nil (s : Summary) (cancelled : Bool) :
    next ⟨[], s⟩ cancelled = (.finish, ⟨[], s⟩) := rfl

/-- A list that is done is **taken off** the agenda. -/
@[simp] theorem next_list_nil (rest : List Block) (s : Summary) (cancelled : Bool) :
    next ⟨.list [] :: rest, s⟩ cancelled = (.nothing, ⟨rest, s⟩) := rfl

/-- A loop without a repetition left is **taken off** the agenda. -/
@[simp] theorem next_loop_zero (actions : List Action) (rest : List Block) (s : Summary)
    (cancelled : Bool) : next ⟨.loop 0 actions :: rest, s⟩ cancelled = (.nothing, ⟨rest, s⟩) := rfl

/-- A loop puts its actions on the agenda **once more**, and counts the repetition. -/
@[simp] theorem next_loop_succ (count : Nat) (actions : List Action) (rest : List Block)
    (s : Summary) (cancelled : Bool) :
    next ⟨.loop (count + 1) actions :: rest, s⟩ cancelled
      = (.nothing, ⟨.list actions :: .loop count actions :: rest,
          { s with iterations := s.iterations + 1 }⟩) := rfl

end Progress

end RuleDispatch
