import RuleDispatch.Rule.Basic

/-! # Run slots

A rule keeps count of its runs: how many were ever accepted, how many are still going on, and which
of them is the latest, as long as that one goes on. The mode of the rule decides from this whether
one more run is accepted and whether the latest one has to give way.

* `RunSlot` — the counts.
* `RunSlot.accepts`, `RunSlot.preempts` — the decisions.
* `RunSlot.begin`, `RunSlot.finish` — a run accepted, a run over. -/

namespace RuleDispatch

/-- The **runs of a rule** in numbers: accepted so far, the latest while it goes on, going on. -/
structure RunSlot where
  generation : Nat := 0
  active : Option Nat := none
  running : Nat := 0
deriving DecidableEq, Repr

namespace RunSlot

/-- Whether **one more run** is accepted: in single mode only when none goes on. -/
def accepts (slot : RunSlot) (mode : Mode) : Bool :=
  !(mode = .single && 0 < slot.running)

/-- The run that has to **give way** to a new one: in restart mode the latest. -/
def preempts (slot : RunSlot) (mode : Mode) : Option Nat :=
  if mode = .restart then slot.active else none

/-- The slot with a run **accepted**. Its generation is that of the slot after it. -/
def begin (slot : RunSlot) (run : Nat) : RunSlot :=
  { generation := slot.generation + 1, active := some run, running := slot.running + 1 }

/-- The slot with a run of some generation **over**. -/
def finish (slot : RunSlot) (generation : Nat) : RunSlot :=
  { slot with
    running := slot.running - 1
    active := if slot.generation = generation then none else slot.active }

/-- Whether a run goes on. -/
def isRunning (slot : RunSlot) : Bool :=
  0 < slot.running

/-- A run accepted is the active one. -/
@[simp] theorem active_begin (slot : RunSlot) (run : Nat) : (slot.begin run).active = some run := rfl

@[simp] theorem running_begin (slot : RunSlot) (run : Nat) :
    (slot.begin run).running = slot.running + 1 := rfl

@[simp] theorem generation_begin (slot : RunSlot) (run : Nat) :
    (slot.begin run).generation = slot.generation + 1 := rfl

/-- The end of an earlier run leaves the active one in its place. -/
theorem active_finish_of_ne (slot : RunSlot) {generation : Nat} (h : slot.generation ≠ generation) :
    (slot.finish generation).active = slot.active := by
  simp [finish, h]

/-- The end of the latest run leaves none active. -/
@[simp] theorem active_finish_self (slot : RunSlot) :
    (slot.finish slot.generation).active = none := by
  simp [finish]

@[simp] theorem accepts_parallel (slot : RunSlot) : slot.accepts .parallel = true := rfl

@[simp] theorem accepts_restart (slot : RunSlot) : slot.accepts .restart = true := rfl

@[simp] theorem preempts_single (slot : RunSlot) : slot.preempts .single = none := rfl

@[simp] theorem preempts_parallel (slot : RunSlot) : slot.preempts .parallel = none := rfl

@[simp] theorem preempts_restart (slot : RunSlot) : slot.preempts .restart = slot.active := rfl

end RunSlot

end RuleDispatch
