import Mathlib
import RuleDispatch.Interpreter

/-! # What is left of a run

Repetitions can be written out: a list of actions unrolls to one without repetitions, in which only
calls, waits and stops are left. What a run that is under way has still to do is the unrolling of its
agenda, and one step of it takes at most the first action off. So nothing has to be known of the
steps in between: what was done and what is left always make up the same whole.

* `Action.unroll` — repetitions written out.
* `Action.visits` — the same with a mark for every repetition that is met.
* `Progress.due`, `Demand.Takes` — what is left, and what one step takes off it.
* `Action.summary`, `Progress.foreseen` — the summary that a run will end with.
* `Progress.weight` — a bound for the steps that are left. -/

namespace RuleDispatch

namespace Action

/-! ## 1. Repetitions written out -/

mutual

/-- An action **unrolled**: a repetition is as many copies of what it repeats, and what is not
understood is left out. -/
def unroll : Action → List Action
  | serviceCall service data => [serviceCall service data]
  | wait ms => [wait ms]
  | repeatCount count actions => (List.replicate count.toNat (unrollAll actions)).flatten
  | stop => [stop]
  | unknown => []

/-- Actions unrolled, in order. -/
def unrollAll : List Action → List Action
  | [] => []
  | action :: rest => unroll action ++ unrollAll rest

end

mutual

/-- An action unrolled, with every repetition standing **before its copies**. -/
def visits : Action → List Action
  | serviceCall service data => [serviceCall service data]
  | wait ms => [wait ms]
  | repeatCount count actions =>
    repeatCount count actions :: (List.replicate count.toNat (visitsAll actions)).flatten
  | stop => [stop]
  | unknown => []

/-- Actions unrolled, every repetition standing before its copies. -/
def visitsAll : List Action → List Action
  | [] => []
  | action :: rest => visits action ++ visitsAll rest

end

/-- Whether an action ends the run. -/
def isStop : Action → Bool
  | stop => true
  | _ => false

/-- The service that an action calls, with its data. -/
def call? : Action → Option (String × Json)
  | serviceCall service data => some (service, data)
  | _ => none

/-- How often an action repeats others. -/
def count : Action → Nat
  | repeatCount count _ => count.toNat
  | _ => 0

/-- The actions **before the first stop**. -/
def reached (actions : List Action) : List Action :=
  actions.takeWhile (!·.isStop)

@[simp] theorem reached_nil : reached [] = [] := rfl

@[simp] theorem reached_cons (action : Action) (rest : List Action) :
    reached (action :: rest) = if action.isStop then [] else action :: reached rest := by
  unfold reached
  rw [List.takeWhile_cons]
  cases action.isStop <;> rfl

/-- The **service calls of a list of actions**: those before the first stop of its unrolling, in
order. -/
def calls (actions : List Action) : List (String × Json) :=
  (reached (unrollAll actions)).filterMap call?

/-- How many **iterations** are begun for a list of actions: for every repetition met before the
first stop all that it has, whatever stops it. -/
def iterations (actions : List Action) : Nat :=
  ((reached (visitsAll actions)).map count).sum

/-- The **summary** of a run of these actions that is left alone. -/
def summary (actions : List Action) : Summary where
  serviceCalls := (calls actions).length
  iterations := iterations actions
  halted := (unrollAll actions).any isStop
  cancelled := false

end Action

/-! ## 2. What is left to do -/

/-- A part of the agenda unrolled. -/
def Block.unroll : Block → List Action
  | .list actions => Action.unrollAll actions
  | .loop count actions => (List.replicate count (Action.unrollAll actions)).flatten

/-- A part of the agenda unrolled, repetitions that are still to be met standing before their
copies. -/
def Block.visits : Block → List Action
  | .list actions => Action.visitsAll actions
  | .loop count actions => (List.replicate count (Action.visitsAll actions)).flatten

/-- How many iterations of a repetition under way are left. -/
def Block.rounds : Block → Nat
  | .list _ => 0
  | .loop count _ => count

/-- The service call that a demand is. -/
def Demand.call? : Demand → Option (String × Json)
  | .call service data => some (service, data)
  | .nothing | .wait _ | .stop | .finish => none

/-- Whether a demand is to take note of a stop. -/
def Demand.isStop : Demand → Bool
  | .stop => true
  | .nothing | .call _ _ | .wait _ | .finish => false

/-- What a **demand takes** off the actions that are left. -/
inductive Demand.Takes : Demand → List Action → List Action → Prop where
  /-- Nothing is taken off yet. -/
  | nothing (left : List Action) : Takes .nothing left left
  /-- A call is taken off. -/
  | call (service : String) (data : Json) (left : List Action) :
      Takes (.call service data) (.serviceCall service data :: left) left
  /-- A wait is taken off. -/
  | wait (ms : UInt64) (left : List Action) : Takes (.wait ms.toNat) (.wait ms :: left) left
  /-- A stop takes off all that is left. -/
  | stop (left : List Action) : Takes .stop (.stop :: left) []
  /-- The end comes when nothing is left. -/
  | finish : Takes .finish [] []

namespace Progress

/-- The actions that a run has **still to do**; none once it has halted. -/
def due (p : Progress) : List Action :=
  if p.summary.halted then [] else p.agenda.flatMap Block.unroll

/-- At the start what is due is **all that the actions unroll to**. -/
@[simp] theorem due_start (actions : List Action) :
    (start actions).due = Action.unrollAll actions := by
  simp [due, start, Block.unroll]

/-- **One step takes at most one action** off those that are left. -/
theorem takes_next (p : Progress) : (p.next false).1.Takes p.due (p.next false).2.due := by
  obtain ⟨agenda, calls, iterations, halted, cancelled⟩ := p
  match agenda with
  | [] =>
    have none : due ⟨[], ⟨calls, iterations, halted, cancelled⟩⟩ = [] := by
      cases halted <;> rfl
    rw [next_nil, none]
    exact .finish
  | .list [] :: rest => exact .nothing _
  | .loop 0 actions :: rest => exact .nothing _
  | .loop (count + 1) actions :: rest =>
    rw [next_loop_succ]
    -- one repetition more has the same actions left as the list and one repetition less
    have same : due ⟨.loop (count + 1) actions :: rest, ⟨calls, iterations, halted, cancelled⟩⟩
        = due ⟨.list actions :: .loop count actions :: rest,
            ⟨calls, iterations + 1, halted, cancelled⟩⟩ := by
      cases halted with
      | true => rfl
      | false => simp [due, Block.unroll, List.replicate_succ]
    rw [same]
    exact .nothing _
  | .list (action :: actions) :: rest =>
    cases halted with
    | true => exact .nothing _
    | false =>
      cases action with
      | serviceCall service data => exact .call service data _
      | wait ms => exact .wait ms _
      | repeatCount count body =>
        -- what is to be repeated is put in front of what follows it
        have same : due ⟨.list (.repeatCount count body :: actions) :: rest,
              ⟨calls, iterations, false, cancelled⟩⟩
            = due ⟨.loop count.toNat body :: .list actions :: rest,
                ⟨calls, iterations, false, cancelled⟩⟩ := by
          simp [due, Block.unroll, Action.unrollAll, Action.unroll]
        show Demand.nothing.Takes _ _
        rw [same]
        exact .nothing _
      | stop => exact .stop _
      | unknown => exact .nothing _

/-- The **service calls** that a run has still to make. -/
def callsLeft (p : Progress) : List (String × Json) :=
  (Action.reached p.due).filterMap Action.call?

/-- One step takes off **the call that it makes**. -/
theorem callsLeft_next (p : Progress) :
    p.callsLeft = (p.next false).1.call?.toList ++ (p.next false).2.callsLeft := by
  have takes := p.takes_next
  unfold callsLeft
  generalize (p.next false).1 = demand, p.due = left, (p.next false).2.due = later at takes
  cases takes with
  | nothing | finish => rfl
  | call => simp [Demand.call?, Action.isStop, Action.call?]
  | wait ms =>
    have none : (Action.wait ms).call? = none := rfl
    simp [Demand.call?, Action.isStop, none]
  | stop => simp [Demand.call?, Action.isStop]

/-- A run that has nothing left to do has no call left. -/
theorem callsLeft_of_agenda_nil {p : Progress} (h : p.agenda = []) : p.callsLeft = [] := by
  have none : p.due = [] := by simp [due, h]
  rw [callsLeft, none]
  rfl

/-- The calls that a run of some actions has to make are **those of its unrolling**. -/
theorem callsLeft_start (actions : List Action) :
    (start actions).callsLeft = Action.calls actions := by
  rw [callsLeft, due_start, Action.calls]

/-! ## 3. The summary to come -/

/-- The actions still to do, with the repetitions **still to be met**. -/
def dueVisits (p : Progress) : List Action :=
  if p.summary.halted then [] else p.agenda.flatMap Block.visits

/-- How many iterations are **still to be counted**: all that are left of repetitions under way, and
all those of repetitions met before the first stop. -/
def dueIterations (p : Progress) : Nat :=
  (p.agenda.map Block.rounds).sum + ((Action.reached p.dueVisits).map Action.count).sum

/-- The **summary that a run will end with** if it is not cancelled. -/
def foreseen (p : Progress) : Summary where
  serviceCalls := p.summary.serviceCalls + p.callsLeft.length
  iterations := p.summary.iterations + p.dueIterations
  halted := p.summary.halted || p.due.any Action.isStop
  cancelled := p.summary.cancelled

/-- With nothing left to do, it is the summary. -/
theorem foreseen_of_agenda_nil {p : Progress} (h : p.agenda = []) : p.foreseen = p.summary := by
  have calls := callsLeft_of_agenda_nil h
  obtain ⟨agenda, _, _, halted, _⟩ := p
  obtain rfl : agenda = [] := h
  cases halted <;> simp [foreseen, calls, due, dueIterations, dueVisits]

/-- But for iterations, a step counts **what it demands**. -/
theorem summary_next (p : Progress) :
    (p.next false).2.summary.serviceCalls
        = p.summary.serviceCalls + (p.next false).1.call?.toList.length
      ∧ (p.next false).2.summary.halted = (p.summary.halted || (p.next false).1.isStop)
      ∧ (p.next false).2.summary.cancelled = p.summary.cancelled := by
  obtain ⟨agenda, s⟩ := p
  have quiet (s : Summary) : s.serviceCalls = s.serviceCalls + Demand.nothing.call?.toList.length
      ∧ s.halted = (s.halted || Demand.nothing.isStop) ∧ s.cancelled = s.cancelled :=
    ⟨rfl, (Bool.or_false _).symm, rfl⟩
  match agenda with
  | [] => exact quiet s
  | .list [] :: rest => exact quiet s
  | .loop 0 actions :: rest => exact quiet s
  | .loop (count + 1) actions :: rest => exact quiet s
  | .list (action :: actions) :: rest =>
    have look : s.checkHalt false = s := by simp [Summary.checkHalt]
    unfold next
    dsimp only
    rw [look]
    split
    · exact quiet s
    · cases action with
      | stop => exact ⟨rfl, (Bool.or_true _).symm, rfl⟩
      | serviceCall => exact ⟨rfl, (Bool.or_false _).symm, rfl⟩
      | wait | repeatCount | unknown => exact quiet s

/-- An iteration counted is **no longer to be counted**. -/
theorem iterations_next (p : Progress) :
    (p.next false).2.summary.iterations + (p.next false).2.dueIterations
      = p.summary.iterations + p.dueIterations := by
  obtain ⟨agenda, calls, iterations, halted, cancelled⟩ := p
  match agenda with
  | [] => rfl
  | .list [] :: rest =>
    cases halted <;> simp [dueIterations, dueVisits, Block.visits, Block.rounds, Action.visitsAll]
  | .loop 0 actions :: rest =>
    cases halted <;> simp [dueIterations, dueVisits, Block.visits, Block.rounds]
  | .loop (count + 1) actions :: rest =>
    -- the iteration begun moves from those to be counted to those that were
    cases halted <;>
      simp [dueIterations, dueVisits, Block.visits, Block.rounds, List.replicate_succ] <;> omega
  | .list (action :: actions) :: rest =>
    cases halted with
    | true => simp [next, Summary.checkHalt, dueIterations, dueVisits, Block.rounds]
    | false =>
      cases action with
      | repeatCount count body =>
        simp [next, Summary.checkHalt, act, dueIterations, dueVisits, Block.rounds, Block.visits,
          Action.visitsAll, Action.visits, Action.isStop, Action.count]
        omega
      | serviceCall | wait | stop | unknown =>
        simp [next, Summary.checkHalt, act, dueIterations, dueVisits, Block.rounds, Block.visits,
          Action.visitsAll, Action.visits, Action.isStop, Action.count]

/-- A run **has halted or is still to halt** whatever step it takes. -/
theorem halted_next (p : Progress) :
    ((p.next false).2.summary.halted || (p.next false).2.due.any Action.isStop)
      = (p.summary.halted || p.due.any Action.isStop) := by
  have takes := p.takes_next
  rw [p.summary_next.2.1]
  generalize (p.next false).1 = demand, p.due = left, (p.next false).2.due = later at takes
  cases takes <;> simp [Demand.isStop, Action.isStop]

/-- **No step changes the summary to come**: what it counts was still to be counted. -/
theorem foreseen_next (p : Progress) : (p.next false).2.foreseen = p.foreseen := by
  obtain ⟨serviceCalls, -, cancelled⟩ := p.summary_next
  have calls : (p.next false).2.summary.serviceCalls + (p.next false).2.callsLeft.length
      = p.summary.serviceCalls + p.callsLeft.length := by
    rw [serviceCalls, p.callsLeft_next, List.length_append, Nat.add_assoc]
  simp only [foreseen, calls, p.iterations_next, p.halted_next, cancelled]

/-- What a run of some actions **will have done** when it ends. -/
theorem foreseen_start (actions : List Action) :
    (start actions).foreseen = Action.summary actions := by
  simp [foreseen, callsLeft, start, due, dueIterations, dueVisits, Block.unroll, Block.visits,
    Block.rounds, Action.summary, Action.calls, Action.iterations]

end Progress

/-! ## 4. Steps come to an end -/

namespace Action

mutual

/-- A bound for the steps that an action takes. -/
def weight : Action → Nat
  | repeatCount count actions => 2 + count.toNat * (2 + weightAll actions)
  | serviceCall _ _ | wait _ | stop | unknown => 1

/-- A bound for the steps that actions take. -/
def weightAll : List Action → Nat
  | [] => 0
  | action :: rest => weight action + weightAll rest

end

end Action

/-- A bound for the steps that a part of the agenda takes. -/
def Block.weight : Block → Nat
  | .list actions => 1 + Action.weightAll actions
  | .loop count actions => 1 + count * (2 + Action.weightAll actions)

namespace Progress

/-- A **bound for the steps** that a run has left. -/
def weight (p : Progress) : Nat :=
  (p.agenda.map Block.weight).sum

/-- **Every step counts**: a run that has something left to do has less left afterwards, whether it
was cancelled or not. -/
theorem weight_next_lt {p : Progress} (h : p.agenda ≠ []) (cancelled : Bool) :
    (p.next cancelled).2.weight < p.weight := by
  obtain ⟨agenda, s⟩ := p
  match agenda with
  | [] => exact absurd rfl h
  | .list [] :: rest => simp [weight, Block.weight, Action.weightAll]
  | .loop 0 actions :: rest => simp [weight, Block.weight]
  | .loop (count + 1) actions :: rest =>
    simp only [next_loop_succ, weight, List.map_cons, List.sum_cons, Block.weight, Nat.succ_mul]
    omega
  | .list (action :: actions) :: rest =>
    unfold next
    dsimp only
    split
    · simp only [weight, List.map_cons, List.sum_cons, Block.weight]
      omega
    · cases action <;>
        simp only [act, weight, List.map_cons, List.sum_cons, Block.weight, Action.weightAll,
          Action.weight] <;> omega

end Progress

end RuleDispatch
