import RuleDispatch.Proofs.Failures.Behind
import RuleDispatch.Proofs.Runs.Course

/-! # Histories behind a veil

When no step of a history sees a veil, the whole history is the same behind it: the same rules are
proposed for firing and get their runs at the same moments, the same calls are made, and the same runs
come to their end. Whether calls fail is behind such a veil, since a failure is noted and nothing else.

* `World.Unseen`, `World.Unseen.behind_after` — histories of which no step sees a veil.
* `World.Unseen.deedsOf`, `World.Unseen.reports`, `World.Unseen.decisions` — what they show.
* `Veil.hush`, `World.unseen_hush` — failures hidden. -/

namespace RuleDispatch

/-- What a run that comes to its end **leaves to report**: its number, its owner and its summary. -/
def Run.report (r : Run) : Nat × Owner × Summary :=
  (r.id, r.owner, r.progress.summary)

namespace World

variable {v : Veil} {exec exec' : Executor} {w : World} {moves : List Move}

/-! ## 1. Views of one step -/

/-- The **firing that the next step decides**: the moment, the place of the rule, and whether it gets
its run. -/
def decision? (w : World) : Option (Nat × Nat × Bool) :=
  w.firing?.map fun index => (w.now, index, w.accepted?.isSome)

/-- The **report of the run** that the next step ends. -/
def report? (w : World) : Option (Nat × Owner × Summary) :=
  w.ending?.map Run.report

/-- **Which rule is proposed** for firing is the same behind a veil. -/
theorem firing?_behind (v : Veil) (w : World) : (w.behind v).firing? = w.firing? := by
  unfold firing?
  rw [stack_behind]
  cases w.stack with
  | nil => rfl
  | cons frame rest => cases frame <;> rfl

/-- **Which firing is decided**, and how, is the same behind a veil. -/
theorem decision?_behind (v : Veil) (w : World) : (w.behind v).decision? = w.decision? := by
  have takes : (w.behind v).takes = w.takes := rfl
  unfold decision? accepted? acceptedOf
  rw [firing?_behind, registrations_behind, takes, now_behind]

/-- A veil that spares a run leaves **what it has to do next**. -/
theorem progress_behind {r : Run} (spares : v.Spares r.id) : (r.behind v).progress = r.progress := by
  rw [Run.behind, spares]

/-- A call that returns **panics behind a veil when it does**, if the step does not see the veil. -/
theorem Overlooks.panics (overlooks : Overlooks v exec exec' w) {id : Nat} {service : String}
    {result : CallResult} {rest : List Frame} (stack : w.stack = .serve id ⟨service, [], result⟩ :: rest) :
    v.result id result = .panicked ↔ result = .panicked := by
  cases result with
  | done => simp [v.done]
  | failed reason => rcases v.failed id reason with ⟨seen, -⟩ | ⟨hidden, -⟩ <;> simp [*]
  | panicked => simp [overlooks.panic id service rest stack]

/-- What a step **shows of a run** is the same behind a veil that it does not see. -/
theorem Overlooks.deed?_behind (overlooks : Overlooks v exec exec' w) (id : Nat) :
    (w.behind v).deed? id = w.deed? id := by
  unfold deed?
  rw [stack_behind]
  cases stack : w.stack with
  | nil => rfl
  | cons frame rest =>
    rw [List.map_cons]
    cases frame with
    | execute run =>
      have spares := (overlooks.stride run rest stack).1
      show (if run = id then _ else none) = if run = id then _ else none
      by_cases mine : run = id
      · subst mine
        rw [if_pos rfl, if_pos rfl, run?_behind]
        cases found : w.run? run with
        | none => rfl
        | some r =>
          dsimp only [Option.map_some, Option.bind_some]
          rw [progress_behind (id_of_run? found ▸ spares), Run.cancelled_behind, now_behind]
      · rw [if_neg mine, if_neg mine]
    | serve run call =>
      obtain ⟨service, effects, result⟩ := call
      cases effects with
      | cons effect effects => rfl
      | nil =>
        -- a panic is not hidden from this step, so both calls end in one or neither does
        have panics := overlooks.panics stack
        dsimp only [Frame.behind, Call.behind]
        generalize v.result run result = result' at panics
        cases result <;> cases result' <;> simp_all [run?_behind, Function.comp_def]
    | resume | perform | respond | record | deliver | tellNumber | tellText | lines | drain
    | advanceTo | leap => rfl

/-- **Which run comes to its end** is the same behind a veil that the step does not see. -/
theorem Overlooks.ending?_behind (overlooks : Overlooks v exec exec' w) :
    (w.behind v).ending? = w.ending?.map (·.behind v) := by
  unfold ending?
  rw [stack_behind]
  cases stack : w.stack with
  | nil => rfl
  | cons frame rest =>
    rw [List.map_cons]
    cases frame with
    | execute run =>
      have spares := (overlooks.stride run rest stack).1
      dsimp only [Frame.behind]
      rw [run?_behind]
      cases found : w.run? run with
      | none => rfl
      | some r =>
        dsimp only [Option.map_some]
        rw [Option.filter_some, Option.filter_some, progress_behind (id_of_run? found ▸ spares)]
        split_ifs <;> rfl
    | serve run call =>
      obtain ⟨service, effects, result⟩ := call
      cases effects with
      | cons effect effects => rfl
      | nil =>
        have panics := overlooks.panics stack
        dsimp only [Frame.behind, Call.behind]
        generalize v.result run result = result' at panics
        cases result <;> cases result' <;> simp_all [run?_behind]
    | resume | perform | respond | record | deliver | tellNumber | tellText | lines | drain
    | advanceTo | leap => rfl

/-- **What a step reports** is the same behind a veil that it does not see. -/
theorem Overlooks.report?_behind (overlooks : Overlooks v exec exec' w) :
    (w.behind v).report? = w.report? := by
  rw [report?, overlooks.ending?_behind, Option.map_map]
  rfl

/-! ## 2. Histories -/

/-- **No step of a history sees** a veil. -/
def Unseen (v : Veil) (exec exec' : Executor) (w : World) (moves : List Move) : Prop :=
  ∀ past future, moves = past ++ .step :: future → Overlooks v exec exec' (w.after exec past)

/-- The first move of a history that does not see a veil leads to **the same world behind it**. -/
theorem Unseen.move {m : Move} (unseen : Unseen v exec exec' w (m :: moves)) :
    (w.move exec m).behind v = (w.behind v).move exec' m := by
  cases m with
  | step => exact behind_step (unseen [] moves rfl)
  | receive s => exact behind_receive v w s

/-- What comes **after the first move** does not see the veil either. -/
theorem Unseen.tail {m : Move} (unseen : Unseen v exec exec' w (m :: moves)) :
    Unseen v exec exec' (w.move exec m) moves :=
  fun past future split => unseen (m :: past) future (congrArg (m :: ·) split)

/-- A history whose first step and whose later steps do not see a veil. -/
theorem Unseen.cons {m : Move} (first : m = .step → Overlooks v exec exec' w)
    (later : Unseen v exec exec' (w.move exec m) moves) : Unseen v exec exec' w (m :: moves) := by
  intro past future split
  cases past with
  | nil => exact first (List.cons.inj split).1
  | cons n past =>
    obtain ⟨rfl, rest⟩ := List.cons.inj split
    exact later past future rest

/-- The first part of a history of which no step sees a veil. -/
theorem Unseen.past {future : List Move} (unseen : Unseen v exec exec' w (moves ++ future)) :
    Unseen v exec exec' w moves :=
  fun before after split => unseen before (after ++ future) (by rw [split, List.append_assoc]; rfl)

/-- A history **without moves** sees no veil. -/
theorem unseen_nil : Unseen v exec exec' w [] :=
  fun past _ split => by cases past <;> cases split

/-- **A history** is the same behind a veil that none of its steps sees. -/
theorem Unseen.behind_after (unseen : Unseen v exec exec' w moves) :
    (w.after exec moves).behind v = (w.behind v).after exec' moves := by
  induction moves generalizing w with
  | nil => rfl
  | cons m moves ih => rw [after_cons, after_cons, ih unseen.tail, unseen.move]

/-- A history is **orderly** behind a veil when it is. -/
theorem Unseen.orderly (unseen : Unseen v exec exec' w moves) :
    Orderly exec' (w.behind v) moves ↔ Orderly exec w moves := by
  induction moves generalizing w with
  | nil => exact Iff.rfl
  | cons m moves ih =>
    have later := ih unseen.tail
    rw [unseen.move] at later
    cases m with
    | step => exact later
    | receive s =>
      have idle : (w.behind v).isIdle = w.isIdle := by
        rw [isIdle, isIdle, stack_behind, List.isEmpty_map]
      exact and_congr (by rw [idle]) later

/-- **What a history shows** is the same behind a veil, if what each of its steps shows is. -/
theorem Unseen.shown {α : Type} (unseen : Unseen v exec exec' w moves) {view : World → Option α}
    (same : ∀ u, Overlooks v exec exec' u → view (u.behind v) = view u) :
    World.shown exec' view (w.behind v) moves = World.shown exec view w moves := by
  induction moves generalizing w with
  | nil => rfl
  | cons m moves ih =>
    have later := ih unseen.tail
    rw [unseen.move] at later
    cases m with
    | receive s => exact later
    | step =>
      show (view (w.behind v)).toList ++ _ = (view w).toList ++ _
      rw [same w (unseen [] moves rfl)]
      exact congrArg ((view w).toList ++ ·) later

/-- The same **deeds** are done by each run. -/
theorem Unseen.deedsOf (unseen : Unseen v exec exec' w moves) (id : Nat) :
    (w.behind v).deedsOf exec' moves id = w.deedsOf exec moves id :=
  unseen.shown fun _ overlooks => overlooks.deed?_behind id

/-- The **firings decided** in a history, and how, one after another. -/
def decisions (exec : Executor) (w : World) (moves : List Move) : List (Nat × Nat × Bool) :=
  World.shown exec decision? w moves

/-- The same **firings** are decided in the same way. -/
theorem Unseen.decisions (unseen : Unseen v exec exec' w moves) :
    (w.behind v).decisions exec' moves = w.decisions exec moves :=
  unseen.shown fun u _ => decision?_behind v u

/-- The **reports** of the runs that come to their end in a history. -/
def reports (exec : Executor) (w : World) (moves : List Move) : List (Nat × Owner × Summary) :=
  World.shown exec report? w moves

/-- The same **reports** are left. -/
theorem Unseen.reports (unseen : Unseen v exec exec' w moves) :
    (w.behind v).reports exec' moves = w.reports exec moves :=
  unseen.shown fun _ overlooks => overlooks.report?_behind

end World

/-! ## 3. Failures hidden -/

/-- How a call ends, when **failing is as good as not failing**. -/
def CallResult.hushed : CallResult → CallResult
  | .done | .failed _ => .done
  | .panicked => .panicked

/-- An executor whose calls **do not fail**, and else are answered as by another. -/
def Executor.hushed (exec : Executor) : Executor :=
  fun calls service data =>
    { exec calls service data with result := (exec calls service data).result.hushed }

/-- Behind this veil **no call fails**, and no failure was noted. -/
def Veil.hush : Veil where
  result _ := CallResult.hushed
  agenda _ blocks := blocks
  log entries := entries.filter fun e => !e.2.isFailure
  log_cons time entry older loud := List.filter_cons_of_pos (by simp [loud])
  done _ := rfl
  failed _ _ := .inr ⟨rfl, fun _ _ _ => List.filter_cons_of_neg (by simp [Entry.isFailure])⟩

namespace World

/-- **No step** sees whether calls fail. -/
theorem unseen_hush (exec : Executor) (w : World) (moves : List Move) :
    Unseen Veil.hush exec exec.hushed w moves :=
  fun _ _ _ => ⟨fun _ => rfl, fun _ _ _ => ⟨fun _ => rfl, fun _ _ => rfl⟩, fun _ _ _ _ => rfl⟩

end World

end RuleDispatch
