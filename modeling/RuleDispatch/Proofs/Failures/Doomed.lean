import RuleDispatch.Proofs.Failures.Histories
import RuleDispatch.Proofs.Runs.Remains

/-! # Calls that are going to panic

While a service call is under way its run takes no stride, and how the call is going to end is looked
at by nobody. So up to the panic a history is the same behind a veil under which the call returns and
the run stops afterwards.

* `Veil.pardon`, `Executor.returning` — one call that returns instead, and a stop after it.
* `World.calls_le_move` — service calls are counted.
* `Run.doom`, `World.Poised.doom_step` — the panic that a run is going to come to.
* `World.Poised.unseen_pardon` — no step up to the panic sees the difference.
* `World.Poised.exists_panic` — the run lasts, or it panics on the way. -/

namespace RuleDispatch

/-! ## 1. One call that returns instead -/

/-- How a call ends **when it does not panic**. -/
def CallResult.pardoned : CallResult → CallResult
  | .panicked => .done
  | .done => .done
  | .failed reason => .failed reason

/-- What is left to do with **a stop first**. -/
def stopFirst : List Block → List Block
  | .list actions :: rest => .list (.stop :: actions) :: rest
  | rest => .list [.stop] :: rest

/-- Behind this veil the call of **one run returns**, and the run is to stop then. -/
def Veil.pardon (id : Nat) : Veil where
  result run result := if run = id then result.pardoned else result
  agenda run blocks := if run = id then stopFirst blocks else blocks
  log entries := entries
  log_cons _ _ _ _ := rfl
  done run := by split <;> rfl
  failed run reason := .inl ⟨by split <;> rfl, fun _ _ _ => rfl⟩

/-- To pardon one run **spares every other**. -/
theorem Veil.spares_pardon {id run : Nat} (other : run ≠ id) : (Veil.pardon id).Spares run :=
  fun _ => if_neg other

/-- An executor **one of whose calls returns**, whatever it did before. -/
def Executor.returning (exec : Executor) (call : Nat) : Executor := fun calls service data =>
  if calls = call then { exec calls service data with result := .done } else exec calls service data

/-- Calls **after the one that returns** are those of the executor. -/
theorem Executor.returning_of_lt (exec : Executor) {call calls : Nat} (later : call < calls)
    (service : String) (data : Json) :
    exec.returning call calls service data = exec calls service data :=
  if_neg (Nat.ne_of_gt later)

namespace World

variable {exec : Executor} {w w' : World}

/-! ## 2. Counting calls -/

/-- **One chore** calls no service. -/
theorem calls_chore (h : Chore w w') : w'.calls = w.calls := by
  cases h with
  | quiet frames plain same => exact congrArg Ledger.calls same
  | spawn => rfl
  | cancel => exact congrArg Ledger.calls (ledger_cancelRun w _)
  | unregister id =>
    have ledger := congrArg Ledger.calls (ledger_unregister w id)
    cases found : w.ruleIndex? id with
    | none => rw [found] at ledger; exact ledger
    | some index => rw [found] at ledger; exact ledger
  | enrol => exact congrArg Ledger.calls (ledger_enrol w _)
  | disposeAll => exact congrArg Ledger.calls (ledger_disposeAll w)
  | dropEngine => exact congrArg Ledger.calls (ledger_dropEngine w)

/-- **Chores** call no service. -/
theorem calls_chores (h : Chores w w') : w'.calls = w.calls := by
  induction h with
  | refl => rfl
  | tail _ last ih => rw [calls_chore last, ih]

/-- **Firing a rule** calls no service. -/
theorem calls_fire (w : World) (index : Nat) : (w.fire index).calls = w.calls := by
  cases registered : w.registrations[index]? with
  | none => rw [fire, registered]
  | some r =>
    have ledger := congrArg Ledger.calls (ledger_fire w registered)
    split_ifs at ledger
    · exact ledger.trans (congrArg Ledger.calls (ledger_startRun w index r))
    · exact ledger

/-- What is done between strides **calls no service**. -/
theorem calls_acts {firing : Option Nat} (h : Acts w w' firing) : w'.calls = w.calls := by
  cases h with
  | chores done => exact calls_chores done
  | fires frames plain same registrations store done =>
    exact (congrArg Ledger.calls done).trans ((calls_fire _ _).trans (congrArg Ledger.calls same))

/-- **A stride** takes no call back. -/
theorem calls_execute (exec : Executor) (w : World) (id : Nat) :
    w.calls ≤ (w.execute exec id).calls := by
  have closed (u : World) (r : Run) : (u.finishRun r).calls = u.calls :=
    congrArg Ledger.calls (ledger_finishRun u r)
  unfold execute
  cases w.run? id with
  | none => exact Nat.le_refl _
  | some r =>
    dsimp only
    cases (r.progress.next r.cancelled).1 with
    | nothing | stop => exact Nat.le_refl _
    | call service data => exact Nat.le_succ _
    | wait ms =>
      simp only [meet, waitFor]
      split_ifs <;> exact Nat.le_refl _
    | finish =>
      show w.calls ≤ (finishRun _ _).calls
      rw [closed]
      exact Nat.le_refl _

/-- **A step of a service call** counts no further call: it was counted when it began. -/
theorem calls_serve (w : World) (id : Nat) (call : Call) : (w.serve id call).calls = w.calls := by
  unfold serve
  split
  · unfold endCall
    split
    · rfl
    · rfl
    · cases w.run? id with
      | none => rfl
      | some r => exact congrArg Ledger.calls (ledger_panicRun w r)
  · rfl
  · dsimp only
    split <;> rfl

/-- **Waking a run up** calls no service. -/
theorem calls_resumeRun (w : World) (id : Nat) : (w.resumeRun id).calls = w.calls := by
  unfold resumeRun
  split
  · rfl
  · split
    · rfl
    · split_ifs <;> rfl
    · split_ifs <;> rfl

/-- **Every move** counts the calls it makes. -/
theorem calls_le_move (exec : Executor) (w : World) (m : Move) : w.calls ≤ (w.move exec m).calls := by
  cases m with
  | receive s => cases s <;> exact Nat.le_refl _
  | step =>
    show w.calls ≤ (w.step exec).calls
    cases stack : w.stack with
    | nil => rw [step_idle exec w stack]
    | cons frame rest =>
      let below : World := { w with stack := rest }
      have woken (v : World) : v.wakeDue.calls = v.calls := congrArg Ledger.calls (ledger_wakeDue v)
      rw [show w.step exec = below.act exec frame by rw [step, stack]]
      cases frame with
      | execute id => exact calls_execute exec below id
      | serve id call => exact Nat.le_of_eq (calls_serve below id call).symm
      | resume task =>
        cases task with
        | run id => exact Nat.le_of_eq (calls_resumeRun below id).symm
        | timer index =>
          obtain ⟨u, same, -, -, -, acts⟩ := acts_tick below index
          exact Nat.le_of_eq ((calls_acts acts).trans (congrArg Ledger.calls same)).symm
      | perform | respond | record | deliver | tellNumber | tellText | lines =>
        exact Nat.le_of_eq (calls_acts (acts_plain exec below rfl)).symm
      | drain =>
        show below.calls ≤ below.drain.calls
        unfold drain
        split <;> exact Nat.le_refl _
      | advanceTo time =>
        show below.calls ≤ (below.advanceTo time).calls
        unfold advanceTo
        split
        · split_ifs
          · show below.calls ≤ (wakeDue _).calls
            rw [woken]
          · exact Nat.le_refl _
        · exact Nat.le_refl _
      | leap ms =>
        show below.calls ≤ (below.leap ms).calls
        rw [leap, woken]

/-- **No history** takes a call back. -/
theorem calls_le_after (exec : Executor) (w : World) (moves : List Move) :
    w.calls ≤ (w.after exec moves).calls := by
  induction moves generalizing w with
  | nil => exact Nat.le_refl _
  | cons m moves ih => exact Nat.le_trans (calls_le_move exec w m) (ih _)

end World

/-! ## 3. The panic to come -/

namespace Run

/-- The **panic** that a run in a service call is going to come to: all that remains of it, if that is
a panic. -/
def doom (wake : Nat → Nat) (now : Nat) (r : Run) (turn : Option Frame) : List (Nat × Deed) :=
  (r.remains wake now turn).filter (·.2.isPanic)

/-- It does not matter for it whether the run was cancelled. -/
theorem blind_doom : Prospect.Blind doom :=
  fun _ _ _ _ => rfl

/-- It hangs on later moments only: what waits is in no call. -/
theorem patient_doom (r : Run) : Prospect.Patient doom r := by
  intro wake wake' now now' d late waits same
  cases inWait : r.inWait with
  | false => exact congrArg _ (patient_remains inWait wake wake' now now' d late waits same)
  | true =>
    obtain ⟨_, _, _, phase, _⟩ := r
    cases phase with
    | ready | calling => cases inWait
    | waiting => rfl

variable {wake : Nat → Nat} {now : Nat} {r : Run}

/-- What is in store for a run that is doomed is **the panic among what is in store** for it otherwise. -/
theorem later_doom (result : Option Run × List Frame) :
    Prospect.later doom wake now r.id result
      = (Prospect.later remains wake now r.id result).filter (·.2.isPanic) := by
  unfold Prospect.later
  cases result.1 <;> rfl

/-- A step of a service call takes off **the panic** that it is, if it is one. -/
theorem doom_served (call : Call) :
    r.doom wake now (some (.serve r.id call))
      = (servedDeed? now call).toList
        ++ Prospect.later doom wake now r.id (r.served now call) := by
  have panics : (servedDeed? now call).toList.filter (·.2.isPanic)
      = (servedDeed? now call).toList := by
    unfold servedDeed?
    split <;> rfl
  show (closing wake now call).filter _ = _
  rw [remains_served (r := r) call, List.filter_append, panics, later_doom]

/-- **Waking up** changes nothing. -/
theorem doom_resumed (come : ∀ d, d ≤ now → wake d = now) :
    r.doom wake now none = Prospect.later doom wake now r.id (r.resumed now) := by
  rw [later_doom, ← remains_resumed come]
  rfl

end Run

namespace World

variable {exec : Executor} {w : World} {id : Nat}

/-- The **panic that a run is going to come to** in the world; none where it is in no call, or
over. -/
def doom (w : World) (future : List Move) (id : Nat) : List (Nat × Deed) :=
  w.prospect Run.doom future id

/-- A run whose stride is next **is in no call**. -/
theorem doom_of_execute {rest : List Frame} (stack : w.stack = .execute id :: rest)
    (future : List Move) : w.doom future id = [] := by
  unfold doom prospect
  rw [stack, turnIn_execute]
  cases w.run? id <;> rfl

/-- What is to come of a call is **its panic**. -/
theorem isPanic_of_mem_doom {future : List Move} {deed : Nat × Deed}
    (member : deed ∈ w.doom future id) : deed.2.isPanic = true := by
  unfold doom prospect at member
  cases found : w.run? id with
  | none =>
    rw [found] at member
    cases member
  | some r =>
    rw [found] at member
    exact (List.mem_filter.mp member).2

/-- **One step** takes off the panic that it is, and leaves it to come otherwise. -/
theorem Poised.doom_step (h : Poised w) (sound : Sound w) (exec : Executor) {future : List Move}
    (old : id < w.nextRun) (doomed : w.doom (.step :: future) id ≠ []) :
    w.doom (.step :: future) id
      = w.deedsOf exec [.step] id ++ (w.step exec).doom future id := by
  refine h.prospect_step sound Run.blind_doom old (fun _ _ r _ => Run.patient_doom r)
    fun r found => ⟨fun strides => ?_, fun call => Run.doom_served call,
      Run.doom_resumed fun d => w.wakes_of_le _⟩
  -- a run in a call takes no stride
  obtain rfl := id_of_run? found
  cases stack : w.stack with
  | nil =>
    rw [stridesOf_step, stride?, stack] at strides
    cases strides
  | cons frame rest =>
    by_cases execute : frame = .execute r.id
    · exact absurd (doom_of_execute (execute ▸ stack) _) doomed
    · rw [stridesOf_step_of_stack stack execute] at strides
      cases strides

/-! ## 4. Up to the panic -/

/-- A run that is over **stays over**. -/
theorem Sound.run?_after_of_none (sound : Sound w) (old : id < w.nextRun) (gone : w.run? id = none)
    (moves : List Move) : (w.after exec moves).run? id = none := by
  refine sound.course (P := fun _ run => run = none) (Q := fun _ => True) old
    (fun _ _ _ _ _ => trivial) (fun _ move none => ?_) [] gone
  subst none
  cases move
  rfl

/-- A run is over **with its panic**. -/
theorem Poised.run?_step_of_panic (h : Poised w) (sound : Sound w) {service : String}
    {rest : List Frame} (stack : w.stack = .serve id ⟨service, [], .panicked⟩ :: rest) :
    (w.step exec).run? id = none := by
  obtain ⟨-, r, member, rfl, -⟩ := h.turn _ (stack ▸ List.mem_cons_self) id rfl
  have turned := turned_step exec sound.toNumbered stack rfl member
  exact turned.run?_self (sound.move exec .step).numbered member fun _ => Run.id_turn

/-- A step that is no stride of a run and no panic **shows nothing** of it. -/
theorem deed?_eq_none (strides : ∀ rest, w.stack ≠ .execute id :: rest)
    (panics : ∀ service rest, w.stack ≠ .serve id ⟨service, [], .panicked⟩ :: rest) :
    w.deed? id = none := by
  unfold deed?
  split
  · next run rest stack =>
    refine if_neg ?_
    rintro rfl
    exact strides rest stack
  · next run service rest stack =>
    refine if_neg ?_
    rintro rfl
    exact panics service rest stack
  · rfl

/-- A step that is no stride of a run and no panic **does not see** whether its call is going to
panic. -/
theorem overlooks_pardon (old : id < w.nextRun) {call : Nat} (made : call < w.calls)
    (strides : ∀ rest, w.stack ≠ .execute id :: rest)
    (panics : ∀ service rest, w.stack ≠ .serve id ⟨service, [], .panicked⟩ :: rest) :
    Overlooks (.pardon id) exec (exec.returning call) w where
  begun := Veil.spares_pardon (Nat.ne_of_gt old)
  stride run rest stack := by
    have other : run ≠ id := by
      rintro rfl
      exact strides rest stack
    refine ⟨Veil.spares_pardon other, fun service data => ?_⟩
    rw [exec.returning_of_lt made, Reply.behind,
      show (Veil.pardon id).result run _ = _ from if_neg other]
  panic run service rest stack := by
    refine if_neg ?_
    rintro rfl
    exact panics service rest stack

/-- As long as a run in a call that is going to panic **lasts**, no step sees that it is. -/
theorem Poised.unseen_pardon (h : Poised w) (sound : Sound w) {moves : List Move}
    (orderly : Orderly exec w moves) (old : id < w.nextRun) {call : Nat} (made : call < w.calls)
    (doomed : w.doom moves id ≠ []) (lasts : (w.after exec moves).run? id ≠ none) :
    Unseen (.pardon id) exec (exec.returning call) w moves := by
  induction moves generalizing w with
  | nil => exact unseen_nil
  | cons m moves ih =>
    obtain ⟨poised', later⟩ := h.move sound exec orderly
    have moved := sound.move exec m
    have old' := Nat.lt_of_lt_of_le old moved.nextRun
    have on (doomed' : (w.move exec m).doom moves id ≠ []) :=
      ih poised' (sound.of_moved moved) later old'
        (Nat.lt_of_lt_of_le made (calls_le_move exec w m)) doomed' lasts
    cases m with
    | receive s =>
      refine .cons nofun (on ?_)
      show (w.receive s).prospect Run.doom moves id ≠ []
      rw [prospect_receive orderly.1 s Run.blind_doom]
      exact doomed
    | step =>
      -- a doomed run makes no stride before its panic, and the panic would end it
      have strides (rest : List Frame) (stack : w.stack = .execute id :: rest) : False :=
        doomed (doom_of_execute stack _)
      have panics (service : String) (rest : List Frame)
          (stack : w.stack = .serve id ⟨service, [], .panicked⟩ :: rest) : False :=
        lasts ((sound.of_moved moved).run?_after_of_none old'
          (h.run?_step_of_panic sound stack) moves)
      refine .cons (fun _ => overlooks_pardon old made strides panics) (on ?_)
      have split := h.doom_step sound exec old doomed
      rw [deedsOf_step, deed?_eq_none strides panics] at split
      exact fun none => doomed (split.trans none)

/-- A call that is going to panic and whose run **does not last** panics on the way. -/
theorem Poised.exists_panic (h : Poised w) (sound : Sound w) {moves : List Move}
    (orderly : Orderly exec w moves) (old : id < w.nextRun) (doomed : w.doom moves id ≠ [])
    (gone : (w.after exec moves).run? id = none) :
    ∃ during later t, moves = during ++ .step :: later
      ∧ (w.after exec during).deed? id = some (t, .panic) := by
  induction moves generalizing w with
  | nil =>
    refine absurd ?_ doomed
    rw [doom, prospect, show w.run? id = none from gone]
    rfl
  | cons m moves ih =>
    obtain ⟨poised', later⟩ := h.move sound exec orderly
    have moved := sound.move exec m
    have on (doomed' : (w.move exec m).doom moves id ≠ []) :
        ∃ during later t, m :: moves = during ++ .step :: later
          ∧ (w.after exec during).deed? id = some (t, .panic) := by
      obtain ⟨during, later, t, split, panics⟩ := ih poised' (sound.of_moved moved) later
        (Nat.lt_of_lt_of_le old moved.nextRun) doomed' gone
      exact ⟨m :: during, later, t, by rw [split]; rfl, panics⟩
    cases m with
    | receive s =>
      refine on ?_
      show (w.receive s).prospect Run.doom moves id ≠ []
      rw [prospect_receive orderly.1 s Run.blind_doom]
      exact doomed
    | step =>
      have split := h.doom_step sound exec old doomed
      rw [deedsOf_step] at split
      cases shown : w.deed? id with
      | none =>
        rw [shown] at split
        exact on fun none => doomed (split.trans none)
      | some deed =>
        -- what is to come of a call is its panic
        have panics : deed.2.isPanic = true := by
          refine isPanic_of_mem_doom (?_ : deed ∈ w.doom (.step :: moves) id)
          rw [split, shown]
          exact List.mem_cons_self
        obtain ⟨t, d⟩ := deed
        cases d with
        | panic => exact ⟨[], moves, t, rfl, shown⟩
        | call | finish => cases panics

end World

end RuleDispatch
