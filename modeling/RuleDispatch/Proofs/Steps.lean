import RuleDispatch.Proofs.Chores
import RuleDispatch.Proofs.History

/-! # What one move can do

Whatever the world is about to do, one move of it is of one of three kinds: chores or one rule
proposed for firing, a stride or a turn that refits runs without changing whose they are, or the end
of one run. Everything that holds of slots and tokens after every history comes from this.

* `World.firing?` — the rule that the next step proposes for firing.
* `World.Refit`, `World.Ends` — runs refitted, one run over.
* `World.MoveKind`, `World.moveKind` — the kinds, and that every move is of one. -/

namespace RuleDispatch

/-- A run with nothing left to do **ends**. -/
theorem Progress.next_of_agenda_nil {p : Progress} (h : p.agenda = []) (cancelled : Bool) :
    p.next cancelled = (.finish, p) := by
  unfold next
  rw [h]

/-- A run with something left to do does not. -/
theorem Progress.next_ne_finish {p : Progress} (h : p.agenda ≠ []) (cancelled : Bool) :
    (p.next cancelled).1 ≠ .finish := by
  unfold next
  split
  · contradiction
  · intro h; cases h
  · dsimp only
    split
    · intro h; cases h
    · next action _ _ _ _ => cases action <;> rintro ⟨⟩
  · intro h; cases h
  · intro h; cases h

/-- The **stamp** of a run: what no stride of it changes. -/
structure Stamp where
  run : Nat
  owner : Owner
  cancelled : Bool

/-- The stamp of a run. -/
def Run.stamp (r : Run) : Stamp :=
  ⟨r.id, r.owner, r.cancelled⟩

namespace World

/-- Runs **refitted**: at most they got on with their actions, or wait for something else. -/
structure Refit (w w' : World) : Prop where
  stamps : w'.runs.map Run.stamp = w.runs.map Run.stamp
  entries : w'.ledger.entries = w.ledger.entries
  nextRun : w'.nextRun = w.nextRun
  engine : w'.engine = w.engine

/-- One run **over**, and its slot told. -/
structure Ends (w w' : World) (r : Run) : Prop where
  stamps : w'.runs.map Run.stamp = (w.runs.filter (·.id ≠ r.id)).map Run.stamp
  entries : w'.ledger.entries = released w.ledger.entries r.owner
  nextRun : w'.nextRun = w.nextRun
  engine : w'.engine = w.engine

/-- Leaving the runs, the rules and the slots alone refits nothing. -/
theorem Refit.of_ledger {w w' : World} {now : Nat} {calls : Nat} {ready : List Task}
    {stack : List Frame} (h : w'.ledger = { w.ledger with now, calls, ready, stack }) : Refit w w' where
  stamps := by rw [show w'.runs = w.runs from congrArg Ledger.runs h]
  entries := by rw [h]
  nextRun := congrArg Ledger.nextRun h
  engine := congrArg Ledger.engine h

/-- Runs can be refitted **one time after the other**. -/
theorem Refit.trans {u v w : World} (h : Refit u v) (h' : Refit v w) : Refit u w where
  stamps := h'.stamps.trans h.stamps
  entries := h'.entries.trans h.entries
  nextRun := h'.nextRun.trans h.nextRun
  engine := h'.engine.trans h.engine

/-- Changing a run without changing its stamp refits it. -/
theorem refit_modifyRun (w : World) (id : Nat) {f : Run → Run} (h : ∀ r, (f r).stamp = r.stamp) :
    Refit w (w.modifyRun id f) where
  stamps := by
    rw [modifyRun, List.map_map]
    refine List.map_congr_left fun r _ => ?_
    by_cases this : r.id = id <;> simp [this, h]
  entries := rfl
  nextRun := rfl
  engine := rfl

/-- What ends after runs were refitted ends a run of before. -/
theorem Refit.trans_ends {u v w : World} {r : Run} (h : Refit u v) (h' : Ends v w r) :
    Ends u w r where
  stamps := by
    have numbers (l : List Run) :
        (l.filter (·.id ≠ r.id)).map Run.stamp = (l.map Run.stamp).filter (·.run ≠ r.id) := by
      rw [List.filter_map]
      rfl
    rw [h'.stamps, numbers, numbers, h.stamps]
  entries := h'.entries.trans (congrArg (released · r.owner) h.entries)
  nextRun := h'.nextRun.trans h.nextRun
  engine := h'.engine.trans h.engine

/-- A run that **finishes** comes to its end. -/
theorem ends_finishRun (w : World) (r : Run) : Ends w (w.finishRun r) r := by
  have ledger := ledger_finishRun w r
  exact
    { stamps := congrArg (List.map Run.stamp ∘ Ledger.runs) ledger
      entries := congrArg Ledger.entries ledger
      nextRun := congrArg Ledger.nextRun ledger
      engine := congrArg Ledger.engine ledger }

/-- A run that **panics** comes to its end. -/
theorem ends_panicRun (w : World) (r : Run) : Ends w (w.panicRun r) r := by
  have ledger := ledger_panicRun w r
  exact
    { stamps := congrArg (List.map Run.stamp ∘ Ledger.runs) ledger
      entries := congrArg Ledger.entries ledger
      nextRun := congrArg Ledger.nextRun ledger
      engine := congrArg Ledger.engine ledger }

/-! ## Kinds of moves -/

/-- The rule that the next step **proposes for firing**, by its place. -/
def firing? (w : World) : Option Nat :=
  w.stack.head?.bind w.proposed?

/-- The **kinds of moves**; the last arguments are the rule that the move proposes for firing and
the run that it ends, if there are such. -/
inductive MoveKind (w w' : World) : Option Nat → Option Run → Prop where
  /-- Chores are done, or a rule is proposed for firing. -/
  | acts {u : World} {firing : Option Nat} (same : u.ledger = { w.ledger with stack := u.stack })
      (registrations : u.registrations = w.registrations) (store : u.store = w.store)
      (done : Acts u w' firing) : MoveKind w w' firing none
  /-- A run gets on, or waits. -/
  | refits (done : Refit w w') : MoveKind w w' none none
  /-- A run comes to its end. -/
  | ends {r : Run} (member : r ∈ w.runs) (done : Ends w w' r) : MoveKind w w' none (some r)

/-- A run that **goes to sleep** is refitted. -/
theorem refit_waitFor (w : World) (id ms : Nat) : Refit w (w.waitFor id ms) := by
  unfold waitFor
  split
  · exact .of_ledger rfl
  · exact refit_modifyRun w id fun _ => rfl

/-- **A stride** of a run that has something left to do refits it. -/
theorem refit_execute (exec : Executor) (w : World) {id : Nat} {r : Run} (found : w.run? id = some r)
    (left : r.progress.agenda ≠ []) : Refit w (w.execute exec id) := by
  have more := r.progress.next_ne_finish left r.cancelled
  unfold execute
  rw [found]
  dsimp only
  generalize r.progress.next r.cancelled = taken at more
  obtain ⟨demand, progress⟩ := taken
  have first : Refit w (w.modifyRun id fun r => { r with progress }) :=
    refit_modifyRun w id fun _ => rfl
  refine first.trans ?_
  cases demand with
  | nothing => exact .of_ledger rfl
  | call service data => exact .of_ledger rfl
  | wait ms => exact refit_waitFor _ _ ms
  | stop => exact .of_ledger rfl
  | finish => exact absurd rfl more

/-- **The last stride** of a run ends it. -/
theorem ends_execute (exec : Executor) (w : World) {id : Nat} {r : Run} (found : w.run? id = some r)
    (left : r.progress.agenda = []) : Ends w (w.execute exec id) r := by
  unfold execute
  rw [found]
  dsimp only
  rw [Progress.next_of_agenda_nil left]
  have first : Refit w (w.modifyRun id fun held => { held with progress := r.progress }) :=
    refit_modifyRun w id fun _ => rfl
  exact first.trans_ends (ends_finishRun _ r)

/-- A service call refits its run, unless it panics. -/
theorem refit_serve (w : World) (id : Nat) (call : Call)
    (h : call.effects ≠ [] ∨ call.result ≠ .panicked ∨ w.run? id = none) :
    Refit w (w.serve id call) := by
  unfold serve
  split
  · next closed =>
    unfold endCall
    split
    · exact .of_ledger rfl
    · exact .of_ledger rfl
    · next panics =>
      simp only [closed, panics, ne_eq, not_true_eq_false, false_or] at h
      rw [h]
      exact .of_ledger rfl
  · exact .of_ledger rfl
  · dsimp only
    split
    · exact .of_ledger rfl
    · exact refit_modifyRun w id fun _ => rfl

/-- A wait that was cut short refits its run. -/
theorem refit_interrupt (w : World) (id ms : Nat) : Refit w (w.interrupt id ms) := by
  have noted : Refit w (w.note (.waitInterrupted ms)) := .of_ledger rfl
  unfold interrupt
  refine noted.trans (Refit.trans (refit_modifyRun _ id fun _ => ?_) (.of_ledger rfl))
  rfl

/-- A run whose turn it is goes on waiting or gets on. -/
theorem refit_resumeRun (w : World) (id : Nat) : Refit w (w.resumeRun id) := by
  have woken : Refit w (w.modifyRun id fun r => { r with phase := .ready }) :=
    refit_modifyRun w id fun _ => rfl
  unfold resumeRun
  split
  · exact .of_ledger rfl
  · split
    · exact .of_ledger rfl
    · split_ifs
      · exact woken.trans (.of_ledger rfl)
      · exact refit_interrupt w id _
      · exact .of_ledger rfl
    · split_ifs
      · exact woken.trans (.of_ledger rfl)
      · exact .of_ledger rfl

/-- **Waking what is due** changes no run. -/
theorem refit_wakeDue (w : World) : Refit w w.wakeDue :=
  .of_ledger (ledger_wakeDue w)

/-- **Moving the clock on** changes no run. -/
theorem refit_advanceTo (w : World) (time : Nat) : Refit w (w.advanceTo time) := by
  unfold advanceTo
  split
  · split
    · next next _ _ =>
      let later : World := { w with now := max w.now next }
      have moved : Refit w later := .of_ledger rfl
      exact moved.trans ((refit_wakeDue later).trans (.of_ledger (ledger_push _ _)))
    · exact .of_ledger rfl
  · exact .of_ledger rfl

/-- A timer whose turn it is has its next turn put before **what its target does**. -/
theorem acts_tick (w : World) (index : Nat) :
    ∃ u : World, u.ledger = { w.ledger with stack := u.stack }
      ∧ (u.stack = w.stack ∨ u.stack = .resume (.timer index) :: w.stack)
      ∧ u.registrations = w.registrations ∧ u.store = w.store
      ∧ Acts u (w.tick index) (w.timerRule? index) := by
  unfold tick timerRule?
  cases w.timers[index]? with
  | none => exact ⟨w, rfl, .inl rfl, rfl, rfl, .chores .refl⟩
  | some t =>
    rw [Option.bind_some]
    dsimp only
    split_ifs with early
    · exact ⟨w, rfl, .inl rfl, rfl, rfl, .chores .refl⟩
    · let again : World :=
        { w with
          timers := w.timers.modify index fun held => { held with deadline := t.nextDeadline w.now } }
      refine ⟨again.push [.resume (.timer index)], rfl, .inr rfl, rfl, rfl, ?_⟩
      exact acts_callTarget (again.push [.resume (.timer index)]) .tick t.target

/-- A **step of a run** ends it when nothing is left to do. -/
theorem moveKind_execute (exec : Executor) (w : World) (id : Nat) :
    MoveKind w (w.execute exec id) none ((w.run? id).filter fun r => r.progress.agenda.isEmpty) := by
  cases found : w.run? id with
  | none =>
    have still : w.execute exec id = w := by
      unfold execute
      rw [found]
    rw [still]
    exact .refits (.of_ledger rfl)
  | some r =>
    by_cases left : r.progress.agenda = []
    · rw [Option.filter_some, left]
      exact .ends (List.mem_of_find?_eq_some found) (ends_execute exec w found left)
    · rw [Option.filter_some, List.isEmpty_eq_false_iff.mpr left]
      exact .refits (refit_execute exec w found left)

/-- A **step of a service call** ends the run when it panics. -/
theorem moveKind_serve (w : World) (id : Nat) (call : Call) :
    MoveKind w (w.serve id call) none
      (if call.effects = [] ∧ call.result = .panicked then w.run? id else none) := by
  split_ifs with panics
  · cases found : w.run? id with
    | none => exact .refits (refit_serve w id call (.inr (.inr found)))
    | some r =>
      have closed : w.serve id call = w.panicRun r := by
        unfold serve endCall
        rw [panics.1, panics.2]
        dsimp only
        rw [found]
      rw [closed]
      exact .ends (List.mem_of_find?_eq_some found) (ends_panicRun w r)
  · refine .refits (refit_serve w id call ?_)
    by_cases closed : call.effects = []
    · exact .inr (.inl fun panicked => panics ⟨closed, panicked⟩)
    · exact .inl closed

/-- A kind of move does not depend on what else is to be done. -/
theorem MoveKind.of_below {w w' : World} {rest : List Frame} {firing : Option Nat}
    {ended : Option Run} (h : MoveKind { w with stack := rest } w' firing ended) :
    MoveKind w w' firing ended := by
  have first : Refit w { w with stack := rest } := .of_ledger rfl
  cases h with
  | acts same registrations store done => exact .acts same registrations store done
  | refits done => exact .refits (first.trans done)
  | ends member done => exact .ends member (first.trans_ends done)

/-- What a frame proposes does not depend on what else is to be done. -/
theorem proposed?_of_below (w : World) (rest : List Frame) (frame : Frame) :
    proposed? { w with stack := rest } frame = w.proposed? frame := by
  unfold proposed?
  split <;> rfl

/-- The run that the next step ends, when it is a **service call's** step. -/
theorem ending?_serve {w : World} {id : Nat} {call : Call} {rest : List Frame}
    (h : w.stack = .serve id call :: rest) :
    w.ending? = if call.effects = [] ∧ call.result = .panicked then w.run? id else none := by
  obtain ⟨service, effects, result⟩ := call
  unfold ending?
  rw [h]
  cases effects with
  | nil => cases result <;> rfl
  | cons effect effects => rfl

/-- **Every step** is of one of the kinds, proposes the rule that it was due to propose, and ends the
run that it was due to end. -/
theorem stepKind (exec : Executor) (w : World) :
    MoveKind w (w.step exec) w.firing? w.ending? := by
  cases stack : w.stack with
  | nil =>
    rw [step_idle exec w stack, ending?, firing?, stack]
    exact .refits (.of_ledger rfl)
  | cons frame rest =>
    let below : World := { w with stack := rest }
    have taken : w.step exec = below.act exec frame := by rw [step, stack]
    have proposes : w.firing? = below.proposed? frame := by
      rw [firing?, stack, proposed?_of_below]
      rfl
    rw [taken, proposes]
    refine @MoveKind.of_below w _ rest _ _ ?_
    -- only frames of runs end a run
    have none_ends (none_due : w.ending? = none)
        (kind : MoveKind below (below.act exec frame) (below.proposed? frame) none) :
        MoveKind below (below.act exec frame) (below.proposed? frame) w.ending? := none_due ▸ kind
    cases frame with
    | execute id =>
      rw [ending?, stack]
      exact moveKind_execute exec below id
    | serve id call =>
      rw [ending?_serve stack]
      exact moveKind_serve below id call
    | perform | respond | record | deliver | tellNumber | tellText | lines =>
      exact none_ends (by rw [ending?, stack])
        (.acts (u := below) rfl rfl rfl (acts_plain exec below rfl))
    | resume task =>
      refine none_ends (by rw [ending?, stack]) ?_
      cases task with
      | run id => exact .refits (refit_resumeRun below id)
      -- a timer is set again, which the ledger does not show, and then its target is called
      | timer index =>
        obtain ⟨u, same, -, registrations, store, acts⟩ := acts_tick below index
        exact .acts (u := u) same registrations store acts
    | drain =>
      refine none_ends (by rw [ending?, stack]) (.refits ?_)
      show Refit below below.drain
      unfold drain
      split <;> exact .of_ledger rfl
    | advanceTo time =>
      exact none_ends (by rw [ending?, stack]) (.refits (refit_advanceTo below time))
    | leap ms =>
      let later : World := { below with now := below.now + ms }
      have moved : Refit below later := .of_ledger rfl
      exact none_ends (by rw [ending?, stack]) (.refits (moved.trans (refit_wakeDue later)))

/-- What the next step **proposes**, and what it ends, is that of the move; nothing is proposed or
ended while something from outside is taken up. -/
theorem moveKind (exec : Executor) (w : World) (m : Move) :
    MoveKind w (w.move exec m)
      (match m with | .step => w.firing? | .receive _ => none)
      (match m with | .step => w.ending? | .receive _ => none) := by
  cases m with
  | step => exact stepKind exec w
  | receive s => cases s <;> exact .refits (.of_ledger rfl)

end World

end RuleDispatch
