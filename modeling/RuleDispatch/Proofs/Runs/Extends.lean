import RuleDispatch.Proofs.Runs.Turn

/-! # What chores leave to the runs

Chores and firings may cancel runs, wake those that wait, and start new ones. Whatever else a run is
stays as it was: its phase, its progress, its place in the queue. So a run whose turn it is not
notices nothing of what goes on but its cancellation.

* `World.Extends` — more runs, more to be done, and what was there is still there.
* `World.extends_chores`, `World.extends_acts` — this is all that chores and firings do. -/

namespace RuleDispatch

/-- A run, **perhaps cancelled**. -/
def Run.marked (r : Run) (cancelled : Bool) : Run :=
  { r with cancelled := r.cancelled || cancelled }

@[simp] theorem Run.id_marked (r : Run) (cancelled : Bool) : (r.marked cancelled).id = r.id := rfl

/-- Marks **add up**. -/
theorem Run.marked_marked (r : Run) (a b : Bool) : (r.marked a).marked b = r.marked (a || b) := by
  simp [marked, Bool.or_assoc]

/-- A run that is not marked **stays as it is**. -/
theorem Run.marked_false (r : Run) : r.marked false = r := by
  simp [marked]

/-- To cancel runs with a number is to **mark them**. -/
theorem Run.cancelIf_eq_marked (r : Run) (id : Nat) : r.cancelIf id = r.marked (r.id = id) := by
  unfold cancelIf marked
  by_cases this : r.id = id <;> simp [this]

/-- Whether a run is **in a wait**, which cancelling it cuts short. -/
def Run.inWait (r : Run) : Bool :=
  match r.phase with
  | .waiting _ _ => true
  | .ready | .calling _ _ => false

/-- A plain frame is no run's turn. -/
theorem Frame.run?_of_isPlain {f : Frame} (h : f.isPlain = true) : f.run? = none := by
  cases f <;> first | rfl | cases h

namespace World

/-- All **numbers in use** were given out. -/
structure Bounded (w : World) : Prop where
  runs : ∀ r ∈ w.runs, r.id < w.nextRun
  ready : ∀ id, .run id ∈ w.ready → id < w.nextRun

/-- The world **goes on from here** without any run taking its turn: what was there is still there,
and what is new waits for its turn. -/
structure Extends (w w' : World) : Prop where
  now : w'.now = w.now
  nextRun : w.nextRun ≤ w'.nextRun
  stack : ∃ frames, (∀ f ∈ frames, f.isPlain = true) ∧ w'.stack = frames ++ w.stack
  kept : ∀ r ∈ w.runs, ∃ cancelled, r.marked cancelled ∈ w'.runs
  origin : ∀ r' ∈ w'.runs, (∃ r ∈ w.runs, ∃ cancelled, r' = r.marked cancelled)
    ∨ (w.nextRun ≤ r'.id ∧ r'.id < w'.nextRun ∧ r'.phase = .ready ∧ .run r'.id ∈ w'.ready)
  ready : ∀ task ∈ w.ready, task ∈ w'.ready
  woken : ∀ task ∈ w'.ready, task ∈ w.ready
    ∨ ∃ r' ∈ w'.runs, task = .run r'.id ∧ (w.nextRun ≤ r'.id ∨ r'.phase ≠ .ready)
  /-- Who is cancelled in a wait is woken. -/
  roused : ∀ id r', w'.run? id = some r' → r'.cancelled = true → r'.inWait = true →
    w.run? id = some r' ∨ .run id ∈ w'.ready
  nodup : Bounded w → w.ready.Nodup → w'.ready.Nodup

variable {w w' : World}

/-- What leaves the runs and the queue alone. -/
theorem Extends.of_ledger {entries : List Registration} {engine : Option (Keyed Nat)}
    (frames : List Frame) (plain : ∀ f ∈ frames, f.isPlain = true)
    (same : w'.ledger = { w.ledger with entries, engine, stack := frames ++ w.ledger.stack }) :
    Extends w w' := by
  have runs : w'.runs = w.runs := congrArg Ledger.runs same
  have ready : w'.ready = w.ready := congrArg Ledger.ready same
  exact
    { now := congrArg Ledger.now same
      nextRun := Nat.le_of_eq (congrArg Ledger.nextRun same).symm
      stack := ⟨frames, plain, congrArg Ledger.stack same⟩
      kept := fun r member => ⟨false, by rw [r.marked_false, runs]; exact member⟩
      origin := fun r member => .inl ⟨r, runs ▸ member, false, r.marked_false.symm⟩
      ready := fun _ member => ready ▸ member
      woken := fun _ member => .inl (ready ▸ member)
      roused := fun id r found _ _ => .inl (by rw [← found, run?, run?, runs])
      nodup := fun _ nodup => ready ▸ nodup }

/-- Numbers in use are still **numbers given out**. -/
theorem Extends.bounded (h : Extends w w') (bounded : Bounded w) : Bounded w' := by
  have runs : ∀ r ∈ w'.runs, r.id < w'.nextRun := by
    intro r member
    rcases h.origin r member with ⟨old, there, _, rfl⟩ | ⟨-, below, -, -⟩
    · exact Nat.lt_of_lt_of_le (bounded.runs old there) h.nextRun
    · exact below
  refine ⟨runs, fun id member => ?_⟩
  rcases h.woken _ member with before | ⟨r, there, same, -⟩
  · exact Nat.lt_of_lt_of_le (bounded.ready id before) h.nextRun
  · injection same with same
    exact same ▸ runs r there

/-- A world goes on from where another **went on**. -/
theorem Extends.trans {u v w : World} (h : Extends u v) (h' : Extends v w) : Extends u w where
  now := h'.now.trans h.now
  nextRun := Nat.le_trans h.nextRun h'.nextRun
  stack := by
    obtain ⟨frames, plain, stack⟩ := h.stack
    obtain ⟨frames', plain', stack'⟩ := h'.stack
    refine ⟨frames' ++ frames, fun f member => ?_, by rw [stack', stack, List.append_assoc]⟩
    exact (List.mem_append.mp member).elim (plain' f) (plain f)
  kept r member := by
    obtain ⟨a, there⟩ := h.kept r member
    obtain ⟨b, there⟩ := h'.kept _ there
    exact ⟨a || b, r.marked_marked a b ▸ there⟩
  origin r member := by
    rcases h'.origin r member with ⟨s, there, b, rfl⟩ | ⟨later, below, ready, queued⟩
    · rcases h.origin s there with ⟨t, before, a, rfl⟩ | ⟨later, below, ready, queued⟩
      · exact .inl ⟨t, before, a || b, t.marked_marked a b⟩
      · exact .inr ⟨later, Nat.lt_of_lt_of_le below h'.nextRun, ready, h'.ready _ queued⟩
    · exact .inr ⟨Nat.le_trans h.nextRun later, below, ready, queued⟩
  ready task member := h'.ready task (h.ready task member)
  woken task member := by
    -- who was woken first may have been cancelled since
    rcases h'.woken task member with before | ⟨r, there, rfl, later | waits⟩
    · rcases h.woken task before with before | ⟨r, there, rfl, new⟩
      · exact .inl before
      · obtain ⟨a, later⟩ := h'.kept r there
        exact .inr ⟨_, later, rfl, new⟩
    · exact .inr ⟨r, there, rfl, .inl (Nat.le_trans h.nextRun later)⟩
    · exact .inr ⟨r, there, rfl, .inr waits⟩
  roused id r found cancelled waits := by
    rcases h'.roused id r found cancelled waits with before | queued
    · exact (h.roused id r before cancelled waits).imp_right (h'.ready _)
    · exact .inr queued
  nodup bounded nodup := h'.nodup (h.bounded bounded) (h.nodup bounded nodup)

/-- A new run waits for its first turn. -/
theorem extends_spawn (w : World) (owner : Owner) (actions : List Action) (cancelled : Bool) :
    Extends w (w.spawn owner actions cancelled) where
  now := rfl
  nextRun := Nat.le_succ _
  stack := ⟨[], by simp, rfl⟩
  kept r member := ⟨false, by rw [r.marked_false]; exact List.mem_append_left _ member⟩
  origin r member := by
    rcases List.mem_append.mp member with old | new
    · exact .inl ⟨r, old, false, r.marked_false.symm⟩
    · rw [List.mem_singleton.mp new]
      exact .inr ⟨Nat.le_refl _, Nat.lt_succ_self _, rfl, List.mem_append_right _ (List.mem_singleton_self _)⟩
  ready task member := List.mem_append_left _ member
  woken task member := by
    rcases List.mem_append.mp member with old | new
    · exact .inl old
    · rw [List.mem_singleton.mp new]
      exact .inr ⟨_, List.mem_append_right _ (List.mem_singleton_self _), rfl,
        .inl (Nat.le_refl _)⟩
  roused id r found _ waits := by
    rw [run?, show (w.spawn owner actions cancelled).runs = w.runs ++ [_] from rfl,
      List.find?_append] at found
    rcases Option.or_eq_some_iff.mp found with old | ⟨-, new⟩
    · exact .inl old
    · rw [List.mem_singleton.mp (List.mem_of_find?_eq_some new)] at waits
      cases waits
  -- the number of the new run is not in use, so its task is not queued yet
  nodup bounded nodup := by
    refine List.nodup_append.mpr ⟨nodup, List.nodup_singleton _, fun task old other new => ?_⟩
    rw [List.mem_singleton.mp new]
    rintro rfl
    exact absurd (bounded.ready _ old) (Nat.lt_irrefl _)

/-- The run in a wait is **what cancelling cuts short**. -/
theorem waitsIn_eq (w : World) (id : Nat) : w.waitsIn id = (w.run? id).any Run.inWait := by
  unfold waitsIn Run.inWait
  cases found : w.run? id with
  | none => rfl
  | some r =>
    obtain ⟨_, _, _, phase, _⟩ := r
    cases phase <;> rfl

/-- A run that waits for something that cancelling cuts short is there and waits. -/
theorem exists_of_waitsIn {w : World} {id : Nat} (h : w.waitsIn id = true) :
    ∃ r ∈ w.runs, r.id = id ∧ r.phase ≠ .ready := by
  unfold waitsIn at h
  cases found : w.run? id with
  | none => simp [found] at h
  | some r =>
    have same := List.find?_some found
    rw [decide_eq_true_iff] at same
    refine ⟨r, List.mem_of_find?_eq_some found, same, fun ready => ?_⟩
    obtain ⟨_, _, _, phase, _⟩ := r
    obtain rfl : phase = .ready := ready
    simp [found] at h

/-- What cancelling a run queues up: **the run, if it waits**. -/
theorem ready_cancelRun (w : World) (id : Nat) :
    (w.cancelRun id).ready
      = if w.waitsIn id = true ∧ .run id ∉ w.ready then w.ready ++ [.run id] else w.ready := by
  have same (f : Run → Run) : (w.modifyRun id f).ready = w.ready := rfl
  unfold cancelRun wake
  dsimp only
  rw [same]
  by_cases waits : w.waitsIn id = true
  · rw [if_pos waits]
    by_cases queued : Task.run id ∈ w.ready <;> simp [queued, waits, same]
  · rw [if_neg waits]
    simp [waits, same]

/-- Cancelling a run leaves **the others** as they are. -/
theorem run?_cancelRun (w : World) (id other : Nat) :
    (w.cancelRun id).run? other = (w.run? other).map (Run.cancelIf id) := by
  have runs : (w.cancelRun id).runs = w.runs.map (Run.cancelIf id) :=
    congrArg Ledger.runs (ledger_cancelRun w id)
  rw [run?, run?, runs, List.find?_map]
  congr 2
  funext r
  simp only [Function.comp_apply, Run.id_cancelIf]

/-- A run that is cancelled in a wait **is woken**, unless it is already. -/
theorem roused_cancelRun (w : World) (id : Nat) {other : Nat} {r : Run}
    (found : (w.cancelRun id).run? other = some r) (waits : r.inWait = true) :
    w.run? other = some r ∨ .run other ∈ (w.cancelRun id).ready := by
  rw [run?_cancelRun] at found
  obtain ⟨old, there, rfl⟩ := Option.map_eq_some_iff.mp found
  have mine := List.find?_some there
  rw [decide_eq_true_iff] at mine
  by_cases same : old.id = id
  · -- it is the run that is cancelled, and its wait is what cancelling looks for
    have waiting : w.waitsIn id = true := by
      rw [waitsIn_eq, ← same, mine, there, Option.any_some]
      rwa [Run.cancelIf, if_pos same] at waits
    right
    rw [ready_cancelRun, ← mine, same]
    by_cases queued : Task.run id ∈ w.ready
    · rwa [if_neg (fun new => new.2 queued)]
    · rw [if_pos ⟨waiting, queued⟩]
      exact List.mem_append_right _ (List.mem_singleton_self _)
  · left
    rw [there, Run.cancelIf, if_neg same]

/-- Cancelling a run wakes **that run** at most, and only from a wait. -/
theorem extends_cancelRun (w : World) (id : Nat) : Extends w (w.cancelRun id) := by
  have ledger := ledger_cancelRun w id
  have runs : (w.cancelRun id).runs = w.runs.map (Run.cancelIf id) := congrArg Ledger.runs ledger
  have ready := ready_cancelRun w id
  have kept (r : Run) (member : r ∈ w.runs) : ∃ cancelled, r.marked cancelled ∈ (w.cancelRun id).runs :=
    ⟨r.id = id, by rw [runs, ← r.cancelIf_eq_marked]; exact List.mem_map_of_mem member⟩
  refine
    { now := congrArg Ledger.now ledger
      nextRun := Nat.le_of_eq (congrArg Ledger.nextRun ledger).symm
      stack := ⟨[], by simp, congrArg Ledger.stack ledger⟩
      kept
      origin := fun r member => ?_
      ready := (ready_isPrefix_cancelRun w id).subset
      woken := fun task member => ?_
      roused := fun other r found _ waits => roused_cancelRun w id found waits
      nodup := fun _ nodup => ?_ }
  -- a run that is there was there before, marked or not
  · rw [runs] at member
    obtain ⟨old, there, rfl⟩ := List.mem_map.mp member
    exact .inl ⟨old, there, old.id = id, old.cancelIf_eq_marked id⟩
  · rw [ready] at member
    split at member
    -- the task that is woken is that of a run that waits
    · next wakes =>
      rcases List.mem_append.mp member with old | new
      · exact .inl old
      · rw [List.mem_singleton.mp new]
        obtain ⟨r, there, rfl, waits⟩ := exists_of_waitsIn wakes.1
        obtain ⟨cancelled, later⟩ := kept r there
        exact .inr ⟨_, later, rfl, .inr waits⟩
    · exact .inl member
  · rw [ready]
    split
    -- a run that is queued already is not queued again
    · next wakes =>
      refine List.nodup_append.mpr ⟨nodup, List.nodup_singleton _, fun task old other new => ?_⟩
      rw [List.mem_singleton.mp new]
      rintro rfl
      exact wakes.2 old
    · exact nodup

/-- A world goes on **from itself**. -/
theorem Extends.refl (w : World) : Extends w w :=
  .of_ledger [] (by simp) rfl

/-- **Every chore** extends the world. -/
theorem extends_chore (h : Chore w w') : Extends w w' := by
  cases h with
  | quiet frames plain same => exact .of_ledger frames plain same
  | spawn label actions cancelled => exact extends_spawn w _ _ _
  | cancel outside => exact extends_cancelRun w _
  | unregister id =>
    have ledger := ledger_unregister w id
    cases found : w.ruleIndex? id with
    | none =>
      rw [found] at ledger
      exact .of_ledger [] (by simp) ledger
    | some index =>
      rw [found] at ledger
      exact .of_ledger [] (by simp) ledger
  | enrol => exact .of_ledger [] (by simp) (ledger_enrol w _)
  | disposeAll => exact .of_ledger [] (by simp) (ledger_disposeAll w)
  | dropEngine => exact .of_ledger [] (by simp) (ledger_dropEngine w)

/-- **Several chores** extend the world. -/
theorem extends_chores (h : Chores w w') : Extends w w' := by
  induction h with
  | refl => exact .refl w
  | tail _ last ih => exact ih.trans (extends_chore last)

/-- Starting a run of a rule extends the world. -/
theorem extends_startRun (w : World) (index : Nat) (r : Registration) :
    Extends w (w.startRun index r) := by
  have first (run : Option Nat) : Extends w (w.preempt r.rule.id run) := by
    cases run with
    | none => exact .refl w
    | some id =>
      have noted : Extends w (w.note (.runCancelled r.rule.id)) := .of_ledger [] (by simp) rfl
      exact noted.trans (extends_cancelRun _ id)
  -- another run gives way, the slot is told, and the new run is spawned
  let yielded := w.preempt r.rule.id (r.slot.preempts r.rule.mode)
  let slot := r.slot.begin yielded.nextRun
  let told := (yielded.modifyRegistration index fun held => { held with slot }).note
    (.ruleFired r.rule.id)
  have ledger : told.ledger = { yielded.ledger with
      entries := yielded.ledger.entries.modify index fun held => { held with slot } } :=
    ledger_modifyRegistration yielded index fun _ => rfl
  have stored : Extends yielded told := .of_ledger [] (by simp) ledger
  exact (first _).trans (stored.trans (extends_spawn told _ _ _))

/-- **Firing a rule** extends the world. -/
theorem extends_fire (w : World) (index : Nat) : Extends w (w.fire index) := by
  have same {v : World} (same : v.ledger = w.ledger) : Extends w v :=
    .of_ledger [] (by simp) same
  unfold fire
  split
  · exact same rfl
  · split_ifs
    · exact same rfl
    · exact same rfl
    · exact same rfl
    · exact extends_startRun w index _

/-- What depends on the ledger only. -/
theorem Extends.congr {v : World} (h : Extends w v) (same : w'.ledger = v.ledger) : Extends w w' :=
  h.trans (.of_ledger [] (by simp) same)

/-- **What is done between strides** extends the world. -/
theorem extends_acts {firing : Option Nat} (h : Acts w w' firing) : Extends w w' := by
  cases h with
  | chores done => exact extends_chores done
  | fires frames plain same registrations store done =>
    exact (Extends.of_ledger frames plain same).trans ((extends_fire _ _).congr done)

/-- A run that goes on **without its turn** is what it was but for its cancellation. -/
theorem Extends.run?_of_some (ext : Extends w w') (numbered' : Numbered w') {id : Nat} {r : Run}
    (there : w.run? id = some r) : ∃ cancelled, w'.run? id = some (r.marked cancelled) := by
  have same := List.find?_some there
  rw [decide_eq_true_iff] at same
  obtain ⟨cancelled, later⟩ := ext.kept r (List.mem_of_find?_eq_some there)
  have found := numbered'.run?_eq_some later
  rw [Run.id_marked, same] at found
  exact ⟨cancelled, found⟩

/-- A run that is over **stays over**. -/
theorem Extends.run?_of_none (ext : Extends w w') {id : Nat} (old : id < w.nextRun)
    (gone : w.run? id = none) : w'.run? id = none := by
  refine List.find?_eq_none.mpr fun r' member mine => ?_
  rw [decide_eq_true_iff] at mine
  rcases ext.origin r' member with ⟨r, before, _, rfl⟩ | ⟨new, -⟩
  · exact List.find?_eq_none.mp gone r before (decide_eq_true mine)
  · -- new runs have numbers that were not given out
    omega

/-- But for its cancellation a run is what it was, **or over as it was**. -/
theorem Extends.run? (ext : Extends w w') (numbered' : Numbered w') {id : Nat}
    (old : id < w.nextRun) :
    (w'.run? id).map (·.marked true) = (w.run? id).map (·.marked true) := by
  cases there : w.run? id with
  | some r =>
    obtain ⟨cancelled, found⟩ := ext.run?_of_some numbered' there
    rw [found]
    simp [Run.marked_marked]
  | none => rw [ext.run?_of_none old there]

end World

end RuleDispatch
