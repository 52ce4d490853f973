import RuleDispatch.Proofs.Ledger

/-! # Slots and the tokens of runs

What a slot has to do with a run that goes on is a token: the number of the run, its generation and
whether it was cancelled. A slot tallies with the tokens of its runs when its count is theirs, the
active run is the latest, and a run is cancelled exactly when a later one took its place. Accepting
a run and the end of a run keep this, whatever the mode.

* `Token`, `Run.token?`, `World.tokens` — the tokens of the runs of a registration.
* `RunSlot.Tallies` — the slot fits the tokens.
* `RunSlot.Tallies.begin`, `RunSlot.Tallies.finish` — a run accepted, a run over. -/

namespace RuleDispatch

/-- What a slot knows **of a run that goes on**. -/
structure Token where
  run : Nat
  generation : Nat
  cancelled : Bool
deriving DecidableEq, Repr

/-- The token **cancelled**, if it is that of this run. -/
def Token.cancelIf (id : Nat) (t : Token) : Token :=
  if t.run = id then { t with cancelled := true } else t

/-- Cancelling leaves a token **its run**. -/
@[simp] theorem Token.run_cancelIf (id : Nat) (t : Token) : (t.cancelIf id).run = t.run := by
  unfold cancelIf
  split <;> rfl

/-- Cancelling leaves a token **its generation**. -/
@[simp] theorem Token.generation_cancelIf (id : Nat) (t : Token) :
    (t.cancelIf id).generation = t.generation := by
  unfold cancelIf
  split <;> rfl

/-- A token is cancelled after this **if it was, or if its run is the one**. -/
theorem Token.cancelled_cancelIf (id : Nat) (t : Token) :
    (t.cancelIf id).cancelled = true ↔ t.cancelled = true ∨ t.run = id := by
  unfold cancelIf
  split
  · next same => simp [same]
  · next other => simp [other]

/-- The tokens after the run that has to give way to a new one is cancelled. -/
def yieldTokens (tokens : List Token) : Option Nat → List Token
  | some id => tokens.map (Token.cancelIf id)
  | none => tokens

/-- Giving way changes no token but for its cancellation. -/
theorem exists_of_mem_yieldTokens {tokens : List Token} {run : Option Nat} {t : Token}
    (h : t ∈ yieldTokens tokens run) :
    ∃ old ∈ tokens, t.run = old.run ∧ t.generation = old.generation
      ∧ (t.cancelled = true ↔ old.cancelled = true ∨ run = some old.run) := by
  cases run with
  | none => exact ⟨t, h, rfl, rfl, by simp⟩
  | some id =>
    obtain ⟨old, member, rfl⟩ := List.mem_map.mp h
    refine ⟨old, member, Token.run_cancelIf id old, Token.generation_cancelIf id old, ?_⟩
    rw [Token.cancelled_cancelIf, Option.some.injEq, @eq_comm _ id]

/-- Yielding leaves **as many tokens**. -/
@[simp] theorem length_yieldTokens (tokens : List Token) (run : Option Nat) :
    (yieldTokens tokens run).length = tokens.length := by
  cases run <;> simp [yieldTokens]

/-! ## 1. The tokens of runs -/

/-- The token that a registration has **of a run**, if the run is one of its own. -/
def Run.token? (index : Nat) (r : Run) : Option Token :=
  match r.owner with
  | .rule place generation => if place = index then some ⟨r.id, generation, r.cancelled⟩ else none
  | .label _ => none

/-- A run is one of a registration's own when that is its owner. -/
theorem Run.token?_eq_some {index : Nat} {r : Run} {t : Token} :
    r.token? index = some t
      ↔ r.owner = .rule index t.generation ∧ t.run = r.id ∧ t.cancelled = r.cancelled := by
  obtain ⟨run, generation, cancelled⟩ := t
  unfold token?
  cases r.owner with
  | label label => simp
  | rule place given =>
    by_cases here : place = index
    · simp [here]
      tauto
    · simp [here]

/-- Cancelling a run cancels its token. -/
theorem Run.token?_cancelIf (index id : Nat) (r : Run) :
    (r.cancelIf id).token? index = (r.token? index).map (Token.cancelIf id) := by
  unfold token?
  rw [Run.owner_cancelIf, Run.id_cancelIf]
  cases r.owner with
  | label label => rfl
  | rule place generation =>
    by_cases here : place = index
    · by_cases this : r.id = id <;> simp [here, this, Run.cancelIf, Token.cancelIf]
    · simp [here]

/-- The **tokens of the runs of a registration** that go on, oldest first. -/
def World.tokens (w : World) (index : Nat) : List Token :=
  w.runs.filterMap (Run.token? index)

/-- The tokens of a place are those of **the runs** that are there for it. -/
theorem World.mem_tokens {w : World} {index : Nat} {t : Token} :
    t ∈ w.tokens index ↔ ∃ r ∈ w.runs, r.token? index = some t := by
  rw [tokens, List.mem_filterMap]

namespace RunSlot

/-! ## 2. A slot that fits its runs -/

/-- The slot of a rule **tallies** with the tokens of its runs that go on, oldest first. -/
structure Tallies (mode : Mode) (slot : RunSlot) (tokens : List Token) : Prop where
  /-- It counts them. -/
  running : slot.running = tokens.length
  /-- Later runs have higher generations and higher numbers. -/
  ascending : tokens.Pairwise fun a b => a.generation < b.generation ∧ a.run < b.run
  /-- The slot has given out their generations. -/
  bounded : ∀ t ∈ tokens, 1 ≤ t.generation ∧ t.generation ≤ slot.generation
  /-- It holds the run of the latest generation exactly while that run goes on. -/
  active : ∀ id, slot.active = some id
    ↔ ∃ t ∈ tokens, t.run = id ∧ t.generation = slot.generation
  /-- A run is cancelled exactly when a later one took its place. -/
  cancelled : ∀ t ∈ tokens,
    t.cancelled = true ↔ mode = .restart ∧ t.generation < slot.generation
  /-- In single mode there is at most one. -/
  single : mode = .single → tokens.length ≤ 1

/-- A slot without runs tallies. -/
theorem tallies_idle (mode : Mode) : Tallies mode {} [] where
  running := rfl
  ascending := .nil
  bounded := by simp
  active := by simp
  cancelled := by simp
  single := by simp

namespace Tallies

variable {mode : Mode} {slot : RunSlot} {tokens : List Token}

/-- A slot that holds no run of the latest generation has none going on. -/
theorem active_eq_none_iff (h : Tallies mode slot tokens) :
    slot.active = none ↔ ∀ t ∈ tokens, t.generation ≠ slot.generation := by
  rw [Option.eq_none_iff_forall_ne_some]
  constructor
  · intro none t member latest
    exact none t.run ((h.active t.run).mpr ⟨t, member, rfl, latest⟩)
  · intro none id held
    obtain ⟨t, member, -, latest⟩ := (h.active id).mp held
    exact none t member latest

/-- A slot counts no run exactly when none goes on. -/
theorem isRunning_iff (h : Tallies mode slot tokens) : slot.isRunning = true ↔ tokens ≠ [] := by
  rw [isRunning, h.running, decide_eq_true_iff, List.length_pos_iff]

/-- In single mode one more run is accepted **exactly when none goes on**. -/
theorem accepts_single_iff (h : Tallies .single slot tokens) :
    slot.accepts .single = true ↔ tokens = [] := by
  rw [accepts, h.running]
  simp [List.length_eq_zero_iff]

/-! ## 3. A run accepted, a run over -/

/-- **Accepting a run** keeps the slot in tally: the run that has to give way is the one of the
latest generation, so all earlier ones are cancelled then. -/
theorem begin (h : Tallies mode slot tokens) (accepted : slot.accepts mode = true) {id : Nat}
    (fresh : ∀ t ∈ tokens, t.run < id) :
    Tallies mode (slot.begin id)
      (yieldTokens tokens (slot.preempts mode) ++ [⟨id, slot.generation + 1, false⟩]) where
  running := by
    rw [running_begin, h.running, List.length_append, length_yieldTokens, List.length_singleton]
  ascending := by
    have kept : (yieldTokens tokens (slot.preempts mode)).Pairwise
        fun a b => a.generation < b.generation ∧ a.run < b.run := by
      cases slot.preempts mode with
      | none => exact h.ascending
      | some other => exact List.pairwise_map.mpr (by simpa using h.ascending)
    refine List.pairwise_append.mpr ⟨kept, List.pairwise_singleton _ _, fun t member new isNew => ?_⟩
    obtain ⟨old, there, run, generation, -⟩ := exists_of_mem_yieldTokens member
    obtain rfl := List.mem_singleton.mp isNew
    have bounded := (h.bounded old there).2
    have below := fresh old there
    constructor
    · show t.generation < slot.generation + 1
      omega
    · show t.run < id
      omega
  bounded := by
    intro t member
    rw [generation_begin]
    rcases List.mem_append.mp member with old | new
    · obtain ⟨held, there, -, generation, -⟩ := exists_of_mem_yieldTokens old
      have bounded := h.bounded held there
      omega
    · obtain rfl := List.mem_singleton.mp new
      exact ⟨Nat.le_add_left 1 _, Nat.le_refl _⟩
  active := by
    intro other
    rw [active_begin, generation_begin, Option.some.injEq]
    constructor
    · rintro rfl
      exact ⟨_, List.mem_append_right _ (List.mem_singleton_self _), rfl, rfl⟩
    · rintro ⟨t, member, same, latest⟩
      rcases List.mem_append.mp member with old | new
      · obtain ⟨held, there, -, generation, -⟩ := exists_of_mem_yieldTokens old
        have bounded := (h.bounded held there).2
        omega
      · obtain rfl := List.mem_singleton.mp new
        exact same
  cancelled := by
    intro t member
    rw [generation_begin]
    rcases List.mem_append.mp member with old | new
    · obtain ⟨held, there, -, generation, cancelled⟩ := exists_of_mem_yieldTokens old
      have bounded := (h.bounded held there).2
      rw [cancelled, h.cancelled held there, generation]
      cases mode with
      | single => simp
      | parallel => simp
      | restart =>
        rw [preempts_restart, h.active held.run]
        -- a run of the latest generation is the active one, which has to give way
        rcases Nat.lt_or_ge held.generation slot.generation with earlier | latest
        · simp [earlier, Nat.lt_succ_of_lt earlier]
        · have same : held.generation = slot.generation := by omega
          have gives : ∃ t ∈ tokens, t.run = held.run ∧ t.generation = slot.generation :=
            ⟨held, there, rfl, same⟩
          simp [same, gives]
    · obtain rfl := List.mem_singleton.mp new
      simp
  single := by
    rintro rfl
    have none : tokens = [] := h.accepts_single_iff.mp accepted
    simp [none, yieldTokens]

/-- The number of a run tells its token. -/
theorem eq_of_run_eq (h : Tallies mode slot tokens) {a b : Token} (ha : a ∈ tokens)
    (hb : b ∈ tokens) (same : a.run = b.run) : a = b := by
  have runs : (tokens.map (·.run)).Nodup :=
    List.pairwise_map.mpr (h.ascending.imp fun less => Nat.ne_of_lt less.2)
  exact List.inj_on_of_nodup_map runs ha hb same

/-- The generation of a run tells its token. -/
theorem eq_of_generation_eq (h : Tallies mode slot tokens) {a b : Token} (ha : a ∈ tokens)
    (hb : b ∈ tokens) (same : a.generation = b.generation) : a = b := by
  have generations : (tokens.map (·.generation)).Nodup :=
    List.pairwise_map.mpr (h.ascending.imp fun less => Nat.ne_of_lt less.1)
  exact List.inj_on_of_nodup_map generations ha hb same

/-- The tokens without that of one run are **those without one**. -/
theorem filter_run_eq_erase (h : Tallies mode slot tokens) {t : Token} (member : t ∈ tokens) :
    tokens.filter (·.run ≠ t.run) = tokens.erase t := by
  have distinct : tokens.Nodup := h.ascending.imp fun less same => by
    subst same
    exact absurd less.1 (Nat.lt_irrefl _)
  rw [distinct.erase_eq_filter]
  refine List.filter_congr fun other there => ?_
  have same : other.run = t.run ↔ other = t :=
    ⟨h.eq_of_run_eq there member, fun e => e ▸ rfl⟩
  by_cases e : other = t <;> simp [same, e]

/-- **The end of a run** keeps the slot in tally, whether it was the latest or not. -/
theorem finish (h : Tallies mode slot tokens) {t : Token} (member : t ∈ tokens) :
    Tallies mode (slot.finish t.generation) (tokens.filter (·.run ≠ t.run)) where
  running := by
    rw [h.filter_run_eq_erase member, List.length_erase_of_mem member, ← h.running]
    rfl
  ascending := h.ascending.filter _
  bounded := fun other left => h.bounded other (List.mem_of_mem_filter left)
  active := by
    intro id
    have given : (slot.finish t.generation).generation = slot.generation := rfl
    rw [given]
    by_cases latest : slot.generation = t.generation
    · -- the latest run is over, and no other has its generation
      rw [← latest, active_finish_self]
      constructor
      · exact fun absurd => by cases absurd
      · rintro ⟨u, left, -, same⟩
        obtain ⟨there, other⟩ := List.mem_filter.mp left
        have := h.eq_of_generation_eq there member (same.trans latest)
        simp [this] at other
    · -- an earlier run is over, which is not the one that the slot holds
      rw [active_finish_of_ne slot latest, h.active id]
      constructor
      · rintro ⟨u, there, run, same⟩
        refine ⟨u, List.mem_filter.mpr ⟨there, ?_⟩, run, same⟩
        rw [decide_eq_true_iff]
        intro e
        obtain rfl := h.eq_of_run_eq there member e
        exact latest same.symm
      · rintro ⟨u, left, run, same⟩
        exact ⟨u, List.mem_of_mem_filter left, run, same⟩
  cancelled := fun other left => h.cancelled other (List.mem_of_mem_filter left)
  single := fun single => Nat.le_trans (List.length_filter_le _ _) (h.single single)

end Tallies

end RunSlot

end RuleDispatch
