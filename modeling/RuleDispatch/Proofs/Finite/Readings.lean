import RuleDispatch.Daemon
import RuleDispatch.Proofs.Finite.Doubles
import RuleDispatch.Proofs.Dispatch.Origins

/-! # Everything that is read is finite

Numbers come from outside as text: in documents, as payloads of service calls, and in lines of the
console. A number of a document is a whole number of some size or a finite double, a line assigns a number
only if it is finite, and so are the numbers that the built-in services write and the bounds of the rules
of a document.

* `Bounds.Finite`, `Rule.Finite`, `Edit.Finite` — all numbers in it are finite.
* `Batch.finite_of_read` — the rules of a document are.
* `Edits.finite_line`, `Service.exists_of_write?` — so is what lines and services write. -/

namespace RuleDispatch

/-! ## 1. Documents -/

/-- The double nearest to **a number of a document** is finite. -/
theorem Number.isFinite_toFloat (n : Number) : n.toFloat.isFinite = true := by
  cases n with
  | whole n inRange =>
    refine Double.isFinite_ofInt ?_
    have := inRange.1
    have := inRange.2
    simp only [least, limit] at *
    omega
  | real x finite => exact finite

/-- A number **read from a value** is finite. -/
theorem Json.isFinite_of_asFloat? {value : Json} {x : Float} (h : value.asFloat? = some x) :
    x.isFinite = true := by
  cases value with
  | num n =>
    obtain rfl := Option.some.inj h
    exact n.isFinite_toFloat
  | null | bool | str | arr | obj => cases h

/-- What a list of things is decoded to has **what each of them has**. -/
theorem Json.of_mem_asListOf? {α : Type} {P : α → Prop} {decode : Json → Option α}
    (each : ∀ value a, decode value = some a → P a) {value : Json} {as : List α}
    (h : Json.asListOf? decode value = some as) : ∀ a ∈ as, P a := by
  obtain ⟨items, -, decoded⟩ := Option.bind_eq_some_iff.mp h
  clear h
  induction items generalizing as with
  | nil =>
    obtain rfl := Option.some.inj decoded
    exact nofun
  | cons item rest ih =>
    rw [List.mapM_cons] at decoded
    obtain ⟨a, first, others⟩ := Option.bind_eq_some_iff.mp decoded
    obtain ⟨later, decoded', last⟩ := Option.bind_eq_some_iff.mp others
    obtain rfl := Option.some.inj last
    exact List.forall_mem_cons.mpr ⟨each item a first, ih decoded'⟩

/-- A field that may be missing is decoded, **or is missing**. -/
theorem Parts.of_optional {α : Type} {P : α → Prop} {parts : Parts} {place : Nat}
    {names : List String} {decode : Json → Option α} {missing a : α}
    (each : ∀ value a, decode value = some a → P a) (none : P missing)
    (h : parts.optional place names decode missing = some a) : P a := by
  unfold optional at h
  split_ifs at h
  split at h
  · next value _ => exact each value a h
  · obtain rfl := Option.some.inj h
    exact none

/-- A bound that is **finite if it is given**. -/
def Bounds.FiniteEnd (bound : Option Float) : Prop :=
  ∀ x, bound = some x → x.isFinite = true

/-- Bounds both of which are finite if they are given. -/
structure Bounds.Finite (b : Bounds) : Prop where
  above : FiniteEnd b.above
  below : FiniteEnd b.below

/-- A bound **read from a value** is finite. -/
theorem Json.finite_of_asBound? {value : Json} {bound : Option Float}
    (h : value.asBound? = some bound) : Bounds.FiniteEnd bound := by
  rintro x rfl
  cases value with
  | null => cases Option.some.inj h
  | num n =>
    obtain rfl := Option.some.inj (Option.some.inj h)
    exact n.isFinite_toFloat
  | bool | str | arr | obj => cases h

/-- The bounds **of a description** are finite. -/
theorem Parts.finite_of_bounds {parts : Parts} {place : Nat} {b : Bounds}
    (h : parts.bounds place = some b) : b.Finite := by
  have missing : Bounds.FiniteEnd none := fun x given => by cases given
  obtain ⟨above, first, h⟩ := Option.bind_eq_some_iff.mp h
  obtain ⟨below, second, h⟩ := Option.bind_eq_some_iff.mp h
  obtain rfl := Option.some.inj h
  exact
    { above := Parts.of_optional (fun _ _ => Json.finite_of_asBound?) missing first
      below := Parts.of_optional (fun _ _ => Json.finite_of_asBound?) missing second }

/-- A trigger all of whose bounds are finite. -/
def Trigger.Finite (t : Trigger) : Prop :=
  ∀ entity bounds, t = .threshold entity bounds → bounds.Finite

/-- A condition all of whose bounds are finite. -/
def Condition.Finite (c : Condition) : Prop :=
  ∀ entity bounds, c = .numericCompare entity bounds → bounds.Finite

/-- A rule **all of whose bounds are finite**. -/
structure Rule.Finite (r : Rule) : Prop where
  triggers : ∀ t ∈ r.triggers, t.Finite
  conditions : ∀ c ∈ r.conditions, c.Finite

/-- A trigger **that is read** has finite thresholds. -/
theorem Trigger.finite_of_ofJson? {value : Json} {t : Trigger} (h : Trigger.ofJson? value = some t) :
    t.Finite := by
  rintro entity bounds rfl
  obtain ⟨⟨tag, parts⟩, -, h⟩ := Option.bind_eq_some_iff.mp h
  obtain ⟨kind, -, h⟩ := Option.bind_eq_some_iff.mp h
  by_cases threshold : kind = "numeric_threshold"
  · subst threshold
    rw [if_neg (by decide), if_pos rfl] at h
    dsimp only at h
    split_ifs at h
    · cases h
    · obtain ⟨_, -, h⟩ := Option.bind_eq_some_iff.mp h
      obtain ⟨_, read, h⟩ := Option.bind_eq_some_iff.mp h
      obtain ⟨-, rfl⟩ := Trigger.threshold.inj (Option.some.inj h)
      exact Parts.finite_of_bounds read
  · exfalso
    dsimp only at h
    rw [if_neg threshold] at h
    split_ifs at h <;> simp [Option.bind_eq_some_iff] at h

/-- A condition **that is read** has finite thresholds. -/
theorem Condition.finite_of_ofJson? {value : Json} {c : Condition}
    (h : Condition.ofJson? value = some c) : c.Finite := by
  rintro entity bounds rfl
  obtain ⟨⟨tag, parts⟩, -, h⟩ := Option.bind_eq_some_iff.mp h
  obtain ⟨kind, -, h⟩ := Option.bind_eq_some_iff.mp h
  dsimp only at h
  by_cases compare : kind = "numeric_compare"
  · subst compare
    rw [if_neg (by decide), if_pos rfl] at h
    split_ifs at h
    · cases h
    · obtain ⟨_, -, h⟩ := Option.bind_eq_some_iff.mp h
      obtain ⟨_, read, h⟩ := Option.bind_eq_some_iff.mp h
      obtain ⟨-, rfl⟩ := Condition.numericCompare.inj (Option.some.inj h)
      exact Parts.finite_of_bounds read
  · exfalso
    rw [if_neg compare] at h
    split_ifs at h <;> simp [Option.bind_eq_some_iff] at h

/-- A rule **that is read** has finite thresholds throughout. -/
theorem Rule.finite_of_ofJson? {value : Json} {r : Rule} (h : Rule.ofJson? value = some r) :
    r.Finite := by
  obtain ⟨parts, -, h⟩ := Option.bind_eq_some_iff.mp h
  dsimp only at h
  split_ifs at h
  · cases h
  · obtain ⟨id, -, h⟩ := Option.bind_eq_some_iff.mp h
    obtain ⟨mode, -, h⟩ := Option.bind_eq_some_iff.mp h
    obtain ⟨enabled, -, h⟩ := Option.bind_eq_some_iff.mp h
    obtain ⟨triggers, first, h⟩ := Option.bind_eq_some_iff.mp h
    obtain ⟨conditions, second, h⟩ := Option.bind_eq_some_iff.mp h
    obtain ⟨actions, -, h⟩ := Option.bind_eq_some_iff.mp h
    obtain rfl := Option.some.inj h
    exact
      { triggers := Parts.of_optional (P := fun ts => ∀ t ∈ ts, t.Finite)
          (fun _ _ => Json.of_mem_asListOf? fun _ _ => Trigger.finite_of_ofJson?) nofun first
        conditions := Parts.of_optional (P := fun cs => ∀ c ∈ cs, c.Finite)
          (fun _ _ => Json.of_mem_asListOf? fun _ _ => Condition.finite_of_ofJson?) nofun second }

/-- **The rules of a document** have finite bounds. -/
theorem Batch.finite_of_read {document : String} {batch : Batch}
    (h : Batch.read document = .ok batch) : ∀ rule ∈ batch.rules, rule.Finite := by
  unfold Batch.read at h
  cases read : Json.read document with
  | error fault =>
    rw [read] at h
    cases h
  | ok value =>
    rw [read] at h
    obtain rfl := Except.ok.inj h
    intro rule member
    have rules := Batch.rules_ofEntriesFrom 0 (Batch.entries value)
    obtain ⟨entry, -, described⟩ := List.mem_filterMap.mp (rules ▸ member)
    exact Rule.finite_of_ofJson? described

/-! ## 2. Writes -/

/-- A listener to numbers whose bounds are finite, if it has any. -/
def NumberListener.Finite (l : NumberListener) : Prop :=
  ∀ place entity bounds, l = .threshold place entity bounds → bounds.Finite

/-- An edit **all of whose numbers are finite**. -/
def Edit.Finite : Edit → Prop
  | .setNumber _ value => value.isFinite = true
  | .listenNumber listener => listener.Finite
  | .subscribe _ _ | .unsubscribe _ _ | .listenText _ | .unlisten _ | .setText _ _ => True

/-- Edits that write no number **are finite**. -/
theorem Edit.moving_finite : Edit.Moving Edit.Finite where
  subscribe _ _ := trivial
  unsubscribe _ _ := trivial
  listenNumber _ := nofun
  listenText _ := trivial
  unlisten _ := trivial

/-- The thresholds of a rule with finite bounds are **listeners with finite bounds**. -/
theorem Rule.Finite.wires {r : Rule} (h : r.Finite) : r.Wires Edit.Finite := by
  rintro place entity bounds member _ _ _ ⟨⟩
  exact h.triggers _ member entity bounds rfl

/-- **A line of the console** assigns finite numbers only. -/
theorem Command.isFinite_of_read {line key : String} {x : Float}
    (h : Command.read line = .ok (.setNumber key x)) : x.isFinite = true := by
  unfold Command.read at h
  dsimp only at h
  split_ifs at h
  · -- an emission, or an argument is missing
    split at h
    · cases h
    · generalize Command.readPayload _ = payload at h
      cases payload <;> cases h
  · split at h <;> cases h
  · split at h
    · cases h
    · next value _ =>
      have assigned := Except.ok.inj h
      unfold Command.assignment at assigned
      split at assigned
      · next number found =>
        obtain ⟨-, rfl⟩ := Command.setNumber.inj assigned
        exact (Option.filter_eq_some_iff.mp found).2
      · cases assigned

/-- A line **writes finite numbers only**, as the reader knows no others. -/
theorem Edits.finite_line (text : String) : Edits.All Edit.Finite (Edits.line text) := by
  unfold Edits.line
  cases read : Command.read text with
  | error fault => exact all_nil
  | ok c =>
    cases c with
    | setNumber key value => exact .cons (Command.isFinite_of_read read) all_nil
    | setText key value => exact .cons trivial all_nil
    | emit | get => exact all_nil

/-- **The built-in services** write a finite number or a text. -/
theorem Service.exists_of_write? {service : String} {data : Json} {op : Operation}
    (h : Service.write? service data = .ok (some op)) :
    (∃ key x, op = .setNumber key x ∧ x.isFinite = true) ∨ ∃ key text, op = .setText key text := by
  unfold Service.write? at h
  generalize Service.entity data = entity at h
  split_ifs at h
  · cases given : Service.value data "number" Json.asFloat? with
    | error e =>
      rw [given] at h
      cases entity <;> cases h
    | ok number =>
      rw [given] at h
      cases entity with
      | error e => cases h
      | ok key =>
        refine .inl ⟨key, number, (Option.some.inj (Except.ok.inj h)).symm, ?_⟩
        -- the number comes out of a document, which holds finite numbers only
        unfold Service.value at given
        split at given
        · next value found =>
          obtain rfl := Except.ok.inj given
          obtain ⟨field, -, read⟩ := Option.bind_eq_some_iff.mp found
          exact Json.isFinite_of_asFloat? read
        · cases given
  · generalize Service.value data "string" Json.asText? = value at h
    cases entity with
    | error e => cases h
    | ok key =>
      cases value with
      | error e => cases h
      | ok text => exact .inr ⟨key, text, (Option.some.inj (Except.ok.inj h)).symm⟩
  · cases h

end RuleDispatch
