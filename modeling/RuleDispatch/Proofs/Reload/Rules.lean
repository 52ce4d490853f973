import Mathlib
import RuleDispatch.Proofs.Reload.Parts
import RuleDispatch.Rule.Document

/-! # Rules read back from their own text

A rule that is written as a document and read again comes back with every double in it read back on
its own, and with nothing else changed. So does a list of rules, in order, and nothing is left out.

* `Rule.reread?` — what a rule is read back as.
* `Batch.read_rule`, `Batch.read_rules` — documents of one rule and of a list of rules.
* `Rule.reread?_eq_some_iff` — which rules come back as they are. -/

namespace RuleDispatch

open Json (reread? rereadItems?)

/-! ## 1. Documents -/

/-- What a rule is **read back as**. -/
def Rule.reread? (r : Rule) : Option Rule := do
  let triggers ← r.triggers.mapM Trigger.reread?
  let conditions ← r.conditions.mapM Condition.reread?
  let actions ← r.actions.mapM Action.reread?
  return { r with triggers, conditions, actions }

/-- A rule comes back if **its three lists** do. -/
theorem Rule.standsFor_lists (r : Rule) {triggers conditions actions : List Json}
    {triggers' : Option (List Trigger)} {conditions' : Option (List Condition)}
    {actions' : Option (List Action)}
    (ts : StandsFor (fun items => items.mapM Trigger.ofJson?) (rereadItems? triggers) triggers')
    (cs : StandsFor (fun items => items.mapM Condition.ofJson?) (rereadItems? conditions) conditions')
    (as : StandsFor (fun items => items.mapM Action.ofJson?) (rereadItems? actions) actions') :
    StandsFor Rule.ofJson?
      (Json.obj [("id", .str r.id), ("mode", .str r.mode.name), ("enabled", .bool r.enabled),
        ("triggers", .arr triggers), ("conditions", .arr conditions), ("actions", .arr actions)]).reread?
      (do return { r with triggers := ← triggers', conditions := ← conditions', actions := ← actions' })
    := by
  simp only [Json.reread?, Json.rereadFields?_cons]
  generalize rereadItems? triggers = triggers at ts ⊢
  generalize rereadItems? conditions = conditions at cs ⊢
  generalize rereadItems? actions = actions at as ⊢
  -- the lists come back one after another; if one does not, neither does the rule
  cases ts with
  | none => exact .none
  | @some triggers _ triggersDecoded =>
    cases cs with
    | none => exact .none
    | @some conditions _ conditionsDecoded =>
      cases as with
      | none => exact .none
      | @some actions _ actionsDecoded =>
        refine .some ?_
        obtain ⟨kept, object, held⟩ := Json.ofFields_of_nodup [("id", .str r.id),
          ("mode", .str r.mode.name), ("enabled", .bool r.enabled), ("triggers", .arr triggers),
          ("conditions", .arr conditions), ("actions", .arr actions)] (by simp)
        rw [object]
        simp [ofJson?, Parts.ofPlain?, Parts.fits, Parts.required_named, Parts.optional_named, held,
          Json.lookup_field, Mode.ofJson?, Json.asListOf?, triggersDecoded, conditionsDecoded,
          actionsDecoded]

/-- **Rules** come back. -/
theorem Rule.standsFor_toJson (r : Rule) :
    StandsFor Rule.ofJson? r.toJson.reread? r.reread? :=
  r.standsFor_lists (standsFor_list fun t _ => t.standsFor_toJson)
    (standsFor_list fun c _ => c.standsFor_toJson)
    (standsFor_list fun a _ => a.standsFor_toJson false)

/-- What is read back of a rule is **an object**. -/
theorem Rule.reread?_toJson_ne_arr (r : Rule) (items : List Json) :
    r.toJson.reread? ≠ some (.arr items) := by
  rw [toJson, Json.reread?]
  intro h
  obtain ⟨fields, -, object⟩ := Option.map_eq_some_iff.mp h
  cases object

/-- Entries that all describe rules **leave nothing out**. -/
theorem Batch.ofEntriesFrom_of_mapM {items : List Json} {rules : List Rule}
    (h : items.mapM Rule.ofJson? = some rules) (index : Nat) :
    Batch.ofEntriesFrom index items = { rules } := by
  induction items generalizing index rules with
  | nil =>
    obtain rfl : [] = rules := by simpa using h
    rfl
  | cons item items ih =>
    rw [List.mapM_cons] at h
    obtain ⟨r, here, h⟩ := Option.bind_eq_some_iff.mp h
    obtain ⟨others, later, h⟩ := Option.bind_eq_some_iff.mp h
    obtain rfl : r :: others = rules := by simpa using h
    rw [Batch.ofEntriesFrom, ih later, here]

/-- The rules of a document are those that **its value** describes. -/
theorem Batch.toOption_read {v : Json} (shallow : v.nesting < Json.depthLimit) :
    (Batch.read v.text).toOption = v.reread?.map fun w => ofEntries (entries w) := by
  rw [← Json.read_text shallow, Batch.read]
  cases Json.read v.text <;> rfl

/-- A document **of one rule** holds that rule as it is read back, and nothing is left out. -/
theorem Batch.read_rule (r : Rule) (shallow : r.toJson.nesting < Json.depthLimit) :
    (Batch.read r.toJson.text).toOption = r.reread?.map fun r' => { rules := [r'] } := by
  have decoded := r.standsFor_toJson
  have object := r.reread?_toJson_ne_arr
  rw [Batch.toOption_read shallow]
  generalize r.toJson.reread? = value at decoded object ⊢
  generalize r.reread? = r' at decoded ⊢
  cases decoded with
  | none => rfl
  | @some v r' described =>
    have one : Batch.entries v = [v] := by
      cases v with
      | arr items => exact absurd rfl (object items)
      | _ => rfl
    have alone : [v].mapM Rule.ofJson? = some [r'] := by simp [described]
    rw [Option.map_some, one, Batch.ofEntries, Batch.ofEntriesFrom_of_mapM alone]
    rfl

/-- A document of **a list of rules** holds them as they are read back, in order, and nothing is left
out. -/
theorem Batch.read_rules (rs : List Rule)
    (shallow : (Json.arr (rs.map Rule.toJson)).nesting < Json.depthLimit) :
    (Batch.read (Json.arr (rs.map Rule.toJson)).text).toOption
      = (rs.mapM Rule.reread?).map fun rules => { rules } := by
  have decoded := standsFor_list fun r (_ : r ∈ rs) => r.standsFor_toJson
  rw [Batch.toOption_read shallow, Json.reread?]
  generalize rereadItems? (rs.map Rule.toJson) = items at decoded ⊢
  generalize rs.mapM Rule.reread? = rs' at decoded ⊢
  cases decoded with
  | none => rfl
  | some described =>
    rw [Option.map_some, Option.map_some, Batch.entries, Batch.ofEntries,
      Batch.ofEntriesFrom_of_mapM described]
    rfl

/-! ## 2. The doubles and the payloads of a rule -/

/-- The **ends of bounds** that are given. -/
def Bounds.ends (b : Bounds) : List Float :=
  b.above.toList ++ b.below.toList

/-- The ends of the bounds of a trigger. -/
def Trigger.ends : Trigger → List Float
  | threshold _ bounds => bounds.ends
  | event _ | schedule _ | pattern _ _ | unknown => []

/-- The ends of the bounds of a condition. -/
def Condition.ends : Condition → List Float
  | numericCompare _ bounds => bounds.ends
  | stateEquals _ _ | unknown => []

/-- The payload of a service call. -/
def Action.payload? : Action → Option Json
  | serviceCall _ data => some data
  | wait _ | repeatCount _ _ | stop | unknown => none

/-- The **payloads** of actions and of all that are nested in them. -/
def Action.payloads (actions : List Action) : List Json :=
  (Action.flattenList actions).filterMap Action.payload?

/-- The ends of **all bounds** of a rule. -/
def Rule.ends (r : Rule) : List Float :=
  r.triggers.flatMap Trigger.ends ++ r.conditions.flatMap Condition.ends

/-- The double that a number is, unless it is a whole number. -/
def Number.real? : Number → Option Float
  | .whole _ _ => none
  | .real x _ => some x

/-- The **doubles** of a rule: the ends of its bounds, and the numbers of its payloads that are not
whole. -/
def Rule.reals (r : Rule) : List Float :=
  r.ends ++ (Action.payloads r.actions).flatMap fun data => data.numbers.filterMap Number.real?

/-- A double is **printed faithfully** when the document of it alone is read back as it. -/
def PrintedFaithfully (x : Float) : Prop :=
  ∀ finite : x.isFinite = true,
    Json.read (Json.num (.real x finite)).text = .ok (.num (.real x finite))

/-- A rule **can be written** when the ends of its bounds are finite and the names in its payloads
are in order: the others have no text of their own. -/
structure Rule.Writable (r : Rule) : Prop where
  finite : ∀ x ∈ r.ends, x.isFinite = true
  tidy : ∀ data ∈ Action.payloads r.actions, data.Tidy

/-! ## 3. Rules that come back as they are -/

/-- A list is passed through **as it is** exactly if each of its items is. -/
theorem mapM_eq_some_self_iff {α : Type} {f : α → Option α} {as : List α} :
    as.mapM f = some as ↔ ∀ a ∈ as, f a = some a := by
  induction as with
  | nil => simp
  | cons a as ih =>
    simp only [List.mapM_cons, List.forall_mem_cons, ← ih]
    constructor
    · intro h
      obtain ⟨b, here, h⟩ := Option.bind_eq_some_iff.mp h
      obtain ⟨bs, later, h⟩ := Option.bind_eq_some_iff.mp h
      obtain ⟨rfl, rfl⟩ := List.cons.inj (Option.some.inj h)
      exact ⟨here, later⟩
    · rintro ⟨here, later⟩
      simp [here, later]

/-- A finite end comes back **exactly if it is printed faithfully**. -/
theorem Bounds.rereadEnd?_eq_iff {x : Float} (finite : x.isFinite = true) :
    rereadEnd? x = some (some x) ↔ PrintedFaithfully x := by
  have faithful : PrintedFaithfully x
      ↔ Json.read (Json.num (.real x finite)).text = .ok (.num (.real x finite)) :=
    ⟨fun h => h finite, fun h _ => h⟩
  rw [faithful, Json.read_text_num, Json.reread?_real, rereadEnd?, dif_pos finite]
  cases (Number.real x finite).reread? <;> simp

/-- A number comes back exactly if **the double it is**, if any, is printed faithfully. -/
theorem Number.reread?_eq_iff (n : Number) :
    n.reread? = some n ↔ ∀ x ∈ n.real?, PrintedFaithfully x := by
  cases n with
  | whole n inRange => simp [Json.reread?_whole, real?]
  | real x finite =>
    rw [← Json.read_text_num]
    constructor
    · rintro h _ ⟨⟩ _
      exact h
    · exact fun h => h x rfl finite

/-- Bounds are read back as they are **exactly if each of them is printed faithfully**. -/
theorem Bounds.reread?_eq_iff {b : Bounds} (finite : ∀ x ∈ b.ends, x.isFinite = true) :
    b.reread? = some b ↔ ∀ x ∈ b.ends, PrintedFaithfully x := by
  rcases b with ⟨_ | a, _ | c⟩
  · simp [reread?, ends]
  · have high := rereadEnd?_eq_iff (finite c (by simp [ends]))
    simp only [reread?, ends, Option.elim_none, Option.elim_some, Option.toList_none,
      Option.toList_some, List.nil_append, List.mem_singleton, forall_eq, ← high]
    cases rereadEnd? c <;> simp
  · have low := rereadEnd?_eq_iff (finite a (by simp [ends]))
    simp only [reread?, ends, Option.elim_none, Option.elim_some, Option.toList_none,
      Option.toList_some, List.append_nil, List.mem_singleton, forall_eq, ← low]
    cases rereadEnd? a <;> simp
  · have low := rereadEnd?_eq_iff (finite a (by simp [ends]))
    have high := rereadEnd?_eq_iff (finite c (by simp [ends]))
    simp only [reread?, ends, Option.elim_some, Option.toList_some, List.forall_mem_append,
      List.mem_singleton, forall_eq, ← low, ← high]
    cases rereadEnd? a <;> cases rereadEnd? c <;> simp

/-- A trigger is read back as it is **exactly if its thresholds are printed faithfully**. -/
theorem Trigger.reread?_eq_iff {t : Trigger} (finite : ∀ x ∈ t.ends, x.isFinite = true) :
    t.reread? = some t ↔ ∀ x ∈ t.ends, PrintedFaithfully x := by
  cases t with
  | threshold entity bounds =>
    rw [ends, ← Bounds.reread?_eq_iff finite, reread?]
    simp
  | _ => simp [reread?, ends]

/-- A condition is read back as it is **exactly if its thresholds are printed faithfully**. -/
theorem Condition.reread?_eq_iff {c : Condition} (finite : ∀ x ∈ c.ends, x.isFinite = true) :
    c.reread? = some c ↔ ∀ x ∈ c.ends, PrintedFaithfully x := by
  cases c with
  | numericCompare entity bounds =>
    rw [ends, ← Bounds.reread?_eq_iff finite, reread?]
    simp
  | _ => simp [reread?, ends]

mutual

/-- An action comes back as it is exactly if **each payload in it** does. -/
theorem Action.reread?_eq_iff : ∀ action : Action,
    action.reread? = some action
      ↔ ∀ data ∈ action.flatten.filterMap Action.payload?, data.reread? = some data
  | .serviceCall service data => by simp [Action.reread?, flatten, payload?]
  | .repeatCount count actions => by
    simp [Action.reread?, flatten, payload?, Action.rereadAll?_eq_iff actions]
  | .wait ms => by simp [Action.reread?, flatten, payload?]
  | .stop => by simp [Action.reread?, flatten, payload?]
  | .unknown => by simp [Action.reread?, flatten, payload?]

/-- Actions come back as they are exactly if each payload in them does. -/
theorem Action.rereadAll?_eq_iff : ∀ actions : List Action,
    Action.rereadAll? actions = some actions
      ↔ ∀ data ∈ (Action.flattenList actions).filterMap Action.payload?, data.reread? = some data
  | [] => by simp [rereadAll?, flattenList]
  | action :: actions => by
    have here := Action.reread?_eq_iff action
    have later := Action.rereadAll?_eq_iff actions
    simp only [flattenList, List.filterMap_append, List.forall_mem_append, ← here, ← later]
    rw [rereadAll?_eq_mapM, rereadAll?_eq_mapM, mapM_eq_some_self_iff, mapM_eq_some_self_iff,
      List.forall_mem_cons]

end

/-- A rule comes back as it is exactly if **each of its doubles** is printed faithfully. -/
theorem Rule.reread?_eq_some_iff {r : Rule} (writable : r.Writable) :
    r.reread? = some r ↔ ∀ x ∈ r.reals, PrintedFaithfully x := by
  have ends := writable.finite
  simp only [Rule.ends, List.forall_mem_append, List.forall_mem_flatMap] at ends
  have triggers : r.triggers.mapM Trigger.reread? = some r.triggers
      ↔ ∀ t ∈ r.triggers, ∀ x ∈ t.ends, PrintedFaithfully x := by
    rw [mapM_eq_some_self_iff]
    exact forall₂_congr fun t member => t.reread?_eq_iff (ends.1 t member)
  have conditions : r.conditions.mapM Condition.reread? = some r.conditions
      ↔ ∀ c ∈ r.conditions, ∀ x ∈ c.ends, PrintedFaithfully x := by
    rw [mapM_eq_some_self_iff]
    exact forall₂_congr fun c member => c.reread?_eq_iff (ends.2 c member)
  have actions : r.actions.mapM Action.reread? = some r.actions
      ↔ ∀ data ∈ Action.payloads r.actions, ∀ x ∈ data.numbers.filterMap Number.real?,
          PrintedFaithfully x := by
    rw [← Action.rereadAll?_eq_mapM, Action.rereadAll?_eq_iff]
    refine forall₂_congr fun data member => ?_
    rw [Json.reread?_eq_some_iff (writable.tidy data member), List.forall_mem_filterMap]
    exact forall₂_congr fun n _ => n.reread?_eq_iff
  rw [Rule.reals, Rule.ends]
  simp only [List.forall_mem_append, List.forall_mem_flatMap, ← triggers, ← conditions, ← actions]
  constructor
  -- each part that came back is the part that was written, as the whole rule is
  · intro h
    obtain ⟨ts, triggers, h⟩ := Option.bind_eq_some_iff.mp h
    obtain ⟨cs, conditions, h⟩ := Option.bind_eq_some_iff.mp h
    obtain ⟨as, actions, h⟩ := Option.bind_eq_some_iff.mp h
    have same : { r with triggers := ts, conditions := cs, actions := as } = r := Option.some.inj h
    rw [triggers, conditions, actions, ← same]
    exact ⟨⟨rfl, rfl⟩, rfl⟩
  · rintro ⟨⟨ts, cs⟩, as⟩
    rw [reread?, ts, cs, as]
    rfl

/-- **Saving and reloading** is the identity on rules whose doubles are printed faithfully: on one
rule, and on a list of rules, in order and with nothing left out. -/
theorem reload_is_identity :
    (∀ r : Rule, r.Writable → (∀ x ∈ r.reals, PrintedFaithfully x) → r.toJson.nesting ≤ 127 →
      Batch.read r.toJson.text = .ok ⟨[r], []⟩)
    ∧ ∀ rs : List Rule, (∀ r ∈ rs, r.Writable ∧ ∀ x ∈ r.reals, PrintedFaithfully x) →
      (Json.arr (rs.map Rule.toJson)).nesting ≤ 127 →
      Batch.read (Json.arr (rs.map Rule.toJson)).text = .ok ⟨rs, []⟩ := by
  constructor
  · intro r writable faithful shallow
    have same := (Rule.reread?_eq_some_iff writable).mpr faithful
    have read := Batch.read_rule r (Nat.lt_succ_of_le shallow)
    rw [same] at read
    exact eq_ok_of_toOption read
  · intro rs each shallow
    have same : rs.mapM Rule.reread? = some rs := mapM_eq_some_self_iff.mpr fun r member =>
      (Rule.reread?_eq_some_iff (each r member).1).mpr (each r member).2
    have read := Batch.read_rules rs (Nat.lt_succ_of_le shallow)
    rw [same] at read
    exact eq_ok_of_toOption read

/-- A double is printed faithfully if **its digits give it back**. -/
theorem printedFaithfully_of_digits {x : Float} (finite : x.isFinite = true)
    (digits : (Json.readNumber (Json.writeNumber (.real x finite))).toOption.map
      (fun read => read.1.toFloat) = some x) : PrintedFaithfully x := by
  have given := congrArg (Option.map some) digits
  rw [Option.map_map] at given
  rw [← Bounds.rereadEnd?_eq_iff finite, Bounds.rereadEnd?, dif_pos finite, Number.reread?,
    Option.map_map]
  exact given

/-- A **rule for the heating**: a threshold and a condition, a payload inside a repetition, and a kind
of condition that is not understood. -/
def heatingRule : Rule where
  id := "heating"
  mode := .restart
  triggers := [.threshold "temperature" { below := some 19.5 }, .event "evening"]
  conditions := [.numericCompare "load" { above := some 0.25, below := some 0.75 }, .unknown]
  actions := [.repeatCount 2 [.serviceCall "notify" (.obj [("level", .ofFloat 2.5), ("rooms", .ofInt 3)]),
    .wait 500], .stop]

/-- The rule for the heating can be written. -/
theorem writable_heatingRule : heatingRule.Writable := by
  have payloads : Action.payloads heatingRule.actions
      = [.obj [("level", .ofFloat 2.5), ("rooms", .ofInt 3)]] := rfl
  refine ⟨by decide +kernel, fun data member => ?_⟩
  rw [payloads, List.mem_singleton] at member
  rw [member]
  exact ⟨List.pairwise_pair.mpr (by decide), trivial, trivial, trivial⟩

/-- The rule for the heating **comes back**, on its own and twice in a list. -/
theorem reload_is_identity_heating :
    Batch.read heatingRule.toJson.text = .ok ⟨[heatingRule], []⟩
      ∧ Batch.read (Json.arr ([heatingRule, heatingRule].map Rule.toJson)).text
        = .ok ⟨[heatingRule, heatingRule], []⟩ := by
  have doubles : heatingRule.reals = [19.5, 0.25, 0.75, 2.5] := by decide +kernel
  have faithful : ∀ x ∈ heatingRule.reals, PrintedFaithfully x := by
    rw [doubles]
    simp only [List.forall_mem_cons, List.not_mem_nil, false_imp_iff, forall_const, and_true]
    exact ⟨printedFaithfully_of_digits (by decide +kernel) (by decide +kernel),
      printedFaithfully_of_digits (by decide +kernel) (by decide +kernel),
      printedFaithfully_of_digits (by decide +kernel) (by decide +kernel),
      printedFaithfully_of_digits (by decide +kernel) (by decide +kernel)⟩
  refine ⟨reload_is_identity.1 heatingRule writable_heatingRule faithful (by decide),
    reload_is_identity.2 [heatingRule, heatingRule] (fun r member => ?_) (by decide)⟩
  obtain rfl : r = heatingRule := by simpa using member
  exact ⟨writable_heatingRule, faithful⟩

end RuleDispatch
