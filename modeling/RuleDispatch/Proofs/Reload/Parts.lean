import Mathlib
import RuleDispatch.Proofs.Reload.Values
import RuleDispatch.Rule.Decode

/-! # Parts of a rule read back from their own text

Triggers, conditions and actions come back with every bound and every payload read back on its own,
and with nothing else changed: missing bounds stay missing, kinds that are not understood stay so,
and actions keep their nesting.

* `Bounds.reread?`, `Trigger.reread?`, `Condition.reread?`, `Action.reread?` — what the parts are read
  back as.
* `StandsFor` — a description as it was read back describes the part as it was read back.
* `Trigger.standsFor_toJson`, `Condition.standsFor_toJson`, `Action.standsFor_toJson` — all parts come
  back. -/

namespace RuleDispatch

open Json (reread? rereadItems? rereadFields? ofFields)

/-! ## 1. What the parts of a rule are read back as -/

/-- What a double is **read back as**. One that is not finite is written as null, which is no
bound. -/
def Bounds.rereadEnd? (x : Float) : Option (Option Float) :=
  if h : x.isFinite = true then (Number.real x h).reread?.map fun n => some n.toFloat else some none

/-- What bounds are **read back as**: those that are missing stay so. -/
def Bounds.reread? (b : Bounds) : Option Bounds := do
  let above ← b.above.elim (some none) Bounds.rereadEnd?
  let below ← b.below.elim (some none) Bounds.rereadEnd?
  return { above, below }

/-- What a trigger is **read back as**. -/
def Trigger.reread? : Trigger → Option Trigger
  | threshold entity bounds => bounds.reread?.map (threshold entity)
  | event name => some (event name)
  | schedule intervalMs => some (schedule intervalMs)
  | pattern sequence withinMs => some (pattern sequence withinMs)
  | unknown => some unknown

/-- What a condition is **read back as**. -/
def Condition.reread? : Condition → Option Condition
  | numericCompare entity bounds => bounds.reread?.map (numericCompare entity)
  | stateEquals entity value => some (stateEquals entity value)
  | unknown => some unknown

mutual

/-- What an action is **read back as**: its payload as it is read back, nested actions likewise. -/
def Action.reread? : Action → Option Action
  | .serviceCall service data => data.reread?.map (.serviceCall service)
  | .repeatCount count actions => (Action.rereadAll? actions).map (.repeatCount count)
  | .wait ms => some (.wait ms)
  | .stop => some .stop
  | .unknown => some .unknown

/-- What actions are read back as, one by one. -/
def Action.rereadAll? : List Action → Option (List Action)
  | [] => some []
  | action :: rest => do return (← Action.reread? action) :: (← Action.rereadAll? rest)

end

/-! ## 2. Fields of an object that was read back -/

/-- What each field of an object is **read back as**, by its name. -/
theorem Json.lookup_rereadFields? {fields fields' : List (String × Json)}
    (read : rereadFields? fields = some fields') (name : String) :
    fields'.lookup name = (fields.lookup name).bind Json.reread? := by
  induction fields generalizing fields' with
  | nil =>
    obtain rfl : [] = fields' := by simpa [rereadFields?] using read
    rfl
  | cons field fields ih =>
    obtain ⟨other, value⟩ := field
    rw [Json.rereadFields?_cons] at read
    obtain ⟨value', here, read⟩ := Option.bind_eq_some_iff.mp read
    obtain ⟨others, later, rfl⟩ := Option.map_eq_some_iff.mp read
    rw [Json.lookup_field, Json.lookup_field, ih later]
    split
    · rw [Option.bind_some, here]
    · rfl

/-- An object whose names are different **keeps its fields**, whatever order they come in. -/
theorem Json.ofFields_of_nodup (fields : List (String × Json)) (h : (fields.map Prod.fst).Nodup) :
    ∃ kept, ofFields fields = .obj kept ∧ ∀ name, kept.lookup name = fields.lookup name := by
  refine ⟨_, rfl, fun name => ?_⟩
  have put (held more : List (String × Json)) (apart : (more.map Prod.fst).Nodup) :
      (more.foldl (fun held field => Json.insertField field.1 field.2 held) held).lookup name
        = (more.lookup name).or (held.lookup name) := by
    induction more generalizing held with
    | nil => rfl
    | cons field more ih =>
      obtain ⟨other, value⟩ := field
      have apart' := List.nodup_cons.mp apart
      rw [List.foldl_cons, ih _ apart'.2, Json.lookup_insertField, Json.lookup_field]
      split
      · next same =>
        -- a name that is put in does not come again
        have absent : more.lookup name = none := by
          rw [List.lookup_eq_none_iff]
          intro field member
          rw [bne_iff_ne, same]
          exact fun again => apart'.1 (again ▸ List.mem_map_of_mem member)
        rw [absent]
        rfl
      · rfl
  rw [put [] fields h, List.lookup_nil, Option.or_none]

/-- An object that was read back **has its fields read back**, whatever order they come in. -/
theorem Json.reread?_obj {fields fields' : List (String × Json)}
    (apart : (fields.map Prod.fst).Nodup) (read : rereadFields? fields = some fields') :
    ∃ kept, (Json.obj fields).reread? = some (.obj kept)
      ∧ ∀ name, kept.lookup name = (fields.lookup name).bind Json.reread? := by
  obtain ⟨kept, object, same⟩ := Json.ofFields_of_nodup fields'
    (by rwa [Json.names_rereadFields? read])
  refine ⟨kept, ?_, fun name => ?_⟩
  · rw [Json.reread?, read, Option.map_some, object]
  · rw [same, Json.lookup_rereadFields? read]

/-! ## 3. Fields of a description -/

/-- A field with one name is given **at most once**. -/
theorem Parts.isRepeated_singleton (parts : Parts) (name : String) :
    parts.isRepeated [name] = false := by
  cases parts with
  | listed => rfl
  | named fields =>
    have short := List.length_filter_le (fun name => (fields.lookup name).isSome) [name]
    simpa [isRepeated] using short

/-- A field that has to be given is **looked up by its name**. -/
theorem Parts.required_named {α : Type} (fields : List (String × Json)) (place : Nat) (name : String)
    (decode : Json → Option α) :
    (Parts.named fields).required place [name] decode = (fields.lookup name).bind decode := by
  rw [required, if_neg (by rw [isRepeated_singleton]; decide), find?, List.findSome?_singleton]

/-- A field that may be missing is looked up by its name. -/
theorem Parts.optional_named {α : Type} (fields : List (String × Json)) (place : Nat) (name : String)
    (decode : Json → Option α) (missing : α) :
    (Parts.named fields).optional place [name] decode missing
      = (fields.lookup name).elim (some missing) decode := by
  rw [optional, if_neg (by rw [isRepeated_singleton]; decide), find?, List.findSome?_singleton]
  cases fields.lookup name <;> rfl

/-- A field with a second name is looked up by its first, if **the second is not given**. -/
theorem Parts.required_named_pair {α : Type} {fields : List (String × Json)} {other : String}
    (absent : fields.lookup other = none) (place : Nat) (name : String) (decode : Json → Option α) :
    (Parts.named fields).required place [name, other] decode = (fields.lookup name).bind decode := by
  have once : (Parts.named fields).isRepeated [name, other] = false := by
    cases held : fields.lookup name <;> simp [isRepeated, absent, held]
  rw [required, if_neg (by rw [once]; decide), find?]
  cases held : fields.lookup name <;> simp [absent, held]

/-! ## 4. Parts that come back -/

/-- A description as it was read back **stands for** a part as it was read back: neither was, or the
one describes the other. -/
abbrev StandsFor {β α : Type} (decode : β → Option α) : Option β → Option α → Prop :=
  Option.Rel fun v a => decode v = some a

/-- The parts of a list come back **one by one**, if each does. -/
theorem standsFor_list {α : Type} {describe : α → Json} {decode : Json → Option α}
    {reread? : α → Option α} {as : List α}
    (each : ∀ a ∈ as, StandsFor decode (describe a).reread? (reread? a)) :
    StandsFor (fun items => items.mapM decode) (rereadItems? (as.map describe))
      (as.mapM reread?) := by
  induction as with
  | nil => exact .some rfl
  | cons a as ih =>
    have first := each a List.mem_cons_self
    have later := ih fun b member => each b (List.mem_cons_of_mem a member)
    rw [List.map_cons, Json.rereadItems?_cons, List.mapM_cons]
    generalize (describe a).reread? = here, reread? a = here' at first
    generalize rereadItems? (as.map describe) = there, as.mapM reread? = there' at later
    cases first with
    | none => exact .none
    | some decoded =>
      cases later with
      | none => exact .none
      | some decodes => exact .some (by simp [decoded, decodes])

/-- A whole number in range is **exact**. -/
theorem Json.ofInt_of_inRange {n : Int} (inRange : Number.least ≤ n ∧ n < Number.limit) :
    Json.ofInt n = .num (.whole n inRange) := by
  rw [Json.ofInt, Number.ofInt?, dif_pos inRange]

/-- A **natural number** in range comes back as it is. -/
theorem Json.reread?_ofNat {n : Nat} (small : n < 2 ^ 64) :
    (Json.ofNat n).reread? = some (Json.ofNat n) := by
  have inRange : Number.least ≤ (n : Int) ∧ (n : Int) < Number.limit := by
    simp only [Number.least, Number.limit]
    omega
  rw [Json.ofNat, Json.ofInt_of_inRange inRange, Json.reread?, Json.reread?_whole, Option.map_some]

/-- A number below the limit is read back **as itself**. -/
theorem Json.asNat?_ofNat {n : Nat} (small : n < 2 ^ 64) : (Json.ofNat n).asNat? = some n := by
  have inRange : Number.least ≤ (n : Int) ∧ (n : Int) < Number.limit := by
    simp only [Number.least, Number.limit]
    omega
  rw [Json.ofNat, Json.ofInt_of_inRange inRange]
  rfl

/-- A number of 64 bits is read back **as itself**. -/
theorem Json.asUInt64?_ofNat (n : UInt64) : (Json.ofNat n.toNat).asUInt64? = some n := by
  rw [Json.asUInt64?, Json.asNat?_ofNat n.toNat_lt, Option.bind_some, if_pos n.toNat_lt,
    UInt64.ofNat_toNat]

/-- A number of 32 bits is read back **as itself**. -/
theorem Json.asUInt32?_ofNat (n : UInt32) : (Json.ofNat n.toNat).asUInt32? = some n := by
  have small : n.toNat < 2 ^ 64 := n.toNat_lt.trans (by decide)
  rw [Json.asUInt32?, Json.asNat?_ofNat small, Option.bind_some, if_pos n.toNat_lt,
    UInt32.ofNat_toNat]

/-- Texts come back as they are. -/
theorem Json.rereadItems?_texts (texts : List String) :
    rereadItems? (texts.map .str) = some (texts.map .str) := by
  induction texts with
  | nil => rfl
  | cons text texts ih => rw [List.map_cons, Json.rereadItems?_cons, ih, Json.reread?]; rfl

/-- A list of texts is read back **as itself**. -/
theorem Json.asTexts?_texts (texts : List String) :
    (Json.arr (texts.map .str)).asTexts? = some texts := by
  simp only [Json.asTexts?, Json.asItems?_arr, Option.bind_some]
  induction texts with
  | nil => rfl
  | cons text texts ih => simp [ih]

/-! ## 5. Bounds -/

/-- What is given for a bound: nothing, or a value that describes one. -/
def Json.givenBound? (given : Option Json) : Option (Option Float) :=
  given.elim (some none) Json.asBound?

/-- Bounds are read from **the two fields of their names**. -/
theorem Parts.bounds_named (fields : List (String × Json)) (place : Nat) :
    (Parts.named fields).bounds place = do
      let above ← Json.givenBound? (fields.lookup "above")
      let below ← Json.givenBound? (fields.lookup "below")
      return { above, below } := by
  rw [bounds, optional_named, optional_named]
  rfl

/-- The value of a double **stands for it**. -/
theorem standsFor_ofFloat (x : Float) :
    StandsFor Json.asBound? (Json.ofFloat x).reread? (Bounds.rereadEnd? x) := by
  unfold Json.ofFloat Number.ofFloat? Bounds.rereadEnd?
  by_cases finite : x.isFinite = true
  · simp only [dif_pos finite, Json.reread?]
    cases (Number.real x finite).reread? with
    | none => exact .none
    | some n => exact .some rfl
  · simp only [dif_neg finite, Json.reread?]
    exact .some rfl

/-- The fields of bounds are read back as often as **the bounds themselves**, and then either end is
given by what its field was read back as. -/
theorem rereadFields?_bounds (b : Bounds) :
    Option.Rel
      (fun _ (b' : Bounds) =>
        Json.givenBound? ((b.above.map Json.ofFloat).bind Json.reread?) = some b'.above
          ∧ Json.givenBound? ((b.below.map Json.ofFloat).bind Json.reread?) = some b'.below)
      (rereadFields? b.fields) b.reread? := by
  have given {v : Json} {x : Option Float} (h : v.asBound? = some x) :
      Json.givenBound? (some v) = some x := h
  rcases b with ⟨_ | a, _ | c⟩
  · exact .some ⟨rfl, rfl⟩
  · have high := standsFor_ofFloat c
    simp only [Bounds.fields, Bounds.reread?, Option.map_none, Option.map_some, Option.toList_none,
      Option.toList_some, List.nil_append, Json.rereadFields?_cons, Option.elim_none,
      Option.elim_some, Option.bind_some]
    generalize (Json.ofFloat c).reread? = text, Bounds.rereadEnd? c = value at high ⊢
    cases high with
    | none => exact .none
    | some described => exact .some ⟨rfl, given described⟩
  · have low := standsFor_ofFloat a
    simp only [Bounds.fields, Bounds.reread?, Option.map_none, Option.map_some, Option.toList_none,
      Option.toList_some, List.append_nil, Json.rereadFields?_cons, Option.elim_none,
      Option.elim_some, Option.bind_some]
    generalize (Json.ofFloat a).reread? = text, Bounds.rereadEnd? a = value at low ⊢
    cases low with
    | none => exact .none
    | some described => exact .some ⟨given described, rfl⟩
  · have low := standsFor_ofFloat a
    have high := standsFor_ofFloat c
    simp only [Bounds.fields, Bounds.reread?, Option.map_some, Option.toList_some,
      List.cons_append, List.nil_append, Json.rereadFields?_cons, Option.elim_some, Option.bind_some]
    generalize (Json.ofFloat a).reread? = text, Bounds.rereadEnd? a = value at low ⊢
    generalize (Json.ofFloat c).reread? = text', Bounds.rereadEnd? c = value' at high ⊢
    cases low with
    | none => exact .none
    | some described =>
      cases high with
      | none => exact .none
      | some described' => exact .some ⟨given described, given described'⟩

/-- The names of the fields of bounds. -/
theorem names_fields (b : Bounds) (kind entity : Json) :
    ((("type", kind) :: ("entity", entity) :: b.fields).map Prod.fst).Nodup := by
  rcases b with ⟨_ | a, _ | c⟩ <;> simp [Bounds.fields]

/-- Bounds are written **under their names**, each if it is there. -/
theorem lookup_fields (b : Bounds) :
    b.fields.lookup "above" = b.above.map Json.ofFloat
      ∧ b.fields.lookup "below" = b.below.map Json.ofFloat := by
  rcases b with ⟨_ | a, _ | c⟩ <;> simp [Bounds.fields, Json.lookup_field]

/-- A part with an entity and bounds **comes back** as the bounds do: thresholds and numeric
conditions are such parts. -/
theorem standsFor_bounded {α : Type} {decode : Json → Option α} {kind : String}
    {build : String → Bounds → α}
    (decoded : ∀ fields, fields.lookup "type" = some (.str kind) → decode (.obj fields) = do
      return build (← (Parts.named fields).required 0 ["entity"] Json.asText?)
        (← (Parts.named fields).bounds 1)) (entity : String) (b : Bounds) :
    StandsFor decode
      (Json.obj (("type", .str kind) :: ("entity", .str entity) :: b.fields)).reread?
      (b.reread?.map (build entity)) := by
  have ends := rereadFields?_bounds b
  have all : rereadFields? (("type", .str kind) :: ("entity", .str entity) :: b.fields)
      = (rereadFields? b.fields).map fun fields =>
          ("type", .str kind) :: ("entity", .str entity) :: fields := by
    rw [Json.rereadFields?_cons, Json.rereadFields?_cons, Json.reread?, Json.reread?,
      Option.bind_some, Option.bind_some, Option.map_map]
    rfl
  cases read : rereadFields? b.fields with
  | none =>
    rw [read] at all ends
    generalize b.reread? = b' at ends ⊢
    cases ends
    rw [Json.reread?, all]
    exact .none
  | some fields =>
    -- the ends of the bounds are looked up by name, like the kind and the entity
    rw [read] at all ends
    generalize b.reread? = b' at ends ⊢
    cases ends with
    | some given =>
      obtain ⟨kept, object, held⟩ := Json.reread?_obj (names_fields b _ _) all
      have kind_held : kept.lookup "type" = some (.str kind) := by
        rw [held, Json.lookup_field, if_pos rfl]
        rfl
      have entity_held : kept.lookup "entity" = some (.str entity) := by
        rw [held, Json.lookup_field, if_neg (by decide), Json.lookup_field, if_pos rfl]
        rfl
      have above_held : kept.lookup "above" = (b.above.map Json.ofFloat).bind Json.reread? := by
        rw [held, Json.lookup_field, if_neg (by decide), Json.lookup_field, if_neg (by decide),
          (lookup_fields b).1]
      have below_held : kept.lookup "below" = (b.below.map Json.ofFloat).bind Json.reread? := by
        rw [held, Json.lookup_field, if_neg (by decide), Json.lookup_field, if_neg (by decide),
          (lookup_fields b).2]
      rw [object]
      refine .some ?_
      rw [decoded kept kind_held, Parts.required_named, Parts.bounds_named, entity_held, above_held,
        below_held, given.1, given.2]
      rfl

/-! ## 6. Triggers and conditions -/

/-- A part whose fields all come back as they are **comes back as it is**, if only its fields count
and not their order. -/
theorem standsFor_same {α : Type} {decode : Json → Option α} {a : α} {fields : List (String × Json)}
    (apart : (fields.map Prod.fst).Nodup) (same : ∀ field ∈ fields, field.2.reread? = some field.2)
    (decoded : ∀ kept, (∀ name, kept.lookup name = fields.lookup name) →
      decode (.obj kept) = some a) :
    StandsFor decode (Json.obj fields).reread? (some a) := by
  have all : rereadFields? fields = some fields := by
    clear apart decoded
    induction fields with
    | nil => rfl
    | cons field fields ih =>
      obtain ⟨name, value⟩ := field
      have here : value.reread? = some value := same _ List.mem_cons_self
      rw [Json.rereadFields?_cons, here, ih fun other member => same _ (List.mem_cons_of_mem _ member)]
      rfl
  obtain ⟨kept, object, held⟩ := Json.ofFields_of_nodup _ apart
  rw [Json.reread?, all, Option.map_some, object]
  exact .some (decoded kept held)

/-- A schedule comes back if **the value of its interval** does. -/
theorem Trigger.standsFor_schedule {interval : Json} {intervalMs : UInt64}
    (same : interval.reread? = some interval) (number : interval.asUInt64? = some intervalMs) :
    StandsFor Trigger.ofJson?
      (Json.obj [("type", .str "time_schedule"), ("interval_ms", interval)]).reread?
      (some (.schedule intervalMs)) := by
  refine standsFor_same (by simp) (by simp [Json.reread?, same]) fun kept held => ?_
  have other : kept.lookup "intervalMs" = none := by simp [held, Json.lookup_field]
  simp [ofJson?, Parts.ofTagged?, Parts.fits, Parts.required_named_pair other, held,
    Json.lookup_field, number]

/-- A sequence comes back if the value of the time it has does. -/
theorem Trigger.standsFor_pattern (sequence : List String) {within : Json} {withinMs : UInt64}
    (same : within.reread? = some within) (number : within.asUInt64? = some withinMs) :
    StandsFor Trigger.ofJson?
      (Json.obj [("type", .str "pattern_sequence"), ("sequence", .arr (sequence.map .str)),
        ("within_ms", within)]).reread?
      (some (.pattern sequence withinMs)) := by
  refine standsFor_same (by simp) (by simp [Json.reread?, Json.rereadItems?_texts, same])
    fun kept held => ?_
  have other : kept.lookup "withinMs" = none := by simp [held, Json.lookup_field]
  simp [ofJson?, Parts.ofTagged?, Parts.fits, Parts.required_named, Parts.required_named_pair other,
    held, Json.lookup_field, number, Json.asTexts?_texts]

/-- **Triggers** come back. -/
theorem Trigger.standsFor_toJson (t : Trigger) :
    StandsFor Trigger.ofJson? t.toJson.reread? t.reread? := by
  cases t with
  | event name =>
    refine standsFor_same (by simp) (by simp [Json.reread?]) fun kept held => ?_
    simp [ofJson?, Parts.ofTagged?, Parts.fits, Parts.required_named, held, Json.lookup_field]
  | threshold entity bounds =>
    refine standsFor_bounded (fun fields kind => ?_) entity bounds
    simp [ofJson?, Parts.ofTagged?, Parts.fits, kind]
  | schedule intervalMs =>
    exact standsFor_schedule (Json.reread?_ofNat intervalMs.toNat_lt)
      (Json.asUInt64?_ofNat intervalMs)
  | pattern sequence withinMs =>
    exact standsFor_pattern sequence (Json.reread?_ofNat withinMs.toNat_lt)
      (Json.asUInt64?_ofNat withinMs)
  | unknown =>
    refine standsFor_same (by simp) (by simp [Json.reread?]) fun kept held => ?_
    simp [ofJson?, Parts.ofTagged?, Parts.fits, held]

/-- **Conditions** come back. -/
theorem Condition.standsFor_toJson (c : Condition) :
    StandsFor Condition.ofJson? c.toJson.reread? c.reread? := by
  cases c with
  | stateEquals entity value =>
    refine standsFor_same (by simp) (by simp [Json.reread?]) fun kept held => ?_
    simp [ofJson?, Parts.ofTagged?, Parts.fits, Parts.required_named, held, Json.lookup_field]
  | numericCompare entity bounds =>
    refine standsFor_bounded (fun fields kind => ?_) entity bounds
    simp [ofJson?, Parts.ofTagged?, Parts.fits, kind]
  | unknown =>
    refine standsFor_same (by simp) (by simp [Json.reread?]) fun kept held => ?_
    simp [ofJson?, Parts.ofTagged?, Parts.fits, held]

/-! ## 7. Actions -/

/-- Actions are read back **one by one**. -/
theorem Action.rereadAll?_eq_mapM (actions : List Action) :
    rereadAll? actions = actions.mapM Action.reread? := by
  induction actions with
  | nil => rfl
  | cons action actions ih => rw [rereadAll?, ih, List.mapM_cons]

/-- Nested actions are read **one by one**. -/
theorem Action.decodeItems_eq_mapM (items : List Json) :
    decodeItems items = items.mapM (decode true) := by
  induction items with
  | nil => rfl
  | cons item items ih => rw [decodeItems, ih, List.mapM_cons]

/-- The actions nested in an object are **those of its field**. -/
theorem Action.decodeNamedBody_eq (fields : List (String × Json)) :
    decodeNamedBody fields = (fields.lookup "actions").elim (some []) decodeBody := by
  induction fields with
  | nil => rfl
  | cons field fields ih =>
    obtain ⟨name, value⟩ := field
    rw [decodeNamedBody, Json.lookup_field, ih]
    by_cases here : name = "actions"
    · rw [if_pos here, if_pos here.symm]
      rfl
    · rw [if_neg here, if_neg (Ne.symm here)]

/-- An action given by name is **assembled** from the fields of its object. -/
theorem Action.decode_obj {fields : List (String × Json)} (name : String)
    (kind : fields.lookup "type" = some (.str name)) (nested : Bool) :
    decode nested (.obj fields) = assemble (.ofName name) (.named fields)
      ((fields.lookup "actions").elim (some []) decodeBody) := by
  rw [decode, kind, decodeNamedBody_eq]
  rfl

/-- A wait comes back if **the value of its length** does. -/
theorem Action.standsFor_wait (nested : Bool) {length : Json} {ms : UInt64}
    (same : length.reread? = some length) (number : length.asUInt64? = some ms) :
    StandsFor (decode nested) (Json.obj [("type", .str "wait_duration"), ("ms", length)]).reread?
      (some (.wait ms)) := by
  refine standsFor_same (by simp) (by simp [Json.reread?, same]) fun kept held => ?_
  rw [decode_obj "wait_duration" (by simp [held])]
  simp [Kind.ofName, assemble, Parts.fits, Parts.required_named, held, Json.lookup_field, number]

/-- A repetition comes back if the value of its count and **its nested actions** do. -/
theorem Action.standsFor_repeat (nested : Bool) {times : Json} {count : UInt32} {items : List Json}
    {actions : Option (List Action)} (same : times.reread? = some times)
    (number : times.asUInt32? = some count)
    (body : StandsFor (fun items => items.mapM (decode true)) (rereadItems? items) actions) :
    StandsFor (decode nested)
      (Json.obj [("type", .str "repeat_count"), ("count", times), ("actions", .arr items)]).reread?
      (actions.map (.repeatCount count)) := by
  simp only [Json.reread?, Json.rereadFields?_cons, same]
  generalize rereadItems? items = items at body ⊢
  cases body with
  | none => exact .none
  | @some items _ decoded =>
    refine .some ?_
    obtain ⟨kept, object, held⟩ := Json.ofFields_of_nodup
      [("type", .str "repeat_count"), ("count", times), ("actions", .arr items)] (by simp)
    rw [object, decode_obj "repeat_count" (by simp [held])]
    simp [Kind.ofName, assemble, Parts.fits, Parts.required_named, held, Json.lookup_field, number,
      decodeBody, decodeItems_eq_mapM, decoded]

/-- A service call comes back **as its payload does**. -/
theorem Action.standsFor_serviceCall (nested : Bool) (service : String) (data : Json) :
    StandsFor (decode nested)
      (Json.obj [("type", .str "service_call"), ("service", .str service), ("data", data)]).reread?
      (data.reread?.map (.serviceCall service)) := by
  simp only [Json.reread?, Json.rereadFields?_cons]
  cases data.reread? with
  | none => exact .none
  | some data =>
    refine .some ?_
    obtain ⟨kept, object, held⟩ := Json.ofFields_of_nodup
      [("type", .str "service_call"), ("service", .str service), ("data", data)] (by simp)
    rw [object, decode_obj "service_call" (by simp [held])]
    simp [Kind.ofName, assemble, Parts.fits, Parts.required_named, Parts.optional_named, held,
      Json.lookup_field]

/-- **Actions** come back, at the top and nested. -/
theorem Action.standsFor_toJson (nested : Bool) : ∀ action : Action,
    StandsFor (Action.decode nested) action.toJson.reread? action.reread?
  | .serviceCall service data => by
    rw [toJson, reread?]
    exact standsFor_serviceCall nested service data
  | .wait ms => by
    rw [toJson, reread?]
    exact standsFor_wait nested (Json.reread?_ofNat ms.toNat_lt) (Json.asUInt64?_ofNat ms)
  | .repeatCount count actions => by
    rw [toJson, reread?, listToJson_eq_map, rereadAll?_eq_mapM]
    -- a count fits in sixty-four bits as well, so it is printed as a whole number
    exact standsFor_repeat nested
      (Json.reread?_ofNat (count.toNat_lt.trans (by decide : 2 ^ 32 < 2 ^ 64)))
      (Json.asUInt32?_ofNat count)
      (standsFor_list fun action (_ : action ∈ actions) => Action.standsFor_toJson true action)
  | .stop => by
    rw [toJson, reread?]
    refine standsFor_same (by simp) (by simp [Json.reread?]) fun kept held => ?_
    rw [decode_obj "stop" (by simp [held])]
    simp [Kind.ofName, assemble, Parts.fits]
  | .unknown => by
    rw [toJson, reread?]
    refine standsFor_same (by simp) (by simp [Json.reread?]) fun kept held => ?_
    rw [decode_obj "unknown" (by simp [held])]
    simp [Kind.ofName, assemble, Parts.fits]
termination_by action => sizeOf action
decreasing_by
  · next member =>
    have := List.sizeOf_lt_of_mem member
    simp only [Action.repeatCount.sizeOf_spec]
    omega

end RuleDispatch
