import Mathlib
import RuleDispatch.Keyed
import RuleDispatch.Proofs.Reload.Parts
import RuleDispatch.Rule.Document

/-! # Actions at every level

The actions of a rule are read at the top, those of a repetition inside it. Inside, a kind of action
may also be given by its number; at the top it has to be named. That is the only difference, and it
does not matter how deep inside an action stands.

* `Json.kindNumber?`, `Json.spelledOut` — the number by which a description gives its kind, and the
  description with the name in its place.
* `Action.decode_nested` — what the two levels make of a description.
* `Json.enclosed`, `Action.mapM_enclosed` — actions repeated, level by level.
* `Json.onActions`, `Rule.ofJson?_onActions` — a rule with other actions.
* `levels_differ_in_numbered_kinds` — all of it; `stop_by_number` shows the difference. -/

namespace RuleDispatch

/-! ## 1. Kinds by name and by number -/

/-- The **number** by which a description gives its kind, if it does not name it. -/
def Json.kindNumber? (v : Json) : Option Nat :=
  (Parts.ofTagged? v).bind fun description => description.1.asNat?

/-- The name of a kind; any other name is that of no kind that is understood. -/
def Action.Kind.name : Kind → String
  | serviceCall => "service_call"
  | wait => "wait_duration"
  | repeatCount => "repeat_count"
  | stop => "stop"
  | unknown => "unknown"

/-- A kind is **the one of its name**. -/
@[simp] theorem Action.Kind.ofName_name (kind : Kind) : ofName kind.name = kind := by
  cases kind <;> decide

/-- The description with its kind **given by name**. -/
def Json.named (name : String) : Json → Json
  | .obj fields => .obj (Keyed.put "type" (.str name) fields)
  | .arr (_ :: items) => .arr (.str name :: items)
  | v => v

/-- A kind that is not a number is given **in the same way at every level**. -/
theorem Action.Kind.ofJson?_of_named {kind : Json} (h : kind.asNat? = none) :
    ofJson? true kind = ofJson? false kind := by
  cases kind with
  | str name => rfl
  | null | bool | num | arr | obj => simp [ofJson?, h]

/-- A kind that is a number is given **inside only**. -/
theorem Action.Kind.ofJson?_of_numbered {kind : Json} {n : Nat} (h : kind.asNat? = some n) :
    ofJson? true kind = some (ofNumber n) ∧ ofJson? false kind = none := by
  cases kind with
  | num number => simp [ofJson?, h]
  | null | bool | str | arr | obj => cases h

/-- An action whose kind is not given by its number is described **in the same way at every
level**. -/
theorem Action.decode_of_named {v : Json} (h : v.kindNumber? = none) :
    decode true v = decode false v := by
  match v with
  | .obj fields =>
    rw [decode, decode]
    cases held : fields.lookup "type" with
    | none => rfl
    | some kind =>
      have named : kind.asNat? = none := by
        simpa [Json.kindNumber?, Parts.ofTagged?, held] using h
      rw [Option.bind_some, Option.bind_some, Kind.ofJson?_of_named named]
  | .arr (kind :: items) =>
    have named : kind.asNat? = none := h
    rw [decode, decode, Kind.ofJson?_of_named named]
  | .arr [] | .null | .bool _ | .num _ | .str _ => rfl

/-- What an object describes does not change when **fields are put in that are not asked for**. -/
theorem Action.assemble_congr {fields fields' : List (String × Json)}
    (same : ∀ name, name ≠ "type" → fields'.lookup name = fields.lookup name) (kind : Kind)
    (body : Option (List Action)) :
    assemble kind (.named fields') body = assemble kind (.named fields) body := by
  cases kind <;>
    simp [assemble, Parts.fits, Parts.required_named, Parts.optional_named, same]

/-- An action whose kind is given by its number is described **inside only**, and there as if the kind
were named. -/
theorem Action.decode_of_numbered {v : Json} {n : Nat} (h : v.kindNumber? = some n) :
    decode false v = none
      ∧ decode true v = decode false (v.named (Kind.ofNumber n).name) := by
  match v with
  | .obj fields =>
    obtain ⟨⟨kind, parts⟩, tagged, number⟩ := Option.bind_eq_some_iff.mp h
    obtain ⟨_, held, same⟩ := Option.map_eq_some_iff.mp tagged
    obtain ⟨rfl, rfl⟩ := Prod.mk.inj same
    obtain ⟨inside, top⟩ := Kind.ofJson?_of_numbered number
    -- the name stands where the number stood, and all other fields are as they were
    have others (name : String) (apart : name ≠ "type") :
        (Keyed.put "type" (.str (Kind.ofNumber n).name) fields).lookup name = fields.lookup name :=
      Keyed.lookup_put_of_ne apart _ fields
    refine ⟨by rw [decode, held, Option.bind_some, top]; rfl, ?_⟩
    rw [Json.named, decode_obj _ (Keyed.lookup_put_self ..), Kind.ofName_name, others _ (by decide),
      assemble_congr others, ← decodeNamedBody_eq, decode, held, Option.bind_some, inside]
    rfl
  | .arr (kind :: items) =>
    have number : kind.asNat? = some n := h
    obtain ⟨inside, top⟩ := Kind.ofJson?_of_numbered number
    refine ⟨by rw [decode, top]; rfl, ?_⟩
    rw [Json.named, decode, decode, inside, Kind.ofJson?, Kind.ofName_name]
  | .arr [] | .null | .bool _ | .num _ | .str _ => cases h

/-- The description with its kind given **by name**, if it is given by number. -/
def Json.spelledOut (v : Json) : Json :=
  match v.kindNumber? with
  | some n => v.named (Action.Kind.ofNumber n).name
  | none => v

/-- What gives its kind by name **is spelled out already**. -/
theorem Json.spelledOut_of_named {v : Json} (h : v.kindNumber? = none) : v.spelledOut = v := by
  rw [spelledOut, h]

/-- Inside, an action is what it is at the top **once its kind is spelled out**. -/
theorem Action.decode_nested (v : Json) : decode true v = Action.ofJson? v.spelledOut := by
  cases number : v.kindNumber? with
  | none => rw [Json.spelledOut_of_named number, decode_of_named number, Action.ofJson?]
  | some n => rw [Json.spelledOut, number, (decode_of_numbered number).2, Action.ofJson?]

/-! ## 2. Level by level -/

/-- Actions **repeated** so many times. -/
def Json.repeated (count : UInt32) (items : List Json) : Json :=
  .obj [("type", .str "repeat_count"), ("count", .ofNat count.toNat), ("actions", .arr items)]

/-- Descriptions of actions inside a repetition **for each count**, the first outermost. -/
def Json.enclosed : List UInt32 → List Json → List Json
  | [], items => items
  | count :: inner, items => [repeated count (enclosed inner items)]

/-- Actions inside a repetition for each count. -/
def Action.enclosed : List UInt32 → List Action → List Action
  | [], actions => actions
  | count :: inner, actions => [.repeatCount count (enclosed inner actions)]

/-- A repetition is described if its count and **its actions** are. -/
theorem Action.decode_repeats (nested : Bool) {times : Json} {count : UInt32}
    (number : times.asUInt32? = some count) (items : List Json) :
    decode nested (.obj [("type", .str "repeat_count"), ("count", times), ("actions", .arr items)])
      = (items.mapM (decode true)).map (.repeatCount count) := by
  rw [decode_obj "repeat_count" (by simp)]
  simp [Kind.ofName, assemble, Parts.fits, Parts.required_named, Json.lookup_field, number,
    decodeBody, decodeItems_eq_mapM, Option.map_eq_bind]

/-- A repetition is described **if each of its actions is**. -/
theorem Action.decode_repeated (nested : Bool) (count : UInt32) (items : List Json) :
    decode nested (Json.repeated count items)
      = (items.mapM (decode true)).map (.repeatCount count) :=
  decode_repeats nested (Json.asUInt32?_ofNat count) items

/-- Inside one repetition or more, **how many they are does not matter**. -/
theorem Action.mapM_enclosed (nested : Bool) (count : UInt32) (inner : List UInt32)
    (items : List Json) :
    (Json.enclosed (count :: inner) items).mapM (decode nested)
      = (items.mapM (decode true)).map (enclosed (count :: inner)) := by
  induction inner generalizing nested count with
  | nil =>
    rw [Json.enclosed, List.mapM_cons, decode_repeated]
    simp only [Json.enclosed, List.mapM_nil, enclosed]
    cases items.mapM (decode true) <;> rfl
  | cons next inner ih =>
    -- whatever stands in the first repetition is nested
    rw [Json.enclosed, List.mapM_cons, decode_repeated, ih true next]
    simp only [List.mapM_nil, enclosed]
    cases items.mapM (decode true) <;> rfl

/-- Actions inside repetitions are those at the top **with their kinds spelled out**. -/
theorem Action.mapM_enclosed_spelledOut (nested : Bool) (count : UInt32) (inner : List UInt32)
    (items : List Json) :
    (Json.enclosed (count :: inner) items).mapM (decode nested)
      = ((items.map Json.spelledOut).mapM Action.ofJson?).map (enclosed (count :: inner)) := by
  have inside : decode true = Action.ofJson? ∘ Json.spelledOut := funext decode_nested
  rw [mapM_enclosed, List.mapM_map, ← inside]

/-! ## 3. Rules -/

/-- The value with **its items changed**, if it is a list. -/
def Json.onItems (change : List Json → List Json) : Json → Json
  | .arr items => .arr (change items)
  | v => v

/-- A field of a rule, **changed if it is that of the actions**. -/
def Json.onActionsField (change : List Json → List Json) (field : String × Json) : String × Json :=
  if field.1 = "actions" then (field.1, field.2.onItems change) else field

/-- Parts of a rule with **other actions**. -/
def Parts.onActions (change : List Json → List Json) : Parts → Parts
  | named fields => .named (fields.map (Json.onActionsField change))
  | listed items => .listed (items.modify 5 (Json.onItems change))

/-- The description of a rule with **other actions**, given by name or by place. -/
def Json.onActions (change : List Json → List Json) : Json → Json
  | .obj fields => .obj (fields.map (onActionsField change))
  | .arr items => .arr (items.modify 5 (onItems change))
  | v => v

/-- The parts of a rule with other actions are its parts **with the actions changed**. -/
theorem Parts.ofPlain?_onActions (change : List Json → List Json) (v : Json) :
    ofPlain? (v.onActions change) = (ofPlain? v).map (onActions change) := by
  cases v <;> rfl

/-- The actions that a description of a rule **lists**, if it does. -/
def Json.actionItems? (v : Json) : Option (List Json) :=
  (Parts.ofPlain? v).bind fun parts => (parts.find? 5 ["actions"]).bind asItems?

/-- A field **under one name or at one place**. -/
theorem Parts.required_singleton {α : Type} (parts : Parts) (place : Nat) (name : String)
    (decode : Json → Option α) :
    parts.required place [name] decode = (parts.find? place [name]).bind decode := by
  rw [required, if_neg (by rw [isRepeated_singleton]; decide)]

/-- A field that may be missing, **under one name or at one place**. -/
theorem Parts.optional_singleton {α : Type} (parts : Parts) (place : Nat) (name : String)
    (decode : Json → Option α) (missing : α) :
    parts.optional place [name] decode missing
      = (parts.find? place [name]).elim (some missing) decode := by
  rw [optional, if_neg (by rw [isRepeated_singleton]; decide)]
  cases parts.find? place [name] <;> rfl

/-- Among the fields of an object, that of the actions **is changed**, and no other is. -/
theorem Json.lookup_onActionsField (change : List Json → List Json) (fields : List (String × Json))
    (name : String) :
    (fields.map (onActionsField change)).lookup name
      = if name = "actions" then (fields.lookup name).map (onItems change)
        else fields.lookup name := by
  induction fields with
  | nil => simp
  | cons field fields ih =>
    obtain ⟨held, value⟩ := field
    rw [List.map_cons, onActionsField]
    by_cases found : name = held
    · subst found
      by_cases here : name = "actions" <;> simp [here]
    · rw [Json.lookup_field name held, if_neg found, ← ih]
      split <;> rw [Json.lookup_field, if_neg found]

/-- Other actions change **no other field**. -/
theorem Parts.find?_onActions_of_ne (change : List Json → List Json) (parts : Parts) {place : Nat}
    (elsewhere : place ≠ 5) {name : String} (other : name ≠ "actions") :
    (parts.onActions change).find? place [name] = parts.find? place [name] := by
  cases parts with
  | listed items => exact List.getElem?_modify_ne _ _ elsewhere.symm
  | named fields =>
    rw [onActions, find?, find?, List.findSome?_singleton, List.findSome?_singleton,
      Json.lookup_onActionsField, if_neg other]

/-- The field of the actions is **changed as they are**. -/
theorem Parts.find?_onActions (change : List Json → List Json) (parts : Parts) :
    (parts.onActions change).find? 5 ["actions"]
      = (parts.find? 5 ["actions"]).map (Json.onItems change) := by
  cases parts with
  | listed items => exact List.getElem?_modify_eq _ 5 items
  | named fields =>
    rw [onActions, find?, find?, List.findSome?_singleton, List.findSome?_singleton,
      Json.lookup_onActionsField, if_pos rfl]

/-- Other actions leave **as many parts**. -/
theorem Parts.fits_onActions (change : List Json → List Json) (parts : Parts) (count : Nat) :
    (parts.onActions change).fits count = parts.fits count := by
  cases parts with
  | named => rfl
  | listed items => rw [onActions, fits, fits, List.length_modify]

/-- A rule with other actions is **the rule apart from its actions, and those**. -/
theorem Rule.ofJson?_onActions {v : Json} {items : List Json} (given : v.actionItems? = some items)
    (change : List Json → List Json) :
    Rule.ofJson? (v.onActions change)
      = (Rule.ofJson? (v.onActions fun _ => [])).bind fun r =>
          ((change items).mapM Action.ofJson?).map fun actions => { r with actions } := by
  obtain ⟨parts, plain, given⟩ := Option.bind_eq_some_iff.mp given
  obtain ⟨value, held, list⟩ := Option.bind_eq_some_iff.mp given
  obtain rfl : value = .arr items := by
    cases value <;> simp_all [Json.asItems?]
  -- all fields but that of the actions are read as before
  rw [ofJson?, ofJson?, Parts.ofPlain?_onActions, Parts.ofPlain?_onActions, plain]
  simp only [Option.map_some, Option.bind_eq_bind, Option.bind_some, Parts.fits_onActions,
    Parts.required_singleton, Parts.optional_singleton, Parts.find?_onActions, held,
    Parts.find?_onActions_of_ne _ parts (by decide : (0 : Nat) ≠ 5) (by decide : "id" ≠ "actions"),
    Parts.find?_onActions_of_ne _ parts (by decide : (1 : Nat) ≠ 5) (by decide : "mode" ≠ "actions"),
    Parts.find?_onActions_of_ne _ parts (by decide : (2 : Nat) ≠ 5)
      (by decide : "enabled" ≠ "actions"),
    Parts.find?_onActions_of_ne _ parts (by decide : (3 : Nat) ≠ 5)
      (by decide : "triggers" ≠ "actions"),
    Parts.find?_onActions_of_ne _ parts (by decide : (4 : Nat) ≠ 5)
      (by decide : "conditions" ≠ "actions")]
  split
  · rfl
  · simp [Json.onItems, Json.asListOf?, Option.bind_assoc, Option.map_eq_bind]

/-- With its actions **as they are**, a description of a rule is itself. -/
theorem Json.onActions_self (v : Json) : v.onActions (fun items => items) = v := by
  have same : onItems (fun items => items) = id := by
    funext v
    cases v <;> rfl
  cases v with
  | obj fields =>
    have same_field : onActionsField (fun items => items) = id := by
      funext field
      simp [onActionsField, same]
    rw [onActions, same_field, List.map_id]
  | arr items => rw [onActions, same, List.modify_id]
  | null | bool | num | str => rfl

/-- A rule whose actions are repeated is **that rule with its kinds spelled out**, and its actions
repeated. -/
theorem Rule.ofJson?_enclosed {v : Json} {items : List Json} (given : v.actionItems? = some items)
    (count : UInt32) (inner : List UInt32) :
    Rule.ofJson? (v.onActions (Json.enclosed (count :: inner)))
      = (Rule.ofJson? (v.onActions (List.map Json.spelledOut))).map fun r =>
          { r with actions := Action.enclosed (count :: inner) r.actions } := by
  have all := Action.mapM_enclosed_spelledOut false count inner items
  rw [ofJson?_onActions given (Json.enclosed (count :: inner)),
    ofJson?_onActions given (List.map Json.spelledOut),
    show Action.ofJson? = Action.decode false from rfl, all]
  cases Rule.ofJson? (v.onActions fun _ => []) with
  | none => rfl
  | some r =>
    rw [Option.bind_some, Option.bind_some, Option.map_map, Option.map_map]
    rfl

/-- A rule is what it is **apart from its actions, and those**. -/
theorem Rule.ofJson?_eq_of_actionItems? {v : Json} {items : List Json}
    (given : v.actionItems? = some items) :
    Rule.ofJson? v = (Rule.ofJson? (v.onActions fun _ => [])).bind fun r =>
      (items.mapM Action.ofJson?).map fun actions => { r with actions } := by
  have whole := ofJson?_onActions given (fun items => items)
  rwa [Json.onActions_self] at whole

/-- Kinds that are all named **need not be spelled out**. -/
theorem Rule.ofJson?_spelledOut {v : Json} {items : List Json} (given : v.actionItems? = some items)
    (named : ∀ item ∈ items, item.kindNumber? = none) :
    Rule.ofJson? (v.onActions (List.map Json.spelledOut)) = Rule.ofJson? v := by
  have same : items.map Json.spelledOut = items :=
    (List.map_congr_left fun item member => Json.spelledOut_of_named (named item member)).trans
      (List.map_id items)
  rw [ofJson?_onActions given, ofJson?_eq_of_actionItems? given, same]

/-- A list is refused **if any of its items is**. -/
theorem mapM_eq_none_of_mem {α β : Type} {decode : α → Option β} {items : List α} {item : α}
    (member : item ∈ items) (refused : decode item = none) : items.mapM decode = none := by
  induction member with
  | head => rw [List.mapM_cons, refused]; rfl
  | @tail other rest _ ih =>
    rw [List.mapM_cons, ih]
    cases decode other <;> rfl

/-- A rule is refused if any of its actions is. -/
theorem Rule.ofJson?_eq_none_of_item {v : Json} {items : List Json}
    (given : v.actionItems? = some items) {item : Json} (member : item ∈ items)
    (refused : Action.ofJson? item = none) : Rule.ofJson? v = none := by
  rw [ofJson?_eq_of_actionItems? given, mapM_eq_none_of_mem member refused]
  cases Rule.ofJson? (v.onActions fun _ => []) <;> rfl

/-! ## 4. The levels compared -/

/-- **The top differs from every other level in the kinds given by number, and in nothing else.**
Inside one repetition or more, however many, an action is what it is at the top once its kind is
spelled out; it is the same at both exactly if its kind is named or it is refused anyhow. So repeating
the actions of a rule leaves it accepted or refused if all of them name their kinds; if one does not,
the rule is refused without the repetition, and with it is the rule that names it. -/
theorem levels_differ_in_numbered_kinds (nested : Bool) (v rule : Json) (items : List Json)
    (count : UInt32) (inner : List UInt32) :
    (Json.enclosed (count :: inner) items).mapM (Action.decode nested)
        = ((items.map Json.spelledOut).mapM Action.ofJson?).map (Action.enclosed (count :: inner))
      ∧ (v.kindNumber? = none → v.spelledOut = v)
      ∧ (v.kindNumber? ≠ none → Action.ofJson? v = none)
      ∧ (Action.decode true v = Action.ofJson? v
          ↔ v.kindNumber? = none ∨ Action.decode true v = none)
      ∧ (rule.actionItems? = some items →
          Rule.ofJson? (rule.onActions (Json.enclosed (count :: inner)))
              = (Rule.ofJson? (rule.onActions (List.map Json.spelledOut))).map (fun r =>
                  { r with actions := Action.enclosed (count :: inner) r.actions })
            ∧ ((∀ item ∈ items, item.kindNumber? = none) →
                Rule.ofJson? (rule.onActions (List.map Json.spelledOut)) = Rule.ofJson? rule)
            ∧ ((∃ item ∈ items, item.kindNumber? ≠ none) → Rule.ofJson? rule = none)) := by
  have refused {v : Json} (numbered : v.kindNumber? ≠ none) : Action.ofJson? v = none := by
    obtain ⟨n, number⟩ := Option.ne_none_iff_exists'.mp numbered
    exact (Action.decode_of_numbered number).1
  refine ⟨Action.mapM_enclosed_spelledOut nested count inner items, Json.spelledOut_of_named, refused,
    ⟨fun same => ?_, ?_⟩, fun given =>
      ⟨Rule.ofJson?_enclosed given count inner, Rule.ofJson?_spelledOut given, ?_⟩⟩
  · -- a number is refused at the top, so it has to be refused inside
    exact or_iff_not_imp_left.mpr fun numbered => same.trans (refused numbered)
  · rintro (named | nowhere)
    · exact Action.decode_of_named named
    · cases number : v.kindNumber? with
      | none => exact Action.decode_of_named number
      | some n => rw [nowhere, refused (by simp [number])]
  · rintro ⟨item, member, numbered⟩
    exact Rule.ofJson?_eq_none_of_item given member (refused numbered)

/-- A description of a rule whose actions are these. -/
def Json.ruleOf (items : List Json) : Json :=
  .obj [("id", .str "porch"), ("actions", .arr items)]

/-- The action that ends a run, its kind given by number. -/
def Json.stopByNumber : Json :=
  .obj [("type", .ofNat 3)]

/-- One rule whose action names its kind, and one whose action does not. -/
theorem levels_differ_in_numbered_kinds_porch :
    (Rule.ofJson? ((Json.ruleOf [.obj [("type", .str "stop")]]).onActions (Json.enclosed [2]))
        = (Rule.ofJson? (Json.ruleOf [.obj [("type", .str "stop")]])).map fun r =>
            { r with actions := Action.enclosed [2] r.actions })
      ∧ Rule.ofJson? (Json.ruleOf [.stopByNumber]) = none := by
  constructor
  · obtain ⟨-, -, -, -, rules⟩ := levels_differ_in_numbered_kinds false .null
      (Json.ruleOf [.obj [("type", .str "stop")]]) [.obj [("type", .str "stop")]] 2 []
    obtain ⟨inside, same, -⟩ := rules rfl
    rw [inside, same (by simp [Json.kindNumber?, Parts.ofTagged?, Json.asNat?])]
  · obtain ⟨-, -, -, -, rules⟩ := levels_differ_in_numbered_kinds false .null
      (Json.ruleOf [.stopByNumber]) [.stopByNumber] 2 []
    exact (rules rfl).2.2 ⟨_, List.mem_singleton_self _, by decide⟩

/-- A rule that **stops by number** is refused, though it is accepted once its action is repeated. -/
theorem stop_by_number :
    Action.ofJson? .stopByNumber = none ∧ Action.decode true .stopByNumber = some .stop
      ∧ Rule.ofJson? (Json.ruleOf [.stopByNumber]) = none
      ∧ Rule.ofJson? ((Json.ruleOf [.stopByNumber]).onActions (Json.enclosed [1]))
          = some { id := "porch", actions := [.repeatCount 1 [.stop]] } :=
  ⟨rfl, rfl, rfl, rfl⟩

end RuleDispatch
