import Mathlib
import RuleDispatch.Proofs.Reload.Parts

/-! # Descriptions reworded

What an object describes depends only on the fields that are asked for, each taken as it is given or
as what it stands for when it is left out. So a part stays what it is when its description is reworded
in one of four ways: a field that is not asked for changes, a field is given under another of its
names, a field that was left out is written out, or a part nested in it is reworded.

* `Described`, `Asked`, `Described.asked` — the fields that are asked for, by the kind of the part.
* `Asked.given?`, `Parts.required_once` and its siblings — fields are read as they are given.
* `Rewording` — the four ways; `Rewording.agree` — none of them changes what is described. -/

namespace RuleDispatch

/-! ## 1. The fields that are asked for -/

/-- What an object in a document of rules **describes**. -/
inductive Described where
  | rule
  | trigger
  | condition
  | action
deriving DecidableEq

/-- A **field that is asked for**: its names, what it stands for when it is left out, and what it lists
if it lists parts. -/
structure Asked where
  names : List String
  missing : Option Json := none
  lists : Option Described := none

namespace Asked

/-- A field that has to be given. -/
def once (name : String) : Asked :=
  { names := [name] }

/-- A field that has to be given, under either of two names. -/
def twice (name other : String) : Asked :=
  { names := [name, other] }

/-- A field that stands for a value when it is left out. -/
def defaulted (name : String) (value : Json) : Asked :=
  { names := [name], missing := some value }

/-- A list of parts, without any when it is left out. -/
def listing (name : String) (part : Described) : Asked :=
  { names := [name], missing := some (.arr []), lists := some part }

/-- The value that an object **gives for a field**. Under two names at once a field is not given. -/
def given? (a : Asked) (fields : List (String × Json)) : Option Json :=
  match a.names.filterMap fun name => fields.lookup name with
  | [] => a.missing
  | [value] => some value
  | _ => none

end Asked

/-- The fields asked for in a rule. -/
def Rule.asked : List Asked :=
  [.once "id", .defaulted "mode" (.str "single"), .defaulted "enabled" (.bool true),
    .listing "triggers" .trigger, .listing "conditions" .condition, .listing "actions" .action]

/-- The fields asked for in a trigger of some kind. -/
def Trigger.asked (kind : String) : List Asked :=
  if kind = "event" then [.once "name"]
  else if kind = "numeric_threshold" then
    [.once "entity", .defaulted "above" .null, .defaulted "below" .null]
  else if kind = "time_schedule" then [.twice "interval_ms" "intervalMs"]
  else if kind = "pattern_sequence" then [.once "sequence", .twice "within_ms" "withinMs"]
  else []

/-- The fields asked for in a condition of some kind. -/
def Condition.asked (kind : String) : List Asked :=
  if kind = "state_equals" then [.once "entity", .once "value"]
  else if kind = "numeric_compare" then
    [.once "entity", .defaulted "above" .null, .defaulted "below" .null]
  else []

/-- Fields of triggers and of conditions list no parts. -/
theorem Trigger.lists_asked {kind : String} {a : Asked} (h : a ∈ Trigger.asked kind) :
    a.lists = none := by
  unfold asked at h
  split_ifs at h <;> simp at h <;> rcases h with rfl | rfl | rfl <;> rfl

/-- Fields of conditions **list no parts**, either. -/
theorem Condition.lists_asked {kind : String} {a : Asked} (h : a ∈ Condition.asked kind) :
    a.lists = none := by
  unfold asked at h
  split_ifs at h <;> simp at h <;> rcases h with rfl | rfl | rfl <;> rfl

/-- The fields asked for in an action of some kind. -/
def Action.Kind.asked : Action.Kind → List Asked
  | serviceCall => [.once "service", .defaulted "data" .null]
  | wait => [.once "ms"]
  | repeatCount => [.once "count", .listing "actions" .action]
  | stop | unknown => []

/-- The **fields asked for** in a part, by the value that gives its kind. -/
def Described.asked : Described → Option Json → List Asked
  | rule, _ => Rule.asked
  | trigger, kind => .once "type" :: (kind.bind Json.asText?).elim [] Trigger.asked
  | condition, kind => .once "type" :: (kind.bind Json.asText?).elim [] Condition.asked
  | action, kind =>
    .once "type" :: (kind.bind (Action.Kind.ofJson? true)).elim [] Action.Kind.asked

/-- Names of a field are different, and **no two fields share one**. -/
theorem Described.asked_apart (part : Described) (kind : Option Json) :
    (∀ a ∈ part.asked kind, a.names.Nodup)
      ∧ (part.asked kind).Pairwise fun a b => ∀ name ∈ a.names, name ∉ b.names := by
  cases part with
  | rule => simp [asked, Rule.asked, Asked.once, Asked.defaulted, Asked.listing]
  | trigger =>
    cases h : kind.bind Json.asText? with
    | none => simp [asked, h, Asked.once]
    | some kind =>
      simp only [asked, h, Option.elim_some, Trigger.asked]
      split_ifs <;> simp [Asked.once, Asked.defaulted, Asked.twice]
  | condition =>
    cases h : kind.bind Json.asText? with
    | none => simp [asked, h, Asked.once]
    | some kind =>
      simp only [asked, h, Option.elim_some, Condition.asked]
      split_ifs <;> simp [Asked.once, Asked.defaulted]
  | action =>
    cases h : kind.bind (Action.Kind.ofJson? true) with
    | none => simp [asked, h, Asked.once]
    | some kind =>
      cases kind <;>
        simp [asked, h, Action.Kind.asked, Asked.once, Asked.defaulted, Asked.listing]

/-! ## 2. Fields are read as they are given -/

section

variable (fields : List (String × Json)) (names : List String)

/-- The first value **under some names** is found. -/
theorem Parts.find?_fields (place : Nat) : (named fields).find? place names
    = (names.filterMap fun name => fields.lookup name).head? :=
  List.head?_filterMap.symm

/-- A field is given **under two names** when there are two values. -/
theorem Parts.isRepeated_fields : (named fields).isRepeated names
    = decide (1 < (names.filterMap fun name => fields.lookup name).length) := by
  rw [isRepeated, List.length_filterMap_eq_countP, List.countP_eq_length_filter]

end

/-- A field that has to be given is read **from what is given for it**. -/
theorem Parts.required_asked {α : Type} (a : Asked) (needed : a.missing = none)
    (fields : List (String × Json)) (place : Nat) (decode : Json → Option α) :
    (named fields).required place a.names decode = (a.given? fields).bind decode := by
  rw [required, find?_fields, isRepeated_fields, Asked.given?, needed]
  -- there is no value, one value or more than one
  generalize (a.names.filterMap fun name => fields.lookup name) = values
  rcases values with _ | ⟨value, _ | ⟨other, values⟩⟩
  · rfl
  · rfl
  · simp

/-- A field that may be missing is read from what is given for it **or what it stands for**. -/
theorem Parts.optional_asked {α : Type} (a : Asked) {value : Json} {missing : α}
    {decode : Json → Option α} (default : a.missing = some value)
    (decoded : decode value = some missing) (fields : List (String × Json)) (place : Nat) :
    (named fields).optional place a.names decode missing = (a.given? fields).bind decode := by
  rw [optional, find?_fields, isRepeated_fields, Asked.given?, default]
  generalize (a.names.filterMap fun name => fields.lookup name) = values
  rcases values with _ | ⟨value, _ | ⟨other, values⟩⟩
  · simp [decoded]
  · rfl
  · simp

section
variable {α : Type} (fields : List (String × Json)) (place : Nat) (decode : Json → Option α)

/-- A field that has to be given **under its one name**. -/
theorem Parts.required_once (name : String) :
    (named fields).required place [name] decode = ((Asked.once name).given? fields).bind decode :=
  required_asked (.once name) rfl fields place decode

/-- A field that has to be given **under one of its two names**. -/
theorem Parts.required_twice (name other : String) :
    (named fields).required place [name, other] decode
      = ((Asked.twice name other).given? fields).bind decode :=
  required_asked (.twice name other) rfl fields place decode

variable {decode} in
/-- A field that **stands for something** when it is missing. -/
theorem Parts.optional_defaulted (name : String) {value : Json} {missing : α}
    (decoded : decode value = some missing) :
    (named fields).optional place [name] decode missing
      = ((Asked.defaulted name value).given? fields).bind decode :=
  optional_asked (.defaulted name value) rfl decoded fields place

/-- A list of parts is read **part by part**. -/
theorem Parts.optional_listing (name : String) (part : Described) :
    (named fields).optional place [name] (Json.asListOf? decode) []
      = ((Asked.listing name part).given? fields).bind (Json.asListOf? decode) :=
  have none_listed : Json.asListOf? decode (.arr []) = some [] := rfl
  optional_asked (.listing name part) rfl none_listed fields place

end

/-- A field with one name and no other value is **looked up**. -/
theorem Asked.given?_once (name : String) (fields : List (String × Json)) :
    (once name).given? fields = fields.lookup name := by
  rw [given?, once, List.filterMap_cons]
  cases fields.lookup name <;> rfl

/-- Bounds are read from what is given for either of them. -/
theorem Parts.bounds_given (fields : List (String × Json)) (place : Nat) :
    (named fields).bounds place = do
      let above ← ((Asked.defaulted "above" .null).given? fields).bind Json.asBound?
      let below ← ((Asked.defaulted "below" .null).given? fields).bind Json.asBound?
      return { above, below } := by
  have none_given : Json.asBound? .null = some none := rfl
  rw [bounds, optional_defaulted fields _ "above" none_given,
    optional_defaulted fields _ "below" none_given]

/-! ## 3. Descriptions that agree -/

/-- Two values **describe the same** part, or none; for rules they also have the same name to be
reported. -/
def Described.Agree : Described → Json → Json → Prop
  | rule, v, v' => Rule.ofJson? v' = Rule.ofJson? v ∧ v'.field? "id" = v.field? "id"
  | trigger, v, v' => Trigger.ofJson? v' = Trigger.ofJson? v
  | condition, v, v' => Condition.ofJson? v' = Condition.ofJson? v
  | action, v, v' => ∀ nested, Action.decode nested v' = Action.decode nested v

/-- Two objects give **alike** values for a field: the same, or lists that differ in one part which
agrees. -/
def Asked.Alike (a : Asked) (fields fields' : List (String × Json)) : Prop :=
  a.given? fields' = a.given? fields
    ∨ ∃ part before item item' after, a.lists = some part ∧ part.Agree item item'
        ∧ a.given? fields = some (.arr (before ++ item :: after))
        ∧ a.given? fields' = some (.arr (before ++ item' :: after))

namespace Asked

variable {a : Asked} {fields fields' : List (String × Json)}

/-- A field that lists no parts is given **the same value**. -/
theorem Alike.given?_eq (alike : a.Alike fields fields') (plain : a.lists = none) :
    a.given? fields' = a.given? fields := by
  rcases alike with same | ⟨part, _, _, _, _, lists, -⟩
  · exact same
  · rw [plain] at lists
    cases lists

/-- A field that lists parts describes **the same ones**. -/
theorem Alike.parts_eq {α : Type} (alike : a.Alike fields fields') {part : Described}
    (lists : a.lists = some part) {decode : Json → Option α}
    (agree : ∀ v v', part.Agree v v' → decode v' = decode v) :
    (a.given? fields').bind (Json.asListOf? decode)
      = (a.given? fields).bind (Json.asListOf? decode) := by
  rcases alike with same | ⟨part', before, item, item', after, lists', agrees, given, given'⟩
  · rw [same]
  · obtain rfl : part = part' := Option.some.inj (lists.symm.trans lists')
    rw [given, given', Option.bind_some, Option.bind_some, Json.asListOf?, Json.asListOf?,
      Json.asItems?_arr, Json.asItems?_arr, Option.bind_some, Option.bind_some, List.mapM_append,
      List.mapM_append, List.mapM_cons, List.mapM_cons, agree item item' agrees]

end Asked

section

variable {fields fields' : List (String × Json)}

/-- Objects that give alike values for all that is asked **are of the same kind**. -/
theorem Described.kind_eq {rest : List Asked}
    (alike : ∀ a ∈ Asked.once "type" :: rest, a.Alike fields fields') :
    fields'.lookup "type" = fields.lookup "type" := by
  have same := (alike _ List.mem_cons_self).given?_eq rfl
  rwa [Asked.given?_once, Asked.given?_once] at same

/-- Triggers whose fields are alike **are the same**. -/
theorem Trigger.ofJson?_congr
    (alike : ∀ a ∈ Described.trigger.asked (fields.lookup "type"), a.Alike fields fields') :
    Trigger.ofJson? (.obj fields') = Trigger.ofJson? (.obj fields) := by
  have kind := Described.kind_eq alike
  cases held : fields.lookup "type" with
  | none => simp [ofJson?, Parts.ofTagged?, kind, held]
  | some value =>
    cases named : value.asText? with
    | none => simp [ofJson?, Parts.ofTagged?, kind, held, named]
    | some name =>
      have same : ∀ a ∈ Trigger.asked name, a.given? fields' = a.given? fields := fun a member =>
        (alike a (by simp [Described.asked, held, named, member])).given?_eq (lists_asked member)
      simp only [ofJson?, Parts.ofTagged?, kind, held, named, Option.map_some, Option.bind_eq_bind,
        Option.bind_some, Parts.fits, Parts.required_once, Parts.required_twice,
        Parts.bounds_given]
      -- both are split by the same names of kinds
      unfold Trigger.asked at same
      split_ifs at same ⊢ <;> simp_all

/-- Conditions whose fields are alike **are the same**. -/
theorem Condition.ofJson?_congr
    (alike : ∀ a ∈ Described.condition.asked (fields.lookup "type"), a.Alike fields fields') :
    Condition.ofJson? (.obj fields') = Condition.ofJson? (.obj fields) := by
  have kind := Described.kind_eq alike
  cases held : fields.lookup "type" with
  | none => simp [ofJson?, Parts.ofTagged?, kind, held]
  | some value =>
    cases named : value.asText? with
    | none => simp [ofJson?, Parts.ofTagged?, kind, held, named]
    | some name =>
      have same : ∀ a ∈ Condition.asked name, a.given? fields' = a.given? fields :=
        fun a member =>
          (alike a (by simp [Described.asked, held, named, member])).given?_eq (lists_asked member)
      simp only [ofJson?, Parts.ofTagged?, kind, held, named, Option.map_some, Option.bind_eq_bind,
        Option.bind_some, Parts.fits, Parts.required_once, Parts.bounds_given]
      unfold Condition.asked at same
      split_ifs at same ⊢ <;> simp_all

/-- A kind that is understood at some level is understood **inside**. -/
theorem Action.Kind.ofJson?_inside {nested : Bool} {value : Json} {kind : Action.Kind}
    (h : ofJson? nested value = some kind) : ofJson? true value = some kind := by
  cases nested with
  | true => exact h
  | false => cases value <;> first | exact h | cases h

/-- Actions whose fields are alike **are the same**, at either level. -/
theorem Action.decode_congr
    (alike : ∀ a ∈ Described.action.asked (fields.lookup "type"), a.Alike fields fields')
    (nested : Bool) : decode nested (.obj fields') = decode nested (.obj fields) := by
  have kind := Described.kind_eq alike
  rw [decode, decode, kind]
  cases held : fields.lookup "type" with
  | none => rfl
  | some value =>
    rw [Option.bind_some]
    cases understood : Kind.ofJson? nested value with
    | none => rfl
    | some kind =>
      have asked : ∀ a ∈ kind.asked, a.Alike fields fields' := fun a member =>
        alike a (by simp [Described.asked, held, Kind.ofJson?_inside understood, member])
      -- the actions of a repetition are a listing like the others, in which kinds may be numbers
      have body (fields : List (String × Json)) : decodeNamedBody fields
          = ((Asked.listing "actions" .action).given? fields).bind
              (Json.asListOf? (decode true)) := by
        have list (v : Json) : decodeBody v = Json.asListOf? (decode true) v := by
          cases v <;> simp [decodeBody, Json.asListOf?, Json.asItems?, decodeItems_eq_mapM]
        rw [← Parts.optional_listing fields 0, Parts.optional_named, decodeNamedBody_eq]
        cases fields.lookup "actions" with
        | none => rfl
        | some v => exact list v
      rw [Option.bind_eq_bind, Option.bind_some, Option.bind_some, body, body]
      have some_given : Option.some Json.null = some Json.null := rfl
      cases kind with
      | stop | unknown => rfl
      | wait =>
        have ms := (asked (.once "ms") (by simp [Kind.asked])).given?_eq rfl
        simp only [assemble, Parts.fits, Parts.required_once, ms]
      | serviceCall =>
        have service := (asked (.once "service") (by simp [Kind.asked])).given?_eq rfl
        have data := (asked (.defaulted "data" .null) (by simp [Kind.asked])).given?_eq rfl
        simp only [assemble, Parts.fits, Parts.required_once,
          Parts.optional_defaulted _ _ _ some_given, service, data]
      | repeatCount =>
        have count := (asked (.once "count") (by simp [Kind.asked])).given?_eq rfl
        have actions := (asked (.listing "actions" .action) (by simp [Kind.asked])).parts_eq rfl
          fun v v' agree => agree true
        simp only [assemble, Parts.fits, Parts.required_once, count, actions]

/-- Rules whose fields are alike **are the same**. -/
theorem Rule.ofJson?_congr
    (alike : ∀ a ∈ Rule.asked, a.Alike fields fields') :
    Rule.ofJson? (.obj fields') = Rule.ofJson? (.obj fields) := by
  have id := (alike (.once "id") (by simp [Rule.asked])).given?_eq rfl
  have mode := (alike (.defaulted "mode" (.str "single")) (by simp [Rule.asked])).given?_eq rfl
  have enabled := (alike (.defaulted "enabled" (.bool true)) (by simp [Rule.asked])).given?_eq rfl
  have triggers := (alike (.listing "triggers" .trigger) (by simp [Rule.asked])).parts_eq rfl
    fun v v' (agree : Trigger.ofJson? v' = Trigger.ofJson? v) => agree
  have conditions := (alike (.listing "conditions" .condition) (by simp [Rule.asked])).parts_eq rfl
    fun v v' (agree : Condition.ofJson? v' = Condition.ofJson? v) => agree
  -- actions agree at every level, and a rule has them at the top
  have action (v v' : Json) (agree : Described.action.Agree v v') :
      Action.ofJson? v' = Action.ofJson? v := agree false
  have actions := (alike (.listing "actions" .action) (by simp [Rule.asked])).parts_eq rfl action
  have single : Mode.ofJson? (.str "single") = some .single := rfl
  have on : Json.asBool? (.bool true) = some true := rfl
  simp only [ofJson?, Parts.ofPlain?, Option.bind_eq_bind, Option.bind_some, Parts.fits,
    Parts.required_once, Parts.optional_defaulted _ _ _ single, Parts.optional_defaulted _ _ _ on,
    Parts.optional_listing _ _ _ "triggers" .trigger,
    Parts.optional_listing _ _ _ "conditions" .condition,
    Parts.optional_listing _ _ _ "actions" .action, id, mode, enabled, triggers, conditions, actions]

/-- Objects that give **alike values for all that is asked** describe the same. -/
theorem Described.agree_of_alike (part : Described)
    (alike : ∀ a ∈ part.asked (fields.lookup "type"), a.Alike fields fields') :
    part.Agree (.obj fields) (.obj fields') := by
  cases part with
  | rule =>
    have id := (alike (.once "id") (by simp [Described.asked, Rule.asked])).given?_eq rfl
    rw [Asked.given?_once, Asked.given?_once] at id
    exact ⟨Rule.ofJson?_congr alike, id⟩
  | trigger => exact Trigger.ofJson?_congr alike
  | condition => exact Condition.ofJson?_congr alike
  | action => exact Action.decode_congr alike

end

/-! ## 4. Rewordings -/

/-- A field is given **under one of its names** only. -/
def Asked.GivenAs (a : Asked) (name : String) (value : Json) (fields : List (String × Json)) : Prop :=
  name ∈ a.names
    ∧ ∀ other ∈ a.names, fields.lookup other = if other = name then some value else none

/-- All fields but those of some names **are as they were**. -/
def KeepsApart (names : List String) (fields fields' : List (String × Json)) : Prop :=
  ∀ other, other ∉ names → fields'.lookup other = fields.lookup other

/-- A description **reworded** in one place. -/
inductive Rewording : Described → Json → Json → Prop
  /-- A field that is not asked for is put in, changed or taken out. -/
  | unasked {part : Described} {fields fields' : List (String × Json)} {name : String}
      (unasked : ∀ a ∈ part.asked (fields.lookup "type"), name ∉ a.names)
      (others : KeepsApart [name] fields fields') : Rewording part (.obj fields) (.obj fields')
  /-- A field is given under another of its names. -/
  | renamed {part : Described} {fields fields' : List (String × Json)} {a : Asked}
      {name name' : String} {value : Json} (asked : a ∈ part.asked (fields.lookup "type"))
      (given : a.GivenAs name value fields) (given' : a.GivenAs name' value fields')
      (others : KeepsApart a.names fields fields') : Rewording part (.obj fields) (.obj fields')
  /-- A field that was left out is given as what it stands for. -/
  | writtenOut {part : Described} {fields fields' : List (String × Json)} {a : Asked} {name : String}
      {value : Json} (asked : a ∈ part.asked (fields.lookup "type")) (default : a.missing = some value)
      (leftOut : ∀ other ∈ a.names, fields.lookup other = none)
      (given : a.GivenAs name value fields') (others : KeepsApart a.names fields fields') :
      Rewording part (.obj fields) (.obj fields')
  /-- A part that a field lists is reworded. -/
  | inside {part inner : Described} {fields fields' : List (String × Json)} {a : Asked} {name : String}
      {before after : List Json} {item item' : Json} (asked : a ∈ part.asked (fields.lookup "type"))
      (lists : a.lists = some inner) (given : a.GivenAs name (.arr (before ++ item :: after)) fields)
      (given' : a.GivenAs name (.arr (before ++ item' :: after)) fields')
      (others : KeepsApart a.names fields fields') (reworded : Rewording inner item item') :
      Rewording part (.obj fields) (.obj fields')

namespace Asked

variable {a : Asked} {fields fields' : List (String × Json)}

/-- What is given for a field depends on **its own names** only. -/
theorem given?_congr (same : ∀ name ∈ a.names, fields'.lookup name = fields.lookup name) :
    a.given? fields' = a.given? fields := by
  rw [given?, given?, List.filterMap_congr same]

/-- One of several names that are different is found **once**. -/
theorem filterMap_name {names : List String} {name : String} (member : name ∈ names)
    (apart : names.Nodup) (value : Json) :
    (names.filterMap fun other => if other = name then some value else none) = [value] := by
  induction names with
  | nil => cases member
  | cons first names ih =>
    obtain ⟨absent, apart⟩ := List.nodup_cons.mp apart
    by_cases here : first = name
    · subst here
      have no_more : (names.filterMap fun other => if other = first then some value else none) = [] :=
        List.filterMap_eq_nil_iff.mpr fun other later =>
          if_neg fun same : other = first => absent (same ▸ later)
      rw [List.filterMap_cons, if_pos rfl, no_more]
    · have later := (List.mem_cons.mp member).resolve_left (Ne.symm here)
      rw [List.filterMap_cons, if_neg here, ih later apart]

/-- A field under one of its names **is given**. -/
theorem GivenAs.given? {name : String} {value : Json} (h : a.GivenAs name value fields)
    (apart : a.names.Nodup) : a.given? fields = some value := by
  obtain ⟨member, held⟩ := h
  rw [Asked.given?, List.filterMap_congr held, filterMap_name member apart]

/-- A field that is left out gives **what stands for it**. -/
theorem given?_of_leftOut (leftOut : ∀ name ∈ a.names, fields.lookup name = none) :
    a.given? fields = a.missing := by
  rw [given?, List.filterMap_congr leftOut]
  simp

end Asked

/-- **No rewording changes what is described.** -/
theorem Rewording.agree {part : Described} {v v' : Json} (reworded : Rewording part v v') :
    part.Agree v v' := by
  -- a rewording of one field leaves all others as they are
  have rest {part : Described} {fields fields' : List (String × Json)} {a : Asked}
      (asked : a ∈ part.asked (fields.lookup "type")) (others : KeepsApart a.names fields fields')
      (here : a.Alike fields fields') : part.Agree (.obj fields) (.obj fields') := by
    refine part.agree_of_alike fun b member => ?_
    by_cases same : b = a
    · exact same ▸ here
    · -- no other field has a name in common with it
      have symm : Std.Symm fun a b : Asked => ∀ name ∈ a.names, name ∉ b.names :=
        ⟨fun _ _ apart name here there => apart name there here⟩
      have apart := (part.asked_apart _).2.forall member asked same
      exact .inl (Asked.given?_congr fun name member => others name (apart name member))
  induction reworded with
  | @unasked part fields fields' name unasked others =>
    refine part.agree_of_alike fun a asked => .inl (Asked.given?_congr fun other member => ?_)
    refine others other fun same => unasked a asked ?_
    rwa [← List.mem_singleton.mp same]
  | @renamed part fields fields' a name name' value asked given given' others =>
    have apart := (part.asked_apart _).1 a asked
    exact rest asked others (.inl ((given'.given? apart).trans (given.given? apart).symm))
  | @writtenOut part fields fields' a name value asked default leftOut given others =>
    have apart := (part.asked_apart _).1 a asked
    refine rest asked others (.inl ?_)
    rw [given.given? apart, Asked.given?_of_leftOut leftOut, default]
  | @inside part inner fields fields' a name before after item item' asked lists given given' others
      _ agree =>
    have apart := (part.asked_apart _).1 a asked
    exact rest asked others (.inr ⟨inner, before, item, item', after, lists, agree,
      given.given? apart, given'.given? apart⟩)

end RuleDispatch
