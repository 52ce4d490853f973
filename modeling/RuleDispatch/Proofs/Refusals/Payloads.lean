import RuleDispatch.Service
import RuleDispatch.Proofs.Dispatch.Rounds
import RuleDispatch.Proofs.Failures.Twins

/-! # Payloads that are refused

A call of one of the two built-in services is refused when its payload does not name an entity and give
it a value of the right kind. A call that is refused has no effects; one that is accepted gives one notice.
Actions are muted where a call that would be refused is replaced by an action that is not understood, at any
depth.

* `Service.Writes` — the payloads that are accepted, and what they write.
* `Service.Refuses`, `Service.exists_refuses_iff` — the calls that are refused.
* `Service.Refuses.reply`, `Service.Writes.exists_reply` — the replies.
* `Action.Muted`, `Block.Muted` — actions muted in some places.
* `Progress.NextMuted`, `Progress.nextMuted_next` — strides of a run with muted actions. -/

namespace RuleDispatch

namespace Service

variable {service : String} {data : Json}

/-! ## 1. What is accepted -/

/-- A payload is accepted and **writes something**: a number or a text, under the entity that it names. -/
inductive Writes : String → Json → Notice → Prop where
  /-- A number under its entity. -/
  | number {data : Json} {key : String} {n : Number} (entity : data.field? "entity" = some (.str key))
      (value : data.field? "value" = some (.num n)) :
      Writes "store.set_numeric" data (.number key n.toFloat)
  /-- A text under its entity. -/
  | text {data : Json} {key content : String} (entity : data.field? "entity" = some (.str key))
      (value : data.field? "value" = some (.str content)) :
      Writes "store.set_string" data (.text key content)

/-- An entity is read **exactly if its field is a text**. -/
theorem entity_eq_ok_iff {key : String} :
    entity data = .ok key ↔ data.field? "entity" = some (.str key) := by
  unfold entity
  cases field : data.field? "entity" with
  | none => simp
  | some v => cases v <;> simp [Json.asText?]

/-- A value is read **exactly if its field is of the kind wanted**. -/
theorem value_eq_ok_iff {α : Type} {wanted : String} {decode : Json → Option α} {a : α} :
    value data wanted decode = .ok a ↔ ∃ v, data.field? "value" = some v ∧ decode v = some a := by
  unfold value
  cases field : data.field? "value" with
  | none => simp
  | some v => cases decoded : decode v <;> simp [decoded]

/-- A value is a number **exactly if it is written as one**. -/
theorem asFloat?_eq_some_iff {v : Json} {x : Float} :
    v.asFloat? = some x ↔ ∃ n, v = .num n ∧ n.toFloat = x := by
  cases v <;> simp [Json.asFloat?]

/-- A value is a text **exactly if it is written as one**. -/
theorem asText?_eq_some_iff {v : Json} {content : String} :
    v.asText? = some content ↔ v = .str content := by
  cases v <;> simp [Json.asText?]

/-- What comes of a payload **once its parts are read**: it names an entity, and gives a value that is
understood. -/
theorem payload_eq_ok_iff {α : Type} {wanted : String} {decode : Json → Option α}
    {put : String → α → Operation} {written : Option Operation} :
    (do return some (put (← entity data) (← value data wanted decode))) = Except.ok written
      ↔ ∃ key v a, data.field? "entity" = some (.str key) ∧ data.field? "value" = some v
        ∧ decode v = some a ∧ some (put key a) = written := by
  constructor
  · intro accepted
    cases named : entity data with
    | error e =>
      rw [named] at accepted
      cases accepted
    | ok key =>
      cases given : value data wanted decode with
      | error e =>
        rw [named, given] at accepted
        cases accepted
      | ok a =>
        rw [named, given] at accepted
        obtain ⟨v, field, decoded⟩ := value_eq_ok_iff.mp given
        exact ⟨key, v, a, entity_eq_ok_iff.mp named, field, decoded, Except.ok.inj accepted⟩
  · rintro ⟨key, v, a, field, field', decoded, rfl⟩
    have named : entity data = .ok key := entity_eq_ok_iff.mpr field
    have given : value data wanted decode = .ok a := value_eq_ok_iff.mpr ⟨v, field', decoded⟩
    rw [named, given]
    rfl

/-- What a call of **one built-in service** writes. -/
theorem write?_numeric {written : Option Operation} : write? "store.set_numeric" data = .ok written
    ↔ ∃ key n, data.field? "entity" = some (.str key) ∧ data.field? "value" = some (.num n)
      ∧ some (.setNumber key n.toFloat) = written := by
  have read : write? "store.set_numeric" data
      = (do return some (.setNumber (← entity data) (← value data "number" Json.asFloat?))) := rfl
  rw [read, payload_eq_ok_iff]
  constructor
  · rintro ⟨key, _, _, named, given, decoded, same⟩
    obtain ⟨n, rfl, rfl⟩ := asFloat?_eq_some_iff.mp decoded
    exact ⟨key, n, named, given, same⟩
  · rintro ⟨key, n, named, given, same⟩
    exact ⟨key, .num n, n.toFloat, named, given, rfl, same⟩

/-- What a call of **the other built-in service** writes. -/
theorem write?_string {written : Option Operation} : write? "store.set_string" data = .ok written
    ↔ ∃ key content, data.field? "entity" = some (.str key)
      ∧ data.field? "value" = some (.str content) ∧ some (.setText key content) = written := by
  have read : write? "store.set_string" data
      = (do return some (.setText (← entity data) (← value data "string" Json.asText?))) := rfl
  rw [read, payload_eq_ok_iff]
  constructor
  · rintro ⟨key, _, content, named, given, decoded, same⟩
    obtain rfl := asText?_eq_some_iff.mp decoded
    exact ⟨key, content, named, given, same⟩
  · rintro ⟨key, content, named, given, same⟩
    exact ⟨key, .str content, content, named, given, rfl, same⟩

/-- **Every other service** writes nothing. -/
theorem write?_other (numeric : service ≠ "store.set_numeric") (string : service ≠ "store.set_string")
    (data : Json) : write? service data = .ok none := by
  unfold write?
  rw [if_neg numeric, if_neg string]
  rfl

/-- A built-in service **accepts a payload** exactly if there is something to write. -/
theorem exists_writes_iff (builtIn : service ∈ ["store.set_numeric", "store.set_string"]) :
    (∃ notice, Writes service data notice) ↔ ∃ written, write? service data = .ok written := by
  rw [List.mem_pair] at builtIn
  constructor
  · rintro ⟨_, ⟨named, given⟩ | ⟨named, given⟩⟩
    · exact ⟨_, write?_numeric.mpr ⟨_, _, named, given, rfl⟩⟩
    · exact ⟨_, write?_string.mpr ⟨_, _, named, given, rfl⟩⟩
  · rintro ⟨written, accepted⟩
    rcases builtIn with rfl | rfl
    · obtain ⟨key, n, named, given, -⟩ := write?_numeric.mp accepted
      exact ⟨_, .number named given⟩
    · obtain ⟨key, content, named, given, -⟩ := write?_string.mp accepted
      exact ⟨_, .text named given⟩

/-! ## 2. What is refused -/

/-- A call is **refused for a reason**. -/
def Refuses (service : String) (data : Json) (e : PayloadError) : Prop :=
  write? service data = .error e

/-- **A call is refused** exactly if the service is built in and does not accept the payload: it is no
object, it names no entity, or it gives no value of the kind that the service writes. -/
theorem exists_refuses_iff : (∃ e, Refuses service data e)
    ↔ service ∈ ["store.set_numeric", "store.set_string"] ∧ ∀ notice, ¬ Writes service data notice := by
  constructor
  · rintro ⟨e, refused⟩
    have builtIn : service ∈ ["store.set_numeric", "store.set_string"] := by
      by_contra other
      rw [List.mem_pair, not_or] at other
      rw [Refuses, write?_other other.1 other.2] at refused
      cases refused
    refine ⟨builtIn, fun notice writes => ?_⟩
    obtain ⟨written, accepted⟩ := (exists_writes_iff builtIn).mp ⟨notice, writes⟩
    rw [Refuses, accepted] at refused
    cases refused
  · rintro ⟨builtIn, nothing⟩
    cases read : write? service data with
    | error e => exact ⟨e, read⟩
    | ok written =>
      obtain ⟨notice, writes⟩ := (exists_writes_iff builtIn).mpr ⟨written, read⟩
      exact absurd writes (nothing notice)

/-- A call that is refused **does nothing** and fails. -/
theorem Refuses.reply {e : PayloadError} (refused : Refuses service data e) :
    reply service data = { result := .failed e.message } := by
  rw [Service.reply, show write? service data = .error e from refused]

/-- A call that is accepted **does one thing**: it gives its notice. -/
theorem Writes.exists_reply {notice : Notice} (writes : Writes service data notice) :
    ∃ op, reply service data = { effects := [.act op false] }
      ∧ ∀ w : World, w.perform op = (w.push [.respond .done]).tell notice := by
  cases writes with
  | @number _ key n named given =>
    refine ⟨.setNumber key n.toFloat, ?_, fun _ => rfl⟩
    rw [reply, write?_numeric.mpr ⟨key, n, named, given, rfl⟩]
  | @text _ key content named given =>
    refine ⟨.setText key content, ?_, fun _ => rfl⟩
    rw [reply, write?_string.mpr ⟨key, content, named, given, rfl⟩]

end Service

/-! ## 3. Muted actions -/

/-- An action **muted in some places**: there, calls that are refused are replaced by an action that is not
understood. -/
inductive Action.Muted : Action → Action → Prop where
  /-- An action is left as it is. -/
  | same (action : Action) : Muted action action
  /-- A call that is refused becomes an action that is not understood. -/
  | refused {service : String} {data : Json} {e : Service.PayloadError}
      (refuses : Service.Refuses service data e) : Muted (.serviceCall service data) .unknown
  /-- Actions that are repeated are muted one by one. -/
  | inside {count : UInt32} {actions muted : List Action} (each : List.Forall₂ Muted actions muted) :
      Muted (.repeatCount count actions) (.repeatCount count muted)

/-- A part of what is left to do, **muted in some places**. -/
inductive Block.Muted : Block → Block → Prop where
  | list {actions muted : List Action} (each : List.Forall₂ Action.Muted actions muted) :
      Muted (.list actions) (.list muted)
  | loop {count : Nat} {actions muted : List Action} (each : List.Forall₂ Action.Muted actions muted) :
      Muted (.loop count actions) (.loop count muted)

/-- Actions are **muted versions of themselves**. -/
theorem Action.muted_refl (actions : List Action) : List.Forall₂ Action.Muted actions actions :=
  List.forall₂_same.mpr fun action _ => .same action

/-- So is what is left to do. -/
theorem Block.muted_refl (blocks : List Block) : List.Forall₂ Block.Muted blocks blocks := by
  refine List.forall₂_same.mpr fun block _ => ?_
  cases block with
  | list actions => exact .list (Action.muted_refl actions)
  | loop count actions => exact .loop (Action.muted_refl actions)

/-! ## 4. Strides with muted actions -/

namespace Progress

/-- What a stride of a run is **with muted actions**: the same, or it passes over a call that is refused. -/
inductive NextMuted (stride : Demand × Progress) : Demand × Progress → Prop where
  /-- The stride asks for the same. -/
  | same {muted : List Block} (agenda : List.Forall₂ Block.Muted stride.2.agenda muted) :
      NextMuted stride (stride.1, ⟨muted, stride.2.summary⟩)
  /-- It passes over a call that is refused, which the other counts. -/
  | passes {service : String} {data : Json} {e : Service.PayloadError} {summary : Summary}
      {muted : List Block} (refuses : Service.Refuses service data e)
      (demand : stride.1 = .call service data) (counts : stride.2.summary = summary.counted)
      (agenda : List.Forall₂ Block.Muted stride.2.agenda muted) :
      NextMuted stride (.nothing, ⟨muted, summary⟩)

/-- **One action**, muted or not. -/
theorem nextMuted_act {agenda muted : List Block} (left : List.Forall₂ Block.Muted agenda muted)
    (s : Summary) {action action' : Action} (h : action.Muted action') :
    NextMuted (act agenda s action) (act muted s action') := by
  cases h with
  | same => cases action with
    | serviceCall | wait | stop | unknown => exact .same left
    | repeatCount count actions => exact .same (.cons (.loop (Action.muted_refl actions)) left)
  | refused refuses => exact .passes refuses rfl rfl left
  | inside each => exact .same (.cons (.loop each) left)

/-- **A stride** with muted actions. -/
theorem nextMuted_next {agenda muted : List Block} (left : List.Forall₂ Block.Muted agenda muted)
    (s : Summary) (cancelled : Bool) :
    NextMuted (next ⟨agenda, s⟩ cancelled) (next ⟨muted, s⟩ cancelled) := by
  cases left with
  | nil => exact .same .nil
  | cons first rest =>
    cases first with
    | @list actions _ each =>
      cases each with
      | nil => exact .same rest
      | cons action later =>
        unfold next
        dsimp only
        split_ifs
        · exact .same rest
        · exact nextMuted_act (.cons (.list later) rest) _ action
    | @loop count _ _ each =>
      cases count with
      | zero => exact .same rest
      | succ count => exact .same (.cons (.list each) (.cons (.loop each) rest))

end Progress

end RuleDispatch
