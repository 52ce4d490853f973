import RuleDispatch.Keyed
import RuleDispatch.Rule.Condition

/-! # The entity store

Entities have a number and a text, apart from each other: writing one leaves the other alone. Every
write is told to the listeners of its kind. Values are never taken out.

* `Store` — the values and the listeners, in the order in which they were added.
* `Store.setNumber`, `Store.setText` — a write; telling the listeners is up to the caller.
* `Store.reading` — what conditions see of the store.
* `Store.listenNumber`, `Store.listenText`, `Store.unlisten` — listeners added and taken out. -/

namespace RuleDispatch

/-- The **store**; `α` and `β` are what listens to numbers and to texts. -/
structure Store (α β : Type) where
  numbers : Keyed Float := []
  texts : Keyed String := []
  numberListeners : List (Nat × α) := []
  textListeners : List (Nat × β) := []
  nextId : Nat := 0

namespace Store

variable {α β : Type}

/-! ## 1. Values -/

/-- The number of an entity, if it was ever written. -/
def number? (s : Store α β) (key : String) : Option Float :=
  s.numbers.lookup key

/-- The text of an entity, if it was ever written. -/
def text? (s : Store α β) (key : String) : Option String :=
  s.texts.lookup key

/-- The number of an entity, zero when it was never written. -/
def number (s : Store α β) (key : String) : Float :=
  (s.number? key).getD 0

/-- The text of an entity, empty when it was never written. -/
def text (s : Store α β) (key : String) : String :=
  (s.text? key).getD ""

/-- **What conditions see** of the store. -/
def reading (s : Store α β) : Reading :=
  ⟨s.number, s.text⟩

/-- The store with a number **written**. -/
def setNumber (s : Store α β) (key : String) (value : Float) : Store α β :=
  { s with numbers := Keyed.put key value s.numbers }

/-- The store with a text **written**. -/
def setText (s : Store α β) (key value : String) : Store α β :=
  { s with texts := Keyed.put key value s.texts }

/-- A number that was written is read back. -/
@[simp] theorem number?_setNumber_self (s : Store α β) (key : String) (value : Float) :
    (s.setNumber key value).number? key = some value := by
  simp [number?, setNumber]

/-- A text that was written is read back. -/
@[simp] theorem text?_setText_self (s : Store α β) (key value : String) :
    (s.setText key value).text? key = some value := by
  simp [text?, setText]

/-- A write changes **the number of its entity only**. -/
theorem number?_setNumber (s : Store α β) (key other : String) (value : Float) :
    (s.setNumber key value).number? other = if other = key then some value else s.number? other :=
  Keyed.lookup_put key other value s.numbers

/-- A write changes **the text of its entity only**. -/
theorem text?_setText (s : Store α β) (key other value : String) :
    (s.setText key value).text? other = if other = key then some value else s.text? other :=
  Keyed.lookup_put key other value s.texts

/-- Writing a number leaves the texts alone. -/
@[simp] theorem text?_setNumber (s : Store α β) (key other : String) (value : Float) :
    (s.setNumber key value).text? other = s.text? other := rfl

/-- Writing a text leaves the numbers alone. -/
@[simp] theorem number?_setText (s : Store α β) (key value other : String) :
    (s.setText key value).number? other = s.number? other := rfl

/-! ## 2. Listeners -/

/-- The store with **one more listener to numbers**; its number is the `nextId` of before. -/
def listenNumber (s : Store α β) (listener : α) : Store α β :=
  { s with
    numberListeners := s.numberListeners ++ [(s.nextId, listener)]
    nextId := s.nextId + 1 }

/-- The store with **one more listener to texts**; its number is the `nextId` of before. -/
def listenText (s : Store α β) (listener : β) : Store α β :=
  { s with
    textListeners := s.textListeners ++ [(s.nextId, listener)]
    nextId := s.nextId + 1 }

/-- Whether a listener has this number. -/
def listens (s : Store α β) (id : Nat) : Bool :=
  s.numberListeners.any (·.1 = id) || s.textListeners.any (·.1 = id)

/-- The store **without a listener**. -/
def unlisten (s : Store α β) (id : Nat) : Store α β :=
  { s with
    numberListeners := s.numberListeners.filter (·.1 ≠ id)
    textListeners := s.textListeners.filter (·.1 ≠ id) }

/-- How many listeners there are, of both kinds. -/
def listenerCount (s : Store α β) : Nat :=
  s.numberListeners.length + s.textListeners.length

/-- The listeners to numbers, in order. -/
def hearNumbers (s : Store α β) : List α :=
  s.numberListeners.map (·.2)

/-- The listeners to texts, in order. -/
def hearTexts (s : Store α β) : List β :=
  s.textListeners.map (·.2)

/-- One more listener to numbers is **told last**. -/
@[simp] theorem hearNumbers_listenNumber (s : Store α β) (listener : α) :
    (s.listenNumber listener).hearNumbers = s.hearNumbers ++ [listener] := by
  simp [hearNumbers, listenNumber]

/-- One more listener to numbers **counts**. -/
@[simp] theorem listenerCount_listenNumber (s : Store α β) (listener : α) :
    (s.listenNumber listener).listenerCount = s.listenerCount + 1 := by
  simp only [listenerCount, listenNumber, List.length_append, List.length_singleton]
  omega

/-- One more listener to texts **counts**. -/
@[simp] theorem listenerCount_listenText (s : Store α β) (listener : β) :
    (s.listenText listener).listenerCount = s.listenerCount + 1 := by
  simp only [listenerCount, listenText, List.length_append, List.length_singleton]
  omega

/-- A listener taken out listens no more. -/
@[simp] theorem listens_unlisten_self (s : Store α β) (id : Nat) :
    (s.unlisten id).listens id = false := by
  simp [listens, unlisten]

/-- One more listener to texts is **told last**. -/
@[simp] theorem hearTexts_listenText (s : Store α β) (listener : β) :
    (s.listenText listener).hearTexts = s.hearTexts ++ [listener] := by
  simp [hearTexts, listenText]

end Store

end RuleDispatch
