/-! # The event bus

Handlers are subscribed under the name of an event. Every subscription has a number of its own and
is taken back by name and number. What hears an event is read off once, when it is emitted; later
changes are heard from the next emission on.

* `Bus` — the subscriptions in the order in which they were made.
* `Bus.subscribe`, `Bus.unsubscribe` — one made, one taken back.
* `Bus.handlers`, `Bus.count`, `Bus.channels` — views: who hears a name, how many, which names are
  heard at all. -/

namespace RuleDispatch

/-- One **subscription**: a handler under a name. -/
structure Subscriber (α : Type) where
  name : String
  id : Nat
  handler : α

/-- The **bus**: its subscriptions, oldest first, and the number of the next one. -/
structure Bus (α : Type) where
  subscribers : List (Subscriber α) := []
  nextId : Nat := 0

namespace Bus

variable {α : Type}

/-- The handlers **that hear a name**, in the order of their subscriptions. -/
def handlers (b : Bus α) (name : String) : List α :=
  (b.subscribers.filter (·.name = name)).map (·.handler)

/-- How many subscriptions a name has. -/
def count (b : Bus α) (name : String) : Nat :=
  (b.subscribers.filter (·.name = name)).length

/-- The names that are heard at all. -/
def channels (b : Bus α) : List String :=
  (b.subscribers.map (·.name)).eraseDups

/-- The bus with **one more subscription**; its number is the `nextId` of before. -/
def subscribe (b : Bus α) (name : String) (handler : α) : Bus α :=
  { subscribers := b.subscribers ++ [⟨name, b.nextId, handler⟩], nextId := b.nextId + 1 }

/-- Whether a subscription has this name and number. -/
def holds (b : Bus α) (name : String) (id : Nat) : Bool :=
  b.subscribers.any fun s => s.name = name && s.id = id

/-- The bus **without a subscription**; the name has to be right too. -/
def unsubscribe (b : Bus α) (name : String) (id : Nat) : Bus α :=
  { b with subscribers := b.subscribers.filter fun s => !(s.name = name && s.id = id) }

/-- A new subscription is heard last under its name. -/
@[simp] theorem handlers_subscribe_self (b : Bus α) (name : String) (handler : α) :
    (b.subscribe name handler).handlers name = b.handlers name ++ [handler] := by
  simp [handlers, subscribe, List.filter_append]

/-- Other names do not hear of it. -/
theorem handlers_subscribe_of_ne (b : Bus α) {name other : String} (h : other ≠ name) (handler : α) :
    (b.subscribe name handler).handlers other = b.handlers other := by
  simp [handlers, subscribe, List.filter_append, Ne.symm h]

/-- A name that a subscription is not taken back under hears as before. -/
theorem handlers_unsubscribe_of_ne (b : Bus α) {name other : String} (h : other ≠ name) (id : Nat) :
    (b.unsubscribe name id).handlers other = b.handlers other := by
  simp only [handlers, unsubscribe, List.filter_filter]
  congr 1
  refine List.filter_congr fun s _ => ?_
  by_cases hs : s.name = other
  · simp [hs, h]
  · simp [hs]

/-- A subscription taken back is there no more. -/
@[simp] theorem holds_unsubscribe_self (b : Bus α) (name : String) (id : Nat) :
    (b.unsubscribe name id).holds name id = false := by
  simp only [holds, unsubscribe, List.any_eq_false, List.mem_filter]
  intro s hs
  simpa only [Bool.not_eq_true, Bool.not_eq_eq_eq_not, Bool.not_true] using hs.2

/-- Taking back what is not there changes nothing. -/
theorem unsubscribe_of_not_holds (b : Bus α) {name : String} {id : Nat}
    (h : b.holds name id = false) : b.unsubscribe name id = b := by
  have keep : ∀ s ∈ b.subscribers, (!(s.name = name && s.id = id)) = true := by
    intro s hs
    rw [Bool.not_eq_eq_eq_not, Bool.not_true, Bool.eq_false_iff]
    exact List.any_eq_false.mp h s hs
  rw [unsubscribe, List.filter_eq_self.mpr keep]

/-- The count is that of the handlers. -/
theorem length_handlers (b : Bus α) (name : String) : (b.handlers name).length = b.count name := by
  simp [handlers, count]

end Bus

end RuleDispatch
