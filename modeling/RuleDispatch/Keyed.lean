/-! # Tables keyed by text

A list of pairs in which a key stands at most once, in the order in which keys were first put in.

* `Keyed.put`, `Keyed.remove` — a key set, a key taken out.
* `Keyed.lookup_put`, `Keyed.lookup_remove` — either changes the value of that key only.
* `Keyed.mem_of_lookup`, `Keyed.eq_or_mem_of_mem_put` — what stands in a table. -/

namespace RuleDispatch

/-- A **table keyed by text**. -/
abbrev Keyed (α : Type) := List (String × α)

namespace Keyed

variable {α : Type}

/-- The table with a key **set**: in its place if it is there, at the end if not. -/
def put (key : String) (value : α) : Keyed α → Keyed α
  | [] => [(key, value)]
  | (other, held) :: rest =>
    if key = other then (key, value) :: rest else (other, held) :: put key value rest

/-- The table **without a key**. -/
def remove (key : String) (table : Keyed α) : Keyed α :=
  table.filter fun entry => entry.1 ≠ key

/-- A key that was put has its value. -/
@[simp] theorem lookup_put_self (key : String) (value : α) (table : Keyed α) :
    (put key value table).lookup key = some value := by
  induction table with
  | nil => simp [put]
  | cons entry rest ih =>
    obtain ⟨other, held⟩ := entry
    by_cases h : key = other
    · simp [put, h]
    · have h' : (key == other) = false := by simpa using h
      simp [put, h, List.lookup_cons, h', ih]

/-- Other keys keep theirs. -/
theorem lookup_put_of_ne {key other : String} (h : other ≠ key) (value : α) (table : Keyed α) :
    (put key value table).lookup other = table.lookup other := by
  have ne : (other == key) = false := by simpa using h
  induction table with
  | nil => simp [put, List.lookup_cons, ne]
  | cons entry rest ih =>
    obtain ⟨name, held⟩ := entry
    by_cases h' : key = name
    · subst h'
      simp [put, List.lookup_cons, ne]
    · simp only [put, h', if_false, List.lookup_cons, ih]

/-- Putting a key changes **the value of that key only**. -/
theorem lookup_put (key other : String) (value : α) (table : Keyed α) :
    (put key value table).lookup other = if other = key then some value else table.lookup other := by
  split
  · next h => rw [h, lookup_put_self]
  · next h => exact lookup_put_of_ne h value table

/-- Taking a key out changes **the value of that key only**. -/
theorem lookup_remove (key other : String) (table : Keyed α) :
    (remove key table).lookup other = if other = key then none else table.lookup other := by
  induction table with
  | nil => simp [remove]
  | cons entry rest ih =>
    obtain ⟨name, held⟩ := entry
    by_cases h : name = key
    · subst h
      rw [show remove name ((name, held) :: rest) = remove name rest by simp [remove], ih]
      split
      · rfl
      · next ne => rw [List.lookup_cons, beq_false_of_ne ne]
    · rw [show remove key ((name, held) :: rest) = (name, held) :: remove key rest by
        simp [remove, h], List.lookup_cons, List.lookup_cons, ih]
      by_cases e : other = name
      · subst e
        simp [h]
      · simp [beq_false_of_ne e]

/-- What is **found under a key** stands in the table. -/
theorem mem_of_lookup {table : Keyed α} {key : String} {value : α}
    (h : table.lookup key = some value) : (key, value) ∈ table := by
  obtain ⟨before, after, rfl, -⟩ := List.lookup_eq_some_iff.mp h
  exact List.mem_append_right _ List.mem_cons_self

/-- What stands in a table after a key was put is **what was put**, or stood there before. -/
theorem eq_or_mem_of_mem_put {key : String} {value : α} {table : Keyed α} {entry : String × α}
    (h : entry ∈ put key value table) : entry = (key, value) ∨ entry ∈ table := by
  induction table with
  | nil => exact .inl (List.mem_singleton.mp h)
  | cons first rest ih =>
    obtain ⟨other, held⟩ := first
    unfold put at h
    split at h
    · exact (List.mem_cons.mp h).imp id (List.mem_cons_of_mem _)
    · rcases List.mem_cons.mp h with rfl | later
      · exact .inr List.mem_cons_self
      · exact (ih later).imp id (List.mem_cons_of_mem _)

/-- An entry that is left after a removal **was there before**. -/
theorem mem_of_mem_remove {table : Keyed α} {key : String} {entry : String × α}
    (h : entry ∈ remove key table) : entry ∈ table :=
  (List.mem_filter.mp h).1

/-- The table put together from pairs, later ones winning. -/
def ofPairs (pairs : List (String × α)) : Keyed α :=
  pairs.foldl (fun table pair => put pair.1 pair.2 table) []

end Keyed

end RuleDispatch
