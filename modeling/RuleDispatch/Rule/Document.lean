import RuleDispatch.Json.Reader
import RuleDispatch.Rule.Decode

/-! # Rule documents

A document holds one rule or a list of rules. An entry that describes no rule is left out and
reported; it does not touch the other entries.

* `Batch` — the rules of a document and the entries left out.
* `Batch.ofEntries` — the entries of a document one by one.
* `Batch.read` — a document from its text. -/

namespace RuleDispatch

/-- An **entry left out**: its place, counted from zero, and its id if it has one. -/
structure Skipped where
  index : Nat
  id : Option String
deriving DecidableEq, Repr

/-- The id to report for an entry. -/
def Skipped.label (s : Skipped) : String :=
  s.id.getD "<no id>"

/-- The **rules of a document**, and the entries left out. -/
structure Batch where
  rules : List Rule := []
  skipped : List Skipped := []

namespace Batch

/-- The entries of a document: the items of a list, or the one value. -/
def entries : Json → List Json
  | .arr items => items
  | value => [value]

/-- The entries from a place on. -/
def ofEntriesFrom : Nat → List Json → Batch
  | _, [] => {}
  | index, entry :: rest =>
    let later := ofEntriesFrom (index + 1) rest
    match Rule.ofJson? entry with
    | some rule => { later with rules := rule :: later.rules }
    | none =>
      let id := (entry.field? "id").bind Json.asText?
      { later with skipped := ⟨index, id⟩ :: later.skipped }

/-- Entries **one by one**. -/
def ofEntries (items : List Json) : Batch :=
  ofEntriesFrom 0 items

/-- The rules are those that the entries describe, in order. -/
theorem rules_ofEntriesFrom (index : Nat) (items : List Json) :
    (ofEntriesFrom index items).rules = items.filterMap Rule.ofJson? := by
  induction items generalizing index with
  | nil => rfl
  | cons entry rest ih =>
    simp only [ofEntriesFrom, List.filterMap_cons]
    cases Rule.ofJson? entry <;> simp [ih]

/-- The wording for a text that is no document; the reason comes apart from it. -/
def invalidMessage : String :=
  "rule definitions are not valid JSON"

/-- The **rules of a document** from its text, or why the text is no document. -/
def read (text : String) : Except Json.Fault Batch :=
  (Json.read text).map fun value => ofEntries (entries value)

end Batch

end RuleDispatch
