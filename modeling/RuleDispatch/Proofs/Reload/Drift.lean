import Mathlib
import RuleDispatch.Proofs.Reload.Rules
import RuleDispatch.Rule.Agreement

/-! # Thresholds that drift

The writer prints the shortest digits that stand for a double; the reader takes them as a whole number
and a power of ten, each rounded, and multiplies or divides once. That is not always the double that
was printed. A reload changes a rule exactly if one of its doubles is such a one, and then only in
them: a strict bound may move by a last place.

* `reload_rereads_doubles` — what a reload does to the numbers of any rule.
* `threshold_drifts` — a threshold that moves. -/

namespace RuleDispatch

/-- **A reload reads each double on its own**: a rule comes back with its doubles read back from their
own digits and all else unchanged, so it comes back as it is exactly if each of them is printed
faithfully. Whole numbers never change. -/
theorem reload_rereads_doubles (r : Rule) (writable : r.Writable) (shallow : r.toJson.nesting ≤ 127) :
    (Batch.read r.toJson.text).toOption = r.reread?.map (fun r' => ⟨[r'], []⟩)
      ∧ (Batch.read r.toJson.text = .ok ⟨[r], []⟩ ↔ ∀ x ∈ r.reals, PrintedFaithfully x)
      ∧ ∀ n inRange, (Number.whole n inRange).reread? = some (.whole n inRange) := by
  have read := Batch.read_rule r (Nat.lt_succ_of_le shallow)
  refine ⟨read, ?_, fun n inRange => Json.reread?_whole inRange⟩
  rw [← Rule.reread?_eq_some_iff writable]
  constructor
  · intro same
    rw [same] at read
    obtain ⟨r', reread, batch⟩ := Option.map_eq_some_iff.mp read.symm
    obtain rfl : r' = r := List.head_eq_of_cons_eq (Batch.mk.inj batch).1
    exact reread
  · intro same
    rw [same] at read
    exact eq_ok_of_toOption read

/-- A **guard** on a level, and nothing else. -/
def guardRule (level : Float) : Rule where
  id := "guard"
  triggers := [.threshold "level" { above := some level }]

/-- The rule with this level **can be written down**, if the level is finite. -/
theorem writable_guardRule {level : Float} (finite : level.isFinite = true) :
    (guardRule level).Writable := by
  refine ⟨fun x member => ?_, fun data member => by cases member⟩
  obtain rfl : x = level := by
    simpa [Rule.ends, guardRule, Trigger.ends, Bounds.ends] using member
  exact finite

/-- The guard comes back **with the level that its digits are read back as**. -/
theorem reread?_guardRule {level level' : Float}
    (read : Bounds.rereadEnd? level = some (some level')) :
    (guardRule level).reread? = some (guardRule level') := by
  simp [Rule.reread?, guardRule, Trigger.reread?, Bounds.reread?, read]

/-- A guard on one half **comes back** as it is, as the reading of its digits says. -/
theorem reload_rereads_doubles_guard :
    (Batch.read (guardRule 0.5).toJson.text).toOption = some ⟨[guardRule 0.5], []⟩
      ∧ ∀ x ∈ (guardRule 0.5).reals, PrintedFaithfully x := by
  have reload := reload_rereads_doubles (guardRule 0.5) (writable_guardRule (by decide)) (by decide)
  have back : Bounds.rereadEnd? 0.5 = some (some 0.5) := by decide +kernel
  have read : (Batch.read (guardRule 0.5).toJson.text).toOption = some ⟨[guardRule 0.5], []⟩ := by
    rw [reload.1, reread?_guardRule back]
    rfl
  exact ⟨read, reload.2.1.mp (eq_ok_of_toOption read)⟩

/-- A threshold **drifts**: the guard comes back with the level before its own, and fires at a level
that it did not fire at. -/
theorem threshold_drifts :
    (guardRule 9.008424125380877).Writable
      ∧ (guardRule 9.008424125380877).toJson.nesting ≤ 127
      ∧ Batch.read (guardRule 9.008424125380877).toJson.text
        = .ok ⟨[guardRule 9.008424125380875], []⟩
      ∧ (guardRule 9.008424125380877).agrees (guardRule 9.008424125380875) = false
      ∧ Bounds.contains { above := some 9.008424125380877 } 9.008424125380877 = false
      ∧ Bounds.contains { above := some 9.008424125380875 } 9.008424125380877 = true := by
  have shallow : (guardRule 9.008424125380877).toJson.nesting ≤ 127 := by decide +kernel
  have drift : Bounds.rereadEnd? 9.008424125380877 = some (some 9.008424125380875) := by
    decide +kernel
  have read := Batch.read_rule (guardRule 9.008424125380877) (Nat.lt_succ_of_le shallow)
  rw [reread?_guardRule drift] at read
  exact ⟨writable_guardRule (by decide +kernel), shallow, eq_ok_of_toOption read, by decide +kernel,
    by decide +kernel, by decide +kernel⟩

end RuleDispatch
