import RuleDispatch.Proofs.Dispatch.Progress
import RuleDispatch.Proofs.Dispatch.Writes

/-! # What a listener reads

A listener is told what was written, and while it is told it may read the store. What it reads is what
was written last: the number that it is told of, unless a listener that was told before it has written
the entity once more in the meantime. A threshold that a number meets and a condition with the same bounds
look at these two numbers, one at the number told and the other at the number stored.

* `World.numbersWritten` — the numbers written to an entity in a history.
* `World.ReadsBack` — what a listener reads, and what a condition with the same bounds comes to.
* `listeners_read_last_write` — every call about a number, in every history.
* `listener_reads_another_number` — a listener that reads another number than it is told. -/

namespace RuleDispatch

namespace World

variable {exec : Executor} {w : World}

/-- The numbers **written to an entity** in a history, in order. -/
def numbersWritten (exec : Executor) (w : World) (moves : List Move) (key : String) : List Float :=
  (w.editsDone exec moves).filterMap (Edit.number? key)

/-- The number of an entity is **the one written last**, or the one that was there before. -/
theorem number?_after (exec : Executor) (w : World) (moves : List Move) (key : String) :
    (w.after exec moves).store.number? key
      = (w.numbersWritten exec moves key).getLast?.or (w.store.number? key) := by
  rw [(edited_after exec w moves).store]
  exact Store.foldl_edit_eq (fun s => s.number? key) (Edit.number? key) (Store.number?_edit key) _ _

/-- A number is there **as soon as it is written**. -/
theorem number?_step_of_notice (exec : Executor) {key : String} {value : Float}
    (tells : w.notice? = some (.number key value)) :
    (w.step exec).store.number? key = some value := by
  have written := (edited_step exec w).store
  rw [edits_of_notice tells] at written
  rw [written]
  exact Store.number?_setNumber_self w.store key value

/-! ## 1. What is read -/

/-- What a listener **reads back** while it is told of a number, when these numbers were written to the
entity since the number was. -/
structure ReadsBack (exec : Executor) (w : World) (key : String) (value : Float)
    (listener : NumberListener) (since : List Float) : Prop where
  /-- It reads the number that was written last. -/
  reads : w.store.number? key = some (since.getLastD value)
  /-- A callback that is called records both numbers. -/
  recorded : ∀ place c, listener = .callback place → w.callbacks[place]? = some c →
    (w.step exec).log
      = (w.now, .number c.label key value (some (since.getLastD value))) :: w.log
  /-- A condition with the bounds of a threshold that is met holds if the number written last lies
  inside as well. -/
  condition : ∀ rule entity bounds, listener = .threshold rule entity bounds →
    listener.rule? key value = some rule →
    (Condition.numericCompare entity bounds).holds w.store.reading
      = bounds.contains (since.getLastD value)
  /-- So the firing is not refused for it, unless a number outside was written in the meantime. -/
  accepted : ∀ rule entity bounds r, listener = .threshold rule entity bounds →
    listener.rule? key value = some rule → w.registrations[rule]? = some r →
    (∀ c ∈ r.rule.conditions, c = .numericCompare entity bounds) →
    (∀ written ∈ since, bounds.contains written = true) →
    ∀ id, (w.step exec).log ≠ (w.now, .note (.conditionsNotMet id)) :: w.log

/-- A rule whose conditions hold is **not refused for them**. -/
theorem log_fire_ne_of_allHold {index : Nat} {r : Registration}
    (registered : w.registrations[index]? = some r)
    (hold : allHold w.store.reading r.rule.conditions = true) (id : String) :
    (w.fire index).log ≠ (w.now, .note (.conditionsNotMet id)) :: w.log := by
  unfold fire
  rw [registered]
  dsimp only
  rw [hold, Bool.not_true, if_neg Bool.false_ne_true]
  split_ifs
  · exact (List.cons_ne_self _ _).symm
  · rintro ⟨⟩
  · intro same
    -- the last thing that is noted is that the rule fires
    injection same with noted
    cases (Prod.mk.inj noted).2

/-- A threshold **that is met** is met by a number of its entity inside its bounds. -/
theorem met_of_rule? {key entity : String} {value : Float} {rule index : Nat} {bounds : Bounds}
    (h : (NumberListener.threshold rule entity bounds).rule? key value = some index) :
    key = entity ∧ bounds.contains value = true := by
  dsimp only [NumberListener.rule?] at h
  split_ifs at h with met
  simpa only [Bool.and_eq_true, decide_eq_true_eq] using met

/-- Where **the number written last** can be read, everything else follows. -/
theorem readsBack_of_number? {key : String} {value : Float} {listener : NumberListener}
    {since : List Float} (told : w.hearing? = some (.number key value listener))
    (reads : w.store.number? key = some (since.getLastD value)) :
    ReadsBack exec w key value listener since := by
  obtain ⟨stack, taken⟩ := step_of_hearing? exec told
  -- a condition with the bounds of the threshold looks at the number that is read
  have looks {entity : String} {bounds : Bounds} (key_eq : key = entity) :
      (Condition.numericCompare entity bounds).holds w.store.reading
        = bounds.contains (since.getLastD value) := by
    have number : w.store.reading.number entity = since.getLastD value := by
      show (w.store.number? entity).getD 0 = _
      rw [← key_eq, reads, Option.getD_some]
    rw [Condition.holds_numericCompare, number]
  refine ⟨reads, ?_, ?_, ?_⟩
  · rintro place c rfl there
    have found : ({ w with stack } : World).callbacks[place]? = some c := there
    rw [taken]
    show (runCallback _ _ _).log = _
    unfold runCallback
    rw [found]
    show (_, Entry.number c.label key value (w.store.number? key)) :: w.log = _
    rw [reads]
  · rintro rule entity bounds rfl met
    exact looks (met_of_rule? met).1
  · rintro rule entity bounds r rfl met registered only inside id
    obtain ⟨key_eq, first⟩ := met_of_rule? met
    have last : bounds.contains (since.getLastD value) = true := by
      cases since with
      | nil => exact first
      | cons v rest =>
        rw [List.getLastD_eq_getLast?, List.getLast?_eq_some_getLast (List.cons_ne_nil v rest)]
        exact inside _ (List.getLast_mem _)
    have hold : allHold w.store.reading r.rule.conditions = true :=
      List.all_eq_true.mpr fun c member => by rw [only c member, looks key_eq, last]
    have fires : w.step exec = ({ w with stack } : World).fire rule := by
      rw [taken]
      show hearNumber { w with stack } key value (.threshold rule entity bounds) = _
      unfold hearNumber
      simp only [key_eq, first, decide_true, Bool.and_self, if_true]
    rw [fires]
    exact log_fire_ne_of_allHold (w := { w with stack }) registered hold id

end World

open World

/-- **A listener reads what was written last.** Whenever a listener is about to be told of a number, the
number was written on the way, and the call is the next one of the round that began then. What the
listener reads is this number, unless another one was written to the entity while the round went on: then
it is the last of these. The same goes for a rule that fires on a number inside the bounds of a threshold
and has a condition with the same bounds. -/
theorem listeners_read_last_write (exec : Executor) (wallClock : Timestamp) (moves : List Move)
    (w : World) (reached : w = (World.empty wallClock).after exec moves) (key : String) (value : Float)
    (listener : NumberListener) (told : w.hearing? = some (.number key value listener)) :
    ∃ past during, moves = past ++ .step :: during
      ∧ ((World.empty wallClock).after exec past).notice? = some (.number key value)
      ∧ ∃ begun, begun = ((World.empty wallClock).after exec past).step exec
        ∧ (∃ base calls, Round exec base begun calls
          ∧ begun.heard exec base.length during ++ [.number key value listener] <+: calls)
        ∧ w.ReadsBack exec key value listener (begun.numbersWritten exec during key) := by
  obtain ⟨frame, top, first⟩ := Option.bind_eq_some_iff.mp told
  obtain ⟨base, stack⟩ := List.head?_eq_some_iff.mp top
  obtain ⟨later, calls⟩ := List.head?_eq_some_iff.mp first
  have round : frame.isRound = true := by
    cases frame <;> first | rfl | cases calls
  have there : ((World.empty wallClock).after exec moves).stack = [] ++ frame :: base := reached ▸ stack
  obtain ⟨past, during, notice, progress⟩ :=
    exists_inProgress (fun _ member => by cases member) there round
  -- what the round tells is the number that the listener is told
  have member : Hearing.number key value listener
      ∈ notice.calls ((World.empty wallClock).after exec past).bus
        ((World.empty wallClock).after exec past).store := by
    rw [← progress.calls, calls]
    exact List.mem_append_right _ List.mem_cons_self
  obtain rfl : notice = .number key value := by
    cases notice with
    | event e =>
      obtain ⟨_, -, same⟩ := List.mem_map.mp member
      cases same
    | text k v =>
      obtain ⟨_, -, same⟩ := List.mem_map.mp member
      cases same
    | number k v =>
      obtain ⟨_, -, same⟩ := List.mem_map.mp member
      injection same with key_eq value_eq
      rw [key_eq, value_eq]
  refine ⟨past, during, progress.history, progress.given, _, rfl,
    ⟨base, _, progress.round, later, ?_⟩, readsBack_of_number? told ?_⟩
  · rw [List.append_assoc, List.singleton_append, ← calls]
    exact progress.calls
  · rw [reached, progress.after_eq, number?_after, number?_step_of_notice exec progress.given,
      List.getLastD_eq_getLast?]
    cases (World.numbersWritten exec _ during key).getLast? <;> rfl

/-- A listener that writes the lamp once more when it is told of it, and another listener. -/
def twoListeners : List Move :=
  Move.played (.operation (.listenNumber "first" ⟨[.setNumber "lamp" 2], 1⟩)) 1
    ++ Move.played (.operation (.listenNumber "second" ⟨[], 0⟩)) 1

/-- The second listener is told of the first number after the first listener wrote another one; this was
written since, and it is read. -/
theorem listeners_read_last_write_lamp :
    ∃ past during, twoListeners ++ Move.played (.operation (.setNumber "lamp" 1)) 8
        = past ++ .step :: during
      ∧ ((World.empty .first).after noEffects past).notice? = some (.number "lamp" 1)
      ∧ 2 ∈ (((World.empty .first).after noEffects past).step noEffects).numbersWritten noEffects during
        "lamp" := by
  obtain ⟨past, during, split, given, _, rfl, -, back⟩ := listeners_read_last_write noEffects .first
    (twoListeners ++ Move.played (.operation (.setNumber "lamp" 1)) 8) _ rfl "lamp" 1 (.callback 1)
    (by cbv)
  refine ⟨past, during, split, given, ?_⟩
  have stored : ((World.empty .first).after noEffects
      (twoListeners ++ Move.played (.operation (.setNumber "lamp" 1)) 8)).store.number? "lamp"
    = some 2 := by cbv
  have last := Option.some.inj (stored.symm.trans back.reads)
  generalize World.numbersWritten noEffects _ during "lamp" = since at last
  cases since with
  | nil => exact absurd last (by decide)
  | cons v rest =>
    rw [List.getLastD_eq_getLast?, List.getLast?_eq_some_getLast (List.cons_ne_nil v rest)] at last
    exact last ▸ List.getLast_mem _

/-- **A listener may read another number than it is told.** The first listener writes the entity once
more, so the second one is told of the first number when the second one is stored. -/
theorem listener_reads_another_number :
    ¬ ∀ (exec : Executor) (wallClock : Timestamp) (moves : List Move) (key : String) (value : Float)
        (listener : NumberListener),
      ((World.empty wallClock).after exec moves).hearing? = some (.number key value listener) →
      ((World.empty wallClock).after exec moves).store.number? key = some value := by
  intro reads
  have first := reads noEffects .first
    (twoListeners ++ Move.played (.operation (.setNumber "lamp" 1)) 8) "lamp" 1 (.callback 1) (by cbv)
  have stored : ((World.empty .first).after noEffects
      (twoListeners ++ Move.played (.operation (.setNumber "lamp" 1)) 8)).store.number? "lamp"
    = some 2 := by cbv
  rw [stored] at first
  exact absurd (Option.some.inj first) (by decide)

end RuleDispatch
