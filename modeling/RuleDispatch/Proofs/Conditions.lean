import RuleDispatch.Proofs.Dispatch.Calls

/-! # Conditions looked at one by one

A rule fires when all of its conditions hold. Whether they do does not depend on the order in which they
stand. What is looked at to find out does: nothing is looked at after the first one that fails. That the two
belong together is said by a test that asks for one value at a time.

* `allHold_eq_true_iff`, `allHold_congr` — the verdict: each condition that is understood holds alone.
* `examined`, `readsOf_eq` — what is looked at: the entities of the conditions up to and with the first that
  fails. `allHold_of_agree`: nothing else matters.
* `Reader`, `askAll` — conditions tested by asking for values; `askAll_reader` for those of a store.
* `World.fire_tells_nobody` — a rule proposed for firing, whatever its conditions come to.
* `conditions_are_a_conjunction` — all of this of one list of conditions and one store. -/

namespace RuleDispatch

/-! ## 1. What is not a number -/

/-- Taken apart, what is not a number is **neither less nor more** than anything. -/
theorem Double.unpacked_lt_notANumber (u : Float.Model.UnpackedFloat) :
    u.lt .notANumber = false ∧ Float.Model.UnpackedFloat.notANumber.lt u = false := by
  cases u <;> exact ⟨rfl, rfl⟩

/-- What is not a number **is none when taken apart**, too. -/
theorem Double.unpack_of_isNaN {x : Float} (nan : x.isNaN = true) :
    x.toModel.unpack = .notANumber := by
  unfold Float.isNaN Float.Model.isNaN Float.Model.UnpackedFloat.isNaN at nan
  split at nan
  · assumption
  · cases nan

/-- Nothing is **less than what is not a number**, and that is less than nothing. -/
theorem Double.not_lt_of_isNaN {x y : Float} (nan : x.isNaN = true ∨ y.isNaN = true) : ¬ x < y := by
  intro less
  have compared : x.toModel.unpack.lt y.toModel.unpack = true := of_decide_eq_true less
  rcases nan with first | second
  · rw [unpack_of_isNaN first, (unpacked_lt_notANumber _).2] at compared
    cases compared
  · rw [unpack_of_isNaN second, (unpacked_lt_notANumber _).1] at compared
    cases compared

/-- **A bound is never met** by what is not a number. -/
theorem Bounds.contains_of_isNaN {b : Bounds} {x : Float} (nan : x.isNaN = true)
    (bounded : b.above.isSome = true ∨ b.below.isSome = true) : b.contains x = false := by
  refine Bool.eq_false_iff.mpr fun inside => ?_
  obtain ⟨above, below⟩ := contains_eq_true_iff.mp inside
  rcases bounded with given | given
  · obtain ⟨a, found⟩ := Option.isSome_iff_exists.mp given
    exact Double.not_lt_of_isNaN (.inr nan) (above a found)
  · obtain ⟨c, found⟩ := Option.isSome_iff_exists.mp given
    exact Double.not_lt_of_isNaN (.inl nan) (below c found)

/-! ## 2. The verdict -/

section Verdict

variable {r : Reading} {c : Condition} {cs ds : List Condition}

/-- All conditions hold if **each one that is understood** holds alone. -/
theorem allHold_eq_true_iff :
    allHold r cs = true ↔ ∀ c ∈ cs, c ≠ .unknown → allHold r [c] = true := by
  have alone (c : Condition) : allHold r [c] = c.holds r := Bool.and_true _
  rw [allHold, List.all_eq_true]
  refine forall₂_congr fun c _ => ?_
  rw [alone]
  refine ⟨fun holds _ => holds, fun holds => ?_⟩
  cases c with
  | unknown => rfl
  | stateEquals | numericCompare => exact holds nofun

/-- Lists with **the same conditions that are understood** have the same verdict, in whatever order and
however often these stand in them. -/
theorem allHold_congr (same : ∀ c, c ≠ .unknown → (c ∈ cs ↔ c ∈ ds)) : allHold r cs = allHold r ds := by
  rw [Bool.eq_iff_iff, allHold_eq_true_iff, allHold_eq_true_iff]
  refine forall_congr' fun c => ?_
  by_cases understood : c = .unknown
  · simp [understood]
  · rw [same c understood]

/-- The verdict on two lists, one after the other, is **the and** of both. -/
theorem allHold_append : allHold r (cs ++ ds) = (allHold r cs && allHold r ds) :=
  List.all_append

/-! ## 3. What is looked at -/

/-- The conditions that are **examined**: those that hold from the first on, and the one that fails after
them. -/
def examined (r : Reading) (cs : List Condition) : List Condition :=
  cs.takeWhile (Condition.holds r) ++ (cs.dropWhile (Condition.holds r)).head?.toList

/-- After a condition that holds the others are **examined as well**. -/
theorem examined_cons_of_holds (holds : c.holds r = true) :
    examined r (c :: cs) = c :: examined r cs := by
  simp [examined, holds]

/-- At a condition that fails the examination **ends**. -/
theorem examined_cons_of_fails (fails : c.holds r = false) : examined r (c :: cs) = [c] := by
  simp [examined, fails]

/-- What is looked at are **the entities of the conditions that are examined**, in order. -/
theorem readsOf_eq (r : Reading) (cs : List Condition) :
    readsOf r cs = (examined r cs).filterMap Condition.reads := by
  induction cs with
  | nil => rfl
  | cons c cs ih =>
    have first : [c].filterMap Condition.reads = c.reads.toList := by
      cases found : c.reads <;> simp [found]
    rw [readsOf]
    cases verdict : c.holds r with
    | true =>
      rw [if_pos rfl, ih, examined_cons_of_holds verdict, ← first, ← List.filterMap_append,
        List.singleton_append]
    | false => rw [if_neg Bool.false_ne_true, examined_cons_of_fails verdict, first, List.append_nil]

/-- Of two lists one after the other, the second is looked at **if all of the first hold**. -/
theorem readsOf_append :
    readsOf r (cs ++ ds) = readsOf r cs ++ if allHold r cs then readsOf r ds else [] := by
  induction cs with
  | nil => simp
  | cons c cs ih =>
    rw [List.cons_append, readsOf, readsOf, ih, allHold_cons]
    cases c.holds r <;> simp

/-- Two readings **agree on a source**. -/
def Reading.Agree (r r' : Reading) : Source → Prop
  | .number entity => r.number entity = r'.number entity
  | .text entity => r.text entity = r'.text entity

/-- A condition comes to the same where **its own value** is the same. -/
theorem Condition.holds_congr {r' : Reading} (agree : ∀ source ∈ c.reads, r.Agree r' source) :
    c.holds r = c.holds r' := by
  cases c with
  | unknown => rfl
  | stateEquals entity value =>
    have same : r.text entity = r'.text entity := agree _ rfl
    rw [holds_stateEquals, holds_stateEquals, same]
  | numericCompare entity bounds =>
    have same : r.number entity = r'.number entity := agree _ rfl
    rw [holds_numericCompare, holds_numericCompare, same]

/-- **Nothing else matters**: where the values that are looked at are the same, the verdict is the same, and
so is what is looked at. -/
theorem allHold_of_agree {r' : Reading} (agree : ∀ source ∈ readsOf r cs, r.Agree r' source) :
    allHold r' cs = allHold r cs ∧ readsOf r' cs = readsOf r cs := by
  induction cs with
  | nil => exact ⟨rfl, rfl⟩
  | cons c cs ih =>
    rw [readsOf] at agree
    have first : c.holds r = c.holds r' := Condition.holds_congr fun source here =>
      agree source (List.mem_append_left _ (Option.mem_toList.mpr here))
    rw [allHold_cons, allHold_cons, readsOf, readsOf, ← first]
    cases verdict : c.holds r with
    | false => exact ⟨rfl, rfl⟩
    | true =>
      rw [verdict, if_pos rfl] at agree
      obtain ⟨same, looks⟩ := ih fun source there => agree source (List.mem_append_right _ there)
      rw [same, if_pos rfl, if_pos rfl, looks]
      exact ⟨rfl, rfl⟩

end Verdict

/-! ## 4. Asking for one value at a time -/

/-- Whom **values are asked of**: the number or the text of an entity, and whatever comes of the asking. -/
structure Reader (m : Type → Type) where
  number : String → m Float
  text : String → m String

section Asking

variable {m : Type → Type} [Monad m] {α β : Type}

/-- A condition **tested by asking** for the value that it is about. -/
def Condition.ask (reader : Reader m) : Condition → m Bool
  | stateEquals entity value => do
    let text ← reader.text entity
    return text = value
  | numericCompare entity bounds => do
    let number ← reader.number entity
    return bounds.contains number
  | unknown => return true

/-- Conditions **tested in order**, until one fails. -/
def askAll (reader : Reader m) : List Condition → m Bool
  | [] => return true
  | c :: cs => do
    if ← c.ask reader then askAll reader cs else return false

/-- A **store that is asked**, with what it was asked for. -/
abbrev Inquiry (α β : Type) := StateM (List Source × Store α β)

/-- Values asked of a store: each is the one that was written last, and the asking is **kept in mind**. -/
def Store.reader : Reader (Inquiry α β) where
  number entity := fun (asked, s) => (s.number entity, asked ++ [.number entity], s)
  text entity := fun (asked, s) => (s.text entity, asked ++ [.text entity], s)

/-- A condition asks for **what it looks at**, and changes nothing. -/
theorem Condition.ask_reader (c : Condition) (asked : List Source) (s : Store α β) :
    (c.ask Store.reader).run (asked, s)
      = (c.holds s.reading, asked ++ c.reads.toList, s) := by
  cases c with
  | stateEquals | numericCompare => rfl
  | unknown => exact congrArg (fun sources => (true, sources, s)) (List.append_nil asked).symm

/-- Asked of a store, conditions **come to their verdict** and ask for what they look at, in order; the
store stays as it is. -/
theorem askAll_reader (cs : List Condition) (asked : List Source) (s : Store α β) :
    (askAll Store.reader cs).run (asked, s)
      = (allHold s.reading cs, asked ++ readsOf s.reading cs, s) := by
  induction cs generalizing asked with
  | nil => exact congrArg (fun sources => (true, sources, s)) (List.append_nil asked).symm
  | cons c cs ih =>
    have first := c.ask_reader asked s
    unfold askAll
    rw [StateT.run_bind, first]
    show StateT.run (if c.holds s.reading then askAll Store.reader cs else pure false) _ = _
    rw [allHold_cons, readsOf]
    cases c.holds s.reading with
    | true =>
      rw [if_pos rfl, if_pos rfl, Bool.true_and, ← List.append_assoc]
      exact ih (asked ++ c.reads.toList)
    | false =>
      rw [if_neg Bool.false_ne_true, if_neg Bool.false_ne_true, Bool.false_and, List.append_nil]
      rfl

end Asking

/-! ## 5. Firing -/

namespace World

/-- At most **notes were recorded** between one world and another, at one moment. -/
def OnlyNotes (w w' : World) : Prop :=
  w'.now = w.now ∧ ∃ notes : List Note, w'.log = notes.map (fun n => (w.now, .note n)) ++ w.log

/-- What neither moves the clock nor records anything **adds notes only**. -/
theorem onlyNotes_of_eq {w w' : World} (now : w'.now = w.now) (log : w'.log = w.log) : OnlyNotes w w' :=
  ⟨now, [], log⟩

/-- **A note** is only a note. -/
theorem onlyNotes_note (w : World) (n : Note) : OnlyNotes w (w.note n) :=
  ⟨rfl, [n], rfl⟩

/-- Notes after notes are **notes only**. -/
theorem OnlyNotes.trans {u v w : World} (first : OnlyNotes u v) (later : OnlyNotes v w) :
    OnlyNotes u w := by
  obtain ⟨now, notes, log⟩ := first
  obtain ⟨now', notes', log'⟩ := later
  refine ⟨now'.trans now, notes' ++ notes, ?_⟩
  rw [log', log, now, List.map_append, List.append_assoc]

/-- A run that has to give way leaves **a note**. -/
theorem onlyNotes_preempt (w : World) (rule : String) (run : Option Nat) :
    OnlyNotes w (w.preempt rule run) := by
  cases run with
  | none => exact onlyNotes_of_eq rfl rfl
  | some id =>
    refine (onlyNotes_note w (.runCancelled rule)).trans ?_
    unfold preempt cancelRun wake
    dsimp only
    split_ifs <;> exact onlyNotes_of_eq rfl rfl

/-- A rule **proposed for firing** has its conditions looked at. No value changes, nobody is told or is to be
told of anything, and all that is recorded are notes. -/
theorem fire_tells_nobody (w : World) (index : Nat) :
    (w.fire index).store = w.store ∧ (w.fire index).stack = w.stack ∧ OnlyNotes w (w.fire index) := by
  have stack : (w.fire index).ledger.stack = w.ledger.stack := by
    rw [ledger_fire_eq, Ledger.stack_fired]
  refine ⟨(fire_keeps w index).1, stack, ?_⟩
  unfold fire
  split
  · exact onlyNotes_of_eq rfl rfl
  · next r _ =>
    split_ifs
    · exact onlyNotes_of_eq rfl rfl
    · exact onlyNotes_note w _
    · exact onlyNotes_note w _
    · have preempted := onlyNotes_preempt w r.rule.id (r.slot.preempts r.rule.mode)
      have fired := preempted.trans (onlyNotes_note _ (.ruleFired r.rule.id))
      exact fired.trans (onlyNotes_of_eq rfl rfl)

end World

/-! ## 6. Both laws at once -/

/-- **Conditions are a conjunction that is looked at in order.** Their verdict is that each one that is
understood holds alone; so it does not change when they change places, when one of them is repeated or one
that is not understood is added anywhere, and of two lists one after the other it is the and of both, the
second being looked at if all of the first hold. When the store is asked for one value at a time, it is asked
for the entities of the conditions that are examined, in order, each in its own namespace; what was never
written reads as zero and as empty text, nothing else matters to the verdict, and the store stays as it is. A
condition with a bound does not hold of what is not a number. And when a rule is proposed for firing nobody
is told of anything. -/
theorem conditions_are_a_conjunction {α β : Type} (s : Store α β) (cs : List Condition) :
    (allHold s.reading cs = true ↔ ∀ c ∈ cs, c ≠ .unknown → allHold s.reading [c] = true)
      ∧ (∀ ds, ds.Perm cs → allHold s.reading ds = allHold s.reading cs)
      ∧ (∀ before after c, before ++ after = cs → c = .unknown ∨ c ∈ cs →
          allHold s.reading (before ++ c :: after) = allHold s.reading cs)
      ∧ (∀ ds, allHold s.reading (cs ++ ds) = (allHold s.reading cs && allHold s.reading ds)
          ∧ readsOf s.reading (cs ++ ds)
            = readsOf s.reading cs ++ if allHold s.reading cs then readsOf s.reading ds else [])
      ∧ readsOf s.reading cs = (examined s.reading cs).filterMap Condition.reads
      ∧ (∀ asked, (askAll Store.reader cs).run (asked, s)
          = (allHold s.reading cs, asked ++ readsOf s.reading cs, s))
      ∧ (∀ key, (s.number? key = none → s.reading.number key = 0)
          ∧ (s.text? key = none → s.reading.text key = ""))
      ∧ (∀ r, (∀ source ∈ readsOf s.reading cs, s.reading.Agree r source) →
          allHold r cs = allHold s.reading cs ∧ readsOf r cs = readsOf s.reading cs)
      ∧ (∀ entity bounds, (s.reading.number entity).isNaN = true →
          bounds.above.isSome = true ∨ bounds.below.isSome = true →
          (Condition.numericCompare entity bounds).holds s.reading = false)
      ∧ ∀ (w : World) (index : Nat),
          (w.fire index).store = w.store ∧ (w.fire index).stack = w.stack ∧ w.OnlyNotes (w.fire index) := by
  refine ⟨allHold_eq_true_iff, fun ds perm => ?_, ?_, fun ds => ⟨allHold_append, readsOf_append⟩,
    readsOf_eq _ _, fun asked => askAll_reader cs asked s,
    fun key => ⟨fun absent => ?_, fun absent => ?_⟩,
    fun r agree => allHold_of_agree agree, ?_, World.fire_tells_nobody⟩
  · exact allHold_congr fun c _ => perm.mem_iff
  · rintro before after c rfl known
    refine allHold_congr fun other understood => ?_
    -- the one that is added is there already, unless it does not count
    have added : other = c → other ∈ before ++ after := by
      rintro rfl
      exact known.resolve_left understood
    simp only [List.mem_append, List.mem_cons] at added ⊢
    exact ⟨fun there => there.elim .inl fun later => later.elim added .inr,
      fun there => there.imp id .inr⟩
  · show (s.number? key).getD 0 = 0
    rw [absent, Option.getD_none]
  · show (s.text? key).getD "" = ""
    rw [absent, Option.getD_none]
  · exact fun entity bounds nan bounded => Bounds.contains_of_isNaN nan bounded

/-- A store in which it is **night**, with a level that is not a number. -/
def nightStore : Store Unit Unit :=
  (Store.setText {} "mode" "night").setNumber "level" (0 / 0)

/-- Conditions of which the third fails at night, and one that nobody looks at. -/
def nightConditions : List Condition :=
  [.stateEquals "mode" "night", .unknown, .numericCompare "level" { above := some 1 },
    .stateEquals "weather" ""]

/-- At night the conditions fail in either order, and the weather is not looked at. -/
theorem conditions_are_a_conjunction_night :
    (nightStore.reading.number "level").isNaN = true
      ∧ (Condition.numericCompare "level" { above := some 1 }).holds nightStore.reading = false
      ∧ nightConditions.reverse.Perm nightConditions
      ∧ allHold nightStore.reading nightConditions.reverse = allHold nightStore.reading nightConditions
      ∧ (askAll Store.reader nightConditions).run ([], nightStore)
          = (false, [.text "mode", .number "level"], nightStore)
      ∧ nightStore.number? "humidity" = none ∧ nightStore.reading.number "humidity" = 0 := by
  obtain ⟨-, order, -, -, -, asked, absent, -, bounded, -⟩ :=
    conditions_are_a_conjunction nightStore nightConditions
  have nan : (nightStore.reading.number "level").isNaN = true := by decide
  have reversed : nightConditions.reverse.Perm nightConditions := List.reverse_perm _
  have fails := bounded "level" { above := some 1 } nan (.inl rfl)
  have dry : nightStore.number? "humidity" = none := by decide
  have verdict : allHold nightStore.reading nightConditions = false := by decide
  have looks : readsOf nightStore.reading nightConditions = [.text "mode", .number "level"] := by decide
  refine ⟨nan, fails, reversed, order _ reversed, ?_, dry, (absent "humidity").1 dry⟩
  rw [asked, verdict, looks, List.nil_append]

end RuleDispatch
