import RuleDispatch.Proofs.Slots.Moves

/-! # Which rules the engine lists

The engine lists rules by their ids, and a registration knows whether it was disposed of. The two
agree: what is listed under an id is the one rule with this id that is not disposed of. So a rule
that is taken off the list never fires again, in whatever way that came about.

* `World.Listed` — the list and the registrations agree.
* `World.Listed.moved` — every move keeps them so.
* `Operation.Disposes` — the operations that dispose of the rule with some id.
* `World.Listed.disposed_perform` — what they dispose of. -/

namespace RuleDispatch

namespace World

variable {w w' : World} {id : String}

/-- The engine **lists** under each id the rule that has this id and is not disposed of. -/
def Listed (w : World) : Prop :=
  ∀ id index, w.ruleIndex? id = some index
    ↔ ∃ r, w.held? index = some r ∧ r.rule.id = id ∧ r.disposed = false

/-- In a world in which nothing happened yet there is nothing to list. -/
theorem listed_empty (wallClock : Timestamp) : Listed (empty wallClock) := by
  intro id index
  constructor
  · intro found
    cases found
  · rintro ⟨r, found, -⟩
    cases found

/-! ## 1. Chores -/

/-- What leaves the engine alone, and of every registration the rule and whether it is disposed of,
**leaves the list right**. -/
theorem Listed.congr (h : Listed w) (engine : w'.engine = w.engine)
    (same : ∀ index, (w'.held? index).map (fun r => (r.rule, r.disposed))
      = (w.held? index).map fun r => (r.rule, r.disposed)) : Listed w' := by
  intro id index
  have found : w'.ruleIndex? id = w.ruleIndex? id := by rw [ruleIndex?, engine, ruleIndex?]
  rw [found, h id index]
  have same := same index
  constructor
  · rintro ⟨r, there, rfl, live⟩
    rw [there] at same
    obtain ⟨r', there', face⟩ := Option.map_eq_some_iff.mp same
    obtain ⟨rule, disposed⟩ := Prod.mk.inj face
    exact ⟨r', there', by rw [rule], disposed.trans live⟩
  · rintro ⟨r', there', rfl, live⟩
    rw [there'] at same
    obtain ⟨r, there, face⟩ := Option.map_eq_some_iff.mp same.symm
    obtain ⟨rule, disposed⟩ := Prod.mk.inj face
    exact ⟨r, there, by rw [rule], disposed.trans live⟩

/-- The same ledger lists the same rules. -/
theorem Listed.of_ledger (h : Listed w) (engine : w'.engine = w.engine)
    (entries : w'.ledger.entries = w.ledger.entries) : Listed w' :=
  h.congr engine fun index => by rw [held?_eq, held?_eq, entries]

/-- What is listed after a rule was **taken out**: all others. -/
theorem ruleIndex?_unregister_eq (found : (w.ruleIndex? id).isSome = true) (other : String) :
    (w.unregister id).ruleIndex? other = if other = id then none else w.ruleIndex? other := by
  obtain ⟨place, found⟩ := Option.isSome_iff_exists.mp found
  have same := ledger_unregister w id
  rw [found] at same
  have engine : (w.unregister id).engine = w.engine.map (Keyed.remove id) :=
    congrArg Ledger.engine same
  rw [ruleIndex?, engine, ruleIndex?]
  cases w.engine with
  | none => simp
  | some rules => exact Keyed.lookup_remove id other rules

/-- A rule **taken out** is listed no more, and disposed of. -/
theorem Listed.unregister (h : Listed w) (id : String) : Listed (w.unregister id) := by
  have same := ledger_unregister w id
  cases found : w.ruleIndex? id with
  | none =>
    rw [found] at same
    exact h.of_ledger (congrArg Ledger.engine same) (congrArg Ledger.entries same)
  | some place =>
    rw [found] at same
    have entry := held?_of_modify (congrArg Ledger.entries same)
    -- only the place of the rule is disposed of, and it is the only place with this id
    have alone (r : Registration) (index : Nat) :
        (w.unregister id).held? index = some r ∧ r.disposed = false
          ↔ w.held? index = some r ∧ r.disposed = false ∧ r.rule.id ≠ id := by
      rw [entry]
      by_cases here : place = index
      · rw [if_pos here]
        constructor
        · rintro ⟨there, live⟩
          obtain ⟨_, -, rfl⟩ := Option.map_eq_some_iff.mp there
          cases live
        · rintro ⟨there, live, ne⟩
          obtain ⟨held, there', known, -⟩ := (h id place).mp found
          rw [here, there] at there'
          exact absurd (Option.some.inj there' ▸ known) ne
      · rw [if_neg here]
        refine ⟨fun ⟨there, live⟩ => ⟨there, live, ?_⟩, fun ⟨there, live, _⟩ => ⟨there, live⟩⟩
        intro named
        have listed := (h id index).mpr ⟨r, there, named, live⟩
        rw [found] at listed
        exact here (Option.some.inj listed)
    intro other index
    rw [ruleIndex?_unregister_eq (by rw [found]; rfl)]
    constructor
    · intro listed
      split_ifs at listed with ne
      obtain ⟨r, there, rfl, live⟩ := (h other index).mp listed
      obtain ⟨there, live⟩ := (alone r index).mpr ⟨there, live, ne⟩
      exact ⟨r, there, rfl, live⟩
    · rintro ⟨r, there, rfl, live⟩
      obtain ⟨there, live, ne⟩ := (alone r index).mp ⟨there, live⟩
      rw [if_neg ne]
      exact (h r.rule.id index).mpr ⟨r, there, rfl, live⟩

/-- What is listed after a rule was **put in**: this rule and all others. -/
theorem ruleIndex?_enrol (there : w.engine.isSome = true) (rule : Rule) (other : String) :
    (w.enrol rule).ruleIndex? other
      = if other = rule.id then some w.registrations.length else w.ruleIndex? other := by
  have engine : (w.enrol rule).engine = w.engine.map (Keyed.put rule.id w.registrations.length) :=
    congrArg Ledger.engine (ledger_enrol w rule)
  obtain ⟨rules, listed⟩ := Option.isSome_iff_exists.mp there
  rw [ruleIndex?, engine, ruleIndex?, listed]
  exact Keyed.lookup_put rule.id other _ rules

/-- A rule put in takes **the next place**. -/
theorem held?_enrol (w : World) (rule : Rule) (index : Nat) :
    (w.enrol rule).held? index
      = if index = w.registrations.length then some { rule } else w.held? index := by
  have entries : (w.enrol rule).ledger.entries = w.ledger.entries ++ [({ rule } : Registration)] :=
    congrArg Ledger.entries (ledger_enrol w rule)
  have length : w.ledger.entries.length = w.registrations.length := by simp [ledger]
  rw [held?_eq, entries, held?_eq]
  split_ifs with new
  · rw [new, ← length, List.getElem?_concat_length]
  · rcases Nat.lt_or_gt_of_ne new with before | beyond
    · exact List.getElem?_append_left (length ▸ before)
    · rw [List.getElem?_eq_none (by rw [List.length_append, length]; exact beyond),
        List.getElem?_eq_none (by rw [length]; exact Nat.le_of_lt beyond)]

/-- A rule **put in** under a free id is listed under it. -/
theorem Listed.enrol (h : Listed w) {rule : Rule} (free : w.ruleIndex? rule.id = none)
    (there : w.engine.isSome = true) : Listed (w.enrol rule) := by
  intro other index
  rw [ruleIndex?_enrol there, held?_enrol]
  -- the next place is listed under the id of the rule, all others as before
  by_cases new : index = w.registrations.length
  · rw [if_pos new]
    constructor
    · intro found
      split_ifs at found with own
      · exact ⟨{ rule }, rfl, own.symm, rfl⟩
      · obtain ⟨r, present, -⟩ := (h other index).mp found
        have := (isSome_held?_iff w index).mp (by rw [present]; rfl)
        omega
    · rintro ⟨r, found, named, -⟩
      obtain rfl := Option.some.inj found
      rw [if_pos named.symm, new]
  · rw [if_neg new, ← h other index]
    split_ifs with own
    · rw [own, free]
      refine ⟨fun found => ?_, by rintro ⟨⟩⟩
      exact absurd (Option.some.inj found).symm new
    · exact Iff.rfl

/-- When **all that were listed are disposed of**, nothing is to be listed. -/
theorem Listed.of_markAll (h : Listed w) (none : ∀ id, w'.ruleIndex? id = none)
    (marked : w'.ledger.entries = markAll w.ledger.entries (w.engine.getD [])) : Listed w' := by
  intro id index
  rw [none]
  refine ⟨by rintro ⟨⟩, ?_⟩
  rintro ⟨r, found, rfl, live⟩
  rw [held?_eq, marked, getElem?_markAll, ← held?_eq] at found
  split_ifs at found with member
  · -- whatever was listed is disposed of
    rw [Option.map_eq_some_iff] at found
    obtain ⟨_, -, rfl⟩ := found
    cases live
  · -- whatever is live was listed
    have listed := (h r.rule.id index).mpr ⟨r, found, rfl, live⟩
    obtain ⟨rules, there, lookup⟩ := Option.bind_eq_some_iff.mp listed
    obtain ⟨before, after, split, -⟩ := List.lookup_eq_some_iff.mp lookup
    refine absurd ?_ member
    rw [there, Option.getD_some, split]
    simp

/-- Nothing is listed after all rules were taken out. -/
theorem ruleIndex?_disposeAll (w : World) (id : String) : w.disposeAll.ruleIndex? id = none := by
  have engine : w.disposeAll.engine = w.engine.map fun _ => [] :=
    congrArg Ledger.engine (ledger_disposeAll w)
  rw [ruleIndex?, engine]
  cases w.engine <;> rfl

/-- Nothing is listed without an engine. -/
theorem ruleIndex?_dropEngine (w : World) (id : String) : w.dropEngine.ruleIndex? id = none := by
  have engine : w.dropEngine.engine = none := congrArg Ledger.engine (ledger_dropEngine w)
  rw [ruleIndex?, engine]
  rfl

/-- **Chores** keep the list right. -/
theorem Listed.chore (h : Listed w) (chore : Chore w w') : Listed w' := by
  cases chore with
  | quiet frames plain same =>
    exact h.of_ledger (congrArg Ledger.engine same) (by rw [same])
  | spawn label actions cancelled => exact h.of_ledger rfl rfl
  | @cancel run outside =>
    have same := ledger_cancelRun w run
    exact h.of_ledger (congrArg Ledger.engine same) (by rw [same])
  | unregister id => exact h.unregister id
  | enrol enabled free there => exact h.enrol free there
  | disposeAll =>
    exact h.of_markAll (ruleIndex?_disposeAll w) (congrArg Ledger.entries (ledger_disposeAll w))
  | dropEngine =>
    exact h.of_markAll (ruleIndex?_dropEngine w) (congrArg Ledger.entries (ledger_dropEngine w))

/-- **Chores** leave the rules listed. -/
theorem Listed.chores (h : Listed w) (chores : Chores w w') : Listed w' := by
  induction chores with
  | refl => exact h
  | tail _ last ih => exact ih.chore last

/-! ## 2. Moves -/

/-- **Firing a rule** takes none off the list. -/
theorem Listed.fire (h : Listed w) (index : Nat) : Listed (w.fire index) := by
  cases registered : w.registrations[index]? with
  | none =>
    have still : w.fire index = w := by rw [World.fire, registered]
    rw [still]
    exact h
  | some r =>
    have ledger := ledger_fire w registered
    split_ifs at ledger with takes
    · rw [ledger_startRun] at ledger
      refine h.congr (congrArg Ledger.engine ledger) fun place => ?_
      rw [held?_of_modify (congrArg Ledger.entries ledger)]
      split_ifs
      · rw [Option.map_map]
        rfl
      · rfl
    · exact h.of_ledger (congrArg Ledger.engine ledger) (congrArg Ledger.entries ledger)

/-- **Every move** keeps the list right. -/
theorem Listed.moved (h : Listed w) {firing : Option Nat} {ended : Option Run}
    (kind : MoveKind w w' firing ended) : Listed w' := by
  cases kind with
  | @acts u _ same registrations store done =>
    have first : Listed u := h.of_ledger (congrArg Ledger.engine same) (by rw [same])
    cases done with
    | chores done => exact first.chores done
    | @fires v index frames plain same' registrations' store' done =>
      have second : Listed v := first.of_ledger (congrArg Ledger.engine same') (by rw [same'])
      exact (second.fire index).of_ledger (congrArg Ledger.engine done)
        (congrArg Ledger.entries done)
  | refits done => exact h.of_ledger done.engine done.entries
  | @ends r member done =>
    refine h.congr done.engine fun place => ?_
    rw [done.held?]
    split
    · rw [Option.map_map]
      rfl
    · rfl

/-- So does every history. -/
theorem Listed.after (h : Listed w) (exec : Executor) (moves : List Move) :
    Listed (w.after exec moves) := by
  induction moves generalizing w with
  | nil => exact h
  | cons m moves ih => exact ih (h.moved (moveKind exec w m))

end World

/-! ## 3. Operations that dispose of rules -/

/-- The operations that **dispose of the rule** that is listed under an id: it is taken out, another
one is put in under its id, enabled or not, or everything is taken out. -/
def Operation.Disposes (id : String) : Operation → Prop
  | .unregister other => other = id
  | .register (some rule) => rule.id = id
  | .load document => ∃ batch, Batch.read document = .ok batch ∧ ∃ rule ∈ batch.rules, rule.id = id
  | .disposeAll | .dropEngine => True
  | _ => False

namespace World

variable {w w' : World} {id : String} {index : Nat}

/-- The rule in a place is **disposed of**. -/
def Disposed (w : World) (index : Nat) : Prop :=
  ∃ r, w.held? index = some r ∧ r.disposed = true

/-- It stays disposed of. -/
theorem Disposed.grows (h : Disposed w index) (grows : Grows w w') : Disposed w' index := by
  obtain ⟨r, found, disposed⟩ := h
  obtain ⟨r', found', -, still⟩ := grows index r found
  exact ⟨r', found', still disposed⟩

/-- What is not listed any more, and is there, is disposed of. -/
theorem Listed.disposed (h : Listed w') (grows : Grows w w') (listed : Listed w)
    (found : w.ruleIndex? id = some index) (gone : w'.ruleIndex? id ≠ some index) :
    Disposed w' index := by
  obtain ⟨r, there, named, -⟩ := (listed id index).mp found
  obtain ⟨r', there', rule, -⟩ := grows index r there
  refine ⟨r', there', ?_⟩
  by_contra live
  exact gone ((h id index).mpr ⟨r', there', by rw [rule, named], by simpa using live⟩)

/-- Whether a rule is disposed of stands in the ledger. -/
theorem Disposed.of_ledger (h : Disposed w index) (same : w'.ledger.entries = w.ledger.entries) :
    Disposed w' index := by
  obtain ⟨r, found, disposed⟩ := h
  exact ⟨r, by rw [held?_eq, same, ← held?_eq, found], disposed⟩

/-- Putting a rule in leaves the others in their places. -/
theorem grows_enrol (w : World) (rule : Rule) : Grows w (w.enrol rule) := by
  intro index r found
  have before : index < w.registrations.length :=
    (isSome_held?_iff w index).mp (by rw [found]; rfl)
  exact ⟨r, by rw [held?_enrol, if_neg (Nat.ne_of_lt before), found], rfl, id⟩

/-- Taking a rule out **disposes of it**. -/
theorem Listed.disposed_unregister (listed : Listed w) (numbered : Numbered w)
    (found : w.ruleIndex? id = some index) : Disposed (w.unregister id) index := by
  refine (listed.unregister id).disposed (steady_chore numbered (.unregister w id)).grows listed
    found ?_
  rw [ruleIndex?_unregister]
  intro h; cases h

/-- Registering a rule **disposes of the one** that was listed under its id. -/
theorem Listed.disposed_register (listed : Listed w) (numbered : Numbered w) (rule : Rule)
    (found : w.ruleIndex? rule.id = some index) : Disposed (w.register rule) index := by
  obtain ⟨noted, same, registered⟩ := exists_register w rule
  have first : Disposed noted index :=
    (listed.disposed_unregister numbered found).of_ledger (congrArg Ledger.entries same)
  rw [registered]
  split_ifs
  · exact first.grows (grows_enrol noted rule)
  · exact first.of_ledger rfl

/-- So does registering it among others. -/
theorem Listed.disposed_registerAll (listed : Listed w) (numbered : Numbered w) {rules : List Rule}
    {rule : Rule} (member : rule ∈ rules) (found : w.ruleIndex? rule.id = some index) :
    Disposed (w.registerAll rules) index := by
  induction rules generalizing w with
  | nil => cases member
  | cons first rest ih =>
    have there : w.engine.isSome = true := isSome_engine_of_ruleIndex? found
    have chores := chores_register w first there
    have steady := steady_chores numbered chores
    have listed' := listed.chores chores
    have engine : (w.register first).engine.isSome = true := by
      rw [isSome_engine_register, there]
    show Disposed ((w.register first).registerAll rest) index
    by_cases still : (w.register first).ruleIndex? rule.id = some index
    · -- it was not the first one, then
      rcases List.mem_cons.mp member with rfl | later
      · obtain ⟨r, held, disposed⟩ := listed.disposed_register numbered rule found
        obtain ⟨r', held', -, live⟩ := (listed' rule.id index).mp still
        rw [held] at held'
        obtain rfl := Option.some.inj held'
        rw [disposed] at live
        cases live
      · exact ih listed' steady.numbered later still
    · have disposed := listed'.disposed steady.grows listed found still
      exact disposed.grows (steady_chores steady.numbered (chores_registerAll _ rest engine)).grows

/-- **What disposes of the rule** with some id disposes of the one that is listed under it. -/
theorem Listed.disposed_perform (listed : Listed w) (numbered : Numbered w) {op : Operation}
    (disposes : op.Disposes id) (found : w.ruleIndex? id = some index) :
    Disposed (w.perform op) index := by
  have there : w.engine.isSome = true := isSome_engine_of_ruleIndex? found
  -- after a step that empties the list, the rule is no longer listed, so it was disposed of
  have emptied {w' : World} (gone : Chore w w') (none : w'.ruleIndex? id = none) :
      Disposed w' index := by
    refine (listed.chore gone).disposed (steady_chore numbered gone).grows listed found ?_
    rw [none]
    intro h; cases h
  cases op <;> try exact disposes.elim
  case unregister other =>
    obtain rfl : other = id := disposes
    simp only [perform, withEngine, there, if_true]
    exact (listed.disposed_unregister numbered found).of_ledger rfl
  case register rule =>
    cases rule with
    | none => exact disposes.elim
    | some rule =>
      obtain rfl : rule.id = id := disposes
      simp only [perform, withEngine, there, if_true]
      exact (listed.disposed_register numbered rule found).of_ledger rfl
  case load document =>
    obtain ⟨batch, read, rule, member, rfl⟩ := disposes
    simp only [perform, withEngine, there, if_true, load, read]
    -- what is skipped is recorded first, which changes neither rules nor their list
    let told := batch.skipped.foldl (fun w s => w.record (.skipped s)) w
    have same : told.ledger = w.ledger := ledger_foldl_record w batch.skipped _
    have listed' : Listed told :=
      listed.of_ledger (congrArg Ledger.engine same) (congrArg Ledger.entries same)
    have numbered' : Numbered told := (steady_chores numbered (.of_ledger_eq same)).numbered
    have found' : told.ruleIndex? rule.id = some index := by
      rw [← found, ruleIndex?, ruleIndex?, show told.engine = w.engine from congrArg Ledger.engine same]
    exact (listed'.disposed_registerAll numbered' member found').of_ledger rfl
  case disposeAll =>
    simp only [perform, withEngine, there, if_true]
    exact (emptied (.disposeAll w) (ruleIndex?_disposeAll w id)).of_ledger rfl
  case dropEngine =>
    simp only [perform, withEngine, there, if_true]
    exact (emptied (.dropEngine w) (ruleIndex?_dropEngine w id)).of_ledger rfl

/-! ## 4. What they spare -/

/-- What was done **spares the runs**: it moved at most what is listed and who is disposed of. -/
def Spares (w w' : World) : Prop :=
  w'.ledger = { w.ledger with engine := w'.engine, entries := w'.ledger.entries }

/-- What changes **the list and the entries** only spares the runs. -/
theorem Spares.of_ledger {engine : Option (Keyed Nat)} {entries : List Registration}
    (same : w'.ledger = { w.ledger with engine, entries }) : Spares w w' := by
  have engine' : w'.engine = engine := congrArg Ledger.engine same
  rw [Spares, same, engine']

/-- What **leaves the ledger** spares the runs. -/
theorem Spares.of_ledger_eq (same : w'.ledger = w.ledger) : Spares w w' :=
  .of_ledger same

/-- What spares the runs can be done **one after the other**. -/
theorem Spares.trans {u v w : World} (h : Spares u v) (h' : Spares v w) : Spares u w := by
  rw [Spares] at h h' ⊢
  rw [h', h]

/-- **Unregistering a rule** spares the runs. -/
theorem spares_unregister (w : World) (id : String) : Spares w (w.unregister id) := by
  have same := ledger_unregister w id
  cases found : w.ruleIndex? id with
  | none =>
    rw [found] at same
    exact .of_ledger_eq same
  | some place =>
    rw [found] at same
    exact .of_ledger same

/-- **Enrolling a rule** spares the runs. -/
theorem spares_enrol (w : World) (rule : Rule) : Spares w (w.enrol rule) :=
  .of_ledger (ledger_enrol w rule)

/-- **Registering a rule** spares the runs, also those of the rule that it replaces. -/
theorem spares_register (w : World) (rule : Rule) : Spares w (w.register rule) := by
  obtain ⟨noted, same, registered⟩ := exists_register w rule
  have first : Spares w noted := (spares_unregister w rule.id).trans (.of_ledger_eq same)
  rw [registered]
  split_ifs
  · exact first.trans (spares_enrol noted rule)
  · exact first.trans (.of_ledger_eq rfl)

/-- **Registering rules** spares the runs. -/
theorem spares_registerAll (w : World) (rules : List Rule) : Spares w (w.registerAll rules) := by
  unfold registerAll
  induction rules generalizing w with
  | nil => exact .of_ledger_eq rfl
  | cons rule rest ih => exact (spares_register w rule).trans (ih _)

/-- **What disposes of a rule** spares the runs, whatever rule they are of. -/
theorem spares_perform {op : Operation} (disposes : op.Disposes id) : Spares w (w.perform op) := by
  have answered {v : World} (h : Spares w v) (answer : Answer) : Spares w (v.respond answer) :=
    h.trans (.of_ledger_eq (ledger_respond v answer))
  cases op <;> try exact disposes.elim
  case unregister other =>
    simp only [perform, withEngine]
    split_ifs
    · exact answered (spares_unregister w other) _
    · exact answered (.of_ledger_eq rfl) _
  case register rule =>
    simp only [perform, withEngine]
    split_ifs
    · cases rule with
      | none => exact disposes.elim
      | some rule => exact answered (spares_register w rule) _
    · exact answered (.of_ledger_eq rfl) _
  case load document =>
    simp only [perform, withEngine, load]
    split_ifs
    · split
      · exact answered (.of_ledger_eq rfl) _
      · next batch _ =>
        have told := ledger_foldl_record w batch.skipped fun s => .skipped s
        exact answered ((Spares.of_ledger_eq told).trans (spares_registerAll _ batch.rules)) _
    · exact answered (.of_ledger_eq rfl) _
  case disposeAll =>
    simp only [perform, withEngine]
    split_ifs
    · exact answered (.of_ledger (ledger_disposeAll w)) _
    · exact answered (.of_ledger_eq rfl) _
  case dropEngine =>
    simp only [perform, withEngine]
    split_ifs
    · exact answered (.of_ledger (ledger_dropEngine w)) _
    · exact answered (.of_ledger_eq rfl) _

end World

end RuleDispatch
