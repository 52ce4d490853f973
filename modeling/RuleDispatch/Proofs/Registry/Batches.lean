import RuleDispatch.Proofs.Registry.Replacing

/-! # The last definition of a rule counts

Rules are registered one after another, and each takes the place of the one with its id. So after a
batch of rules the last definition with an id is the one that counts, however often the id was put in
and taken out on the way: it is registered if it is enabled, and nothing is registered under its id if
it is not. What was registered under other ids stays.

* `Rule.last?`, `Rule.standing` — the definitions that count.
* `World.Accounts.exists_replaces_registerAll` — they replace what the batch mentions.
* `World.Named`, `World.Named.after` — the engine lists no id twice.
* `World.Settles` — what a batch leads to.
* `last_definition_counts` — every batch does, in every reachable world. -/

namespace RuleDispatch

namespace Rule

/-! ## 1. Definitions that count -/

/-- The **last definition** with an id. -/
def last? (rules : List Rule) (id : String) : Option Rule :=
  rules.reverse.find? fun rule => rule.id = id

/-- The definitions **that count**, in order: they are enabled, and no later one has the same id. -/
def standing : List Rule → List Rule
  | [] => []
  | rule :: rest =>
    if rule.enabled && rest.all (·.id ≠ rule.id) then rule :: standing rest else standing rest

/-- The last rule with an id is found **among those that follow**, or else it is the first. -/
theorem last?_cons (rule : Rule) (rest : List Rule) (id : String) :
    last? (rule :: rest) id = (last? rest id).or (if rule.id = id then some rule else none) := by
  rw [last?, List.reverse_cons, List.find?_append, ← last?]
  by_cases here : rule.id = id <;> simp [here]

/-- There is none **exactly if no rule has the id**. -/
theorem last?_eq_none_iff {rules : List Rule} {id : String} :
    last? rules id = none ↔ id ∉ rules.map (·.id) := by
  simp [last?]

/-- The last rule with an id **has it**. -/
theorem id_of_last? {rules : List Rule} {id : String} {rule : Rule}
    (found : last? rules id = some rule) : rule.id = id := by
  simpa using List.find?_some found

/-- The definitions that count are **the last ones** with their ids, if they are enabled. -/
theorem mem_standing_iff {rules : List Rule} {rule : Rule} :
    rule ∈ standing rules ↔ last? rules rule.id = some rule ∧ rule.enabled = true := by
  induction rules with
  | nil => simp [standing, last?]
  | cons first rest ih =>
    have alone : rest.all (·.id ≠ first.id) = true ↔ last? rest first.id = none := by
      rw [last?_eq_none_iff]
      simp
    rw [standing, last?_cons]
    by_cases mentioned : last? rest rule.id = none
    · -- no later definition has this id
      have absent : rule ∉ standing rest := by
        rw [ih, mentioned]
        rintro ⟨⟨⟩, -⟩
      rw [mentioned, Option.none_or]
      split_ifs with stands same same
      · rw [List.mem_cons, or_iff_left absent]
        rw [Bool.and_eq_true] at stands
        constructor
        · rintro rfl
          exact ⟨rfl, stands.1⟩
        · rintro ⟨found, -⟩
          exact (Option.some.inj found).symm
      · rw [List.mem_cons, or_iff_left absent]
        refine ⟨fun here => absurd (congrArg Rule.id here.symm) same, by rintro ⟨⟨⟩, -⟩⟩
      · refine ⟨fun there => absurd there absent, ?_⟩
        rintro ⟨found, enabled⟩
        obtain rfl := Option.some.inj found
        exact absurd (by rw [enabled, alone.mpr mentioned]; rfl) stands
      · exact ⟨fun there => absurd there absent, by rintro ⟨⟨⟩, -⟩⟩
    · obtain ⟨later, found⟩ := Option.ne_none_iff_exists'.mp mentioned
      rw [found, Option.some_or, ← found, ← ih]
      split_ifs with stands
      · rw [List.mem_cons, or_iff_right]
        rintro rfl
        rw [Bool.and_eq_true, alone] at stands
        exact mentioned stands.2
      · exact Iff.rfl

end Rule

/-- A key that is not there is put **at the end**. -/
theorem Keyed.put_of_lookup_eq_none {α : Type} {key : String} {table : Keyed α}
    (free : table.lookup key = none) (value : α) :
    Keyed.put key value table = table ++ [(key, value)] := by
  induction table with
  | nil => rfl
  | cons entry rest ih =>
    obtain ⟨other, held⟩ := entry
    have others := List.lookup_eq_none_iff.mp free
    have ne : key ≠ other := by simpa using others _ List.mem_cons_self
    have later : rest.lookup key = none :=
      List.lookup_eq_none_iff.mpr fun p member => others p (List.mem_cons_of_mem _ member)
    rw [put, if_neg ne, ih later, List.cons_append]

namespace World

variable {w u w' : World}

/-! ## 2. A batch registered -/

/-- A batch **replaces what it mentions** by the definitions that count. -/
theorem Accounts.exists_replaces_registerAll (h : Accounts w) (listed : Listed w)
    (there : w.engine.isSome = true) (rules : List Rule) :
    ∃ fresh, Replaces w (w.registerAll rules) (rules.map (·.id)) fresh
      ∧ fresh.map (·.2) = Rule.standing rules := by
  induction rules generalizing w with
  | nil => exact ⟨[], replaces_nothing rfl rfl rfl rfl, rfl⟩
  | cons rule rest ih =>
    have first := h.replaces_register listed rule
    have accounts := (h.works (works_register w rule there)).1
    obtain ⟨fresh, later, standing⟩ := ih accounts (listed.chores (chores_register w rule there))
      (by rw [isSome_engine_register, there])
    refine ⟨_, first.trans h later, ?_⟩
    rw [List.map_append, standing, Rule.standing]
    -- the definition stays if no later one has its id
    have alone : rest.all (·.id ≠ rule.id) = decide (rule.id ∉ rest.map (·.id)) := by
      rw [Bool.eq_iff_iff, decide_eq_true_iff, List.all_eq_true]
      simp
    rw [alone]
    generalize rest.map (·.id) = mentioned
    cases rule.enabled with
    | false => simp
    | true => by_cases later : rule.id ∈ mentioned <;> simp [later]

/-! ## 3. The ids that the engine lists -/

/-- The engine lists **no id twice**. -/
def Named (w : World) : Prop :=
  ((w.engine.getD []).map (·.1)).Nodup

/-- Names depend on **the engine only**. -/
theorem Named.congr (h : Named w) (same : w'.engine = w.engine) : Named w' := by
  rw [Named, same]
  exact h

/-- A rule taken out is **listed no more**, and nothing else changes in the list. -/
theorem Named.unregister (h : Named w) (id : String) : Named (w.unregister id) := by
  have same := ledger_unregister w id
  cases found : w.ruleIndex? id with
  | none =>
    rw [found] at same
    exact h.congr (congrArg Ledger.engine same)
  | some place =>
    rw [found] at same
    have engine : (w.unregister id).engine = w.engine.map (Keyed.remove id) :=
      congrArg Ledger.engine same
    rw [Named, engine]
    refine h.sublist ?_
    cases w.engine with
    | none => exact List.nil_sublist _
    | some rules => exact List.filter_sublist.map _

/-- A rule put in **under a free id** is listed last. -/
theorem Named.enrol (h : Named w) {rule : Rule} (free : w.ruleIndex? rule.id = none) :
    Named (w.enrol rule) := by
  have engine : (w.enrol rule).engine = w.engine.map (Keyed.put rule.id w.registrations.length) :=
    congrArg Ledger.engine (ledger_enrol w rule)
  rw [Named, engine]
  unfold Named at h
  unfold ruleIndex? at free
  cases there : w.engine with
  | none => exact .nil
  | some rules =>
    rw [there] at h free
    have ids : (Keyed.put rule.id w.registrations.length rules).map (·.1)
        = rules.map (·.1) ++ [rule.id] := by
      rw [Keyed.put_of_lookup_eq_none free, List.map_append, List.map_singleton]
    -- it comes last, and no entry before it has its id
    have fresh : rule.id ∉ rules.map (·.1) := by
      have others := List.lookup_eq_none_iff.mp free
      rintro member
      obtain ⟨entry, there, same⟩ := List.mem_map.mp member
      simpa [same] using others entry there
    show ((Keyed.put rule.id w.registrations.length rules).map (·.1)).Nodup
    rw [ids]
    refine List.nodup_append.mpr ⟨h, List.nodup_singleton _, fun id there other last same => ?_⟩
    rw [same, List.mem_singleton.mp last] at there
    exact fresh there

/-- **Every piece of work** lists no id twice. -/
theorem Named.work {outside : Bool} (h : Named w) (work : Work outside w w') : Named w' := by
  cases work with
  | quiet same => exact h.congr (congrArg Fittings.engine same)
  | subscribe | listenNumber | listenText | letGoWatcher | letGoTimer => exact h.congr rfl
  | watch => exact h.congr (congrArg Ledger.engine (ledger_watchAs _ _ _ _ _))
  | timer => exact h.congr (congrArg Ledger.engine (ledger_timerAs _ _ _ _))
  | retract => exact h.congr (congrArg Ledger.engine (ledger_retract _ _))
  | unregister _ id => exact h.unregister id
  | enrol enabled free there => exact h.enrol free
  | disposeAll =>
    have engine : w.disposeAll.engine = w.engine.map fun _ => [] :=
      congrArg Ledger.engine (ledger_disposeAll w)
    rw [Named, engine]
    cases w.engine <;> exact .nil
  | dropEngine =>
    rw [Named, show w.dropEngine.engine = none from congrArg Ledger.engine (ledger_dropEngine w)]
    exact .nil

/-- **Work** lists no id twice. -/
theorem Named.works {outside : Bool} (h : Named w) (works : Works outside w w') : Named w' := by
  induction works with
  | refl => exact h
  | tail _ last ih => exact ih.work last

/-- So does **every history**. -/
theorem Named.after (h : Named w) (exec : Executor) (moves : List Move) :
    Named (w.after exec moves) :=
  after_induct (fun v m named => named.works (works_move exec v m)) h moves

/-- An empty world **lists nothing**. -/
theorem named_empty (wallClock : Timestamp) : Named (empty wallClock) :=
  .nil

/-- The ids of the registered rules are **in order, and none is there twice**. -/
theorem Named.ruleIds (h : Named w) : w.ruleIds.Pairwise (· < ·) := by
  have sorted : w.ruleIds.Pairwise (· ≤ ·) := by
    refine (List.pairwise_mergeSort (fun a b c => ?_) (fun a b => ?_) _).imp of_decide_eq_true
    · simpa using le_trans
    · simpa using le_total a b
  have nodup : w.ruleIds.Nodup := (List.mergeSort_perm _ _).nodup_iff.mpr h
  exact (sorted.and nodup).imp fun both => lt_of_le_of_ne both.1 both.2

/-- They are the ids under which a rule is listed. -/
theorem mem_ruleIds_iff (w : World) (id : String) :
    id ∈ w.ruleIds ↔ (w.ruleIndex? id).isSome = true := by
  rw [World.ruleIds, List.mem_mergeSort, ruleIndex?]
  cases w.engine with
  | none => simp
  | some rules =>
    rw [Option.getD_some, Option.bind_some, List.lookup_isSome_iff, List.mem_map]
    exact exists_congr fun entry => and_congr_right fun _ => by rw [beq_iff_eq, eq_comm]

/-! ## 4. What a batch leads to -/

/-- A world in which **a batch of rules was registered**. -/
structure Settles (w : World) (rules : List Rule) (w' : World) : Prop where
  /-- What the batch mentions is gone, and the definitions that count are in new places, in order. All
  else is as it was. -/
  replaces : ∃ fresh, Replaces w w' (rules.map (·.id)) fresh ∧ fresh.map (·.2) = Rule.standing rules
  /-- What is registered under an id that is not mentioned is what was. -/
  unmentioned : ∀ id, Rule.last? rules id = none → w'.ruleIndex? id = w.ruleIndex? id
    ∧ ∀ place, w.ruleIndex? id = some place → w'.registrations[place]? = w.registrations[place]?
  /-- The last definition is registered if it is enabled, and no run of it was started. -/
  enabled : ∀ id rule, Rule.last? rules id = some rule → rule.enabled = true →
    ∃ place r, w'.ruleIndex? id = some place ∧ w.registrations.length ≤ place
      ∧ w'.registrations[place]? = some r ∧ r.rule = rule ∧ r.slot = {} ∧ r.disposed = false
  /-- If it is not, nothing is registered under its id. -/
  disabled : ∀ id rule, Rule.last? rules id = some rule → rule.enabled = false →
    w'.ruleIndex? id = none
  /-- What is there for rules is what the registered ones ask for. -/
  equipped : w'.Equipped
  /-- What is there for callbacks is what was. -/
  outsiders : ∀ b, w'.outsiders b = w.outsiders b
  /-- The ids are listed in order. -/
  sorted : w'.ruleIds.Pairwise (· < ·)
  /-- They are those under which something is registered. -/
  ids : ∀ id, id ∈ w'.ruleIds ↔ (w'.ruleIndex? id).isSome = true

/-- **What was replaced by the definitions that count** is what a batch leads to. -/
theorem Replaces.settles {rules : List Rule} {fresh : List (Nat × Rule)}
    (h : Replaces w w' (rules.map (·.id)) fresh) (standing : fresh.map (·.2) = Rule.standing rules)
    (accounts : Accounts w') (listed : Listed w) (listed' : Listed w') (named : Named w') :
    Settles w rules w' := by
  have counts {place : Nat} {rule : Rule} (new : (place, rule) ∈ fresh) :
      Rule.last? rules rule.id = some rule ∧ rule.enabled = true :=
    Rule.mem_standing_iff.mp (standing ▸ List.mem_map_of_mem (f := (·.2)) new)
  refine
    { replaces := ⟨fresh, h, standing⟩
      unmentioned := fun id absent => ?_
      enabled := fun id rule last enabled => ?_
      disabled := fun id rule last disabled => ?_
      equipped := accounts.equipped listed'
      outsiders := h.outsiders
      sorted := named.ruleIds
      ids := mem_ruleIds_iff w' }
  · -- what is registered under an id that is not mentioned was registered before
    have other : id ∉ rules.map (·.id) := Rule.last?_eq_none_iff.mp absent
    refine ⟨Option.ext fun place => ?_, fun place found => ?_⟩
    · rw [listed'.ruleIndex?_eq_some_iff, listed.ruleIndex?_eq_some_iff, h.registered]
      refine exists_congr fun rule => and_congr_left ?_
      rintro rfl
      rw [List.mem_append, List.mem_filter, decide_eq_true_iff]
      refine ⟨fun there => there.elim And.left fun new => ?_, fun there => .inl ⟨there, other⟩⟩
      rw [(counts new).1] at absent
      cases absent
    · obtain ⟨rule, registered, rfl⟩ := (listed.ruleIndex?_eq_some_iff id place).mp found
      exact h.kept _ registered other
  · -- the last definition is one of those that count
    obtain rfl := Rule.id_of_last? last
    have stands : rule ∈ fresh.map (·.2) := standing ▸ Rule.mem_standing_iff.mpr ⟨last, enabled⟩
    obtain ⟨⟨place, rule⟩, new, rfl⟩ := List.mem_map.mp stands
    have registered : (place, rule) ∈ w'.registered := by
      rw [h.registered]
      exact List.mem_append_right _ new
    obtain ⟨later, r, found, idle⟩ := h.places _ new
    obtain ⟨r', found', live, same⟩ := mem_registered.mp registered
    obtain rfl : r = r' := Option.some.inj (found.symm.trans found')
    exact ⟨place, r, (listed'.ruleIndex?_eq_some_iff _ _).mpr ⟨rule, registered, rfl⟩, later, found,
      same, idle, live⟩
  · -- neither a rule from before nor one that counts has this id
    refine Option.eq_none_iff_forall_ne_some.mpr fun place found => ?_
    obtain ⟨other, registered, rfl⟩ := (listed'.ruleIndex?_eq_some_iff id place).mp found
    rw [h.registered, List.mem_append, List.mem_filter, decide_eq_true_iff] at registered
    rcases registered with ⟨-, old⟩ | new
    · rw [Rule.last?_eq_none_iff.mpr old] at last
      cases last
    · obtain ⟨last', enabled⟩ := counts new
      rw [last] at last'
      rw [Option.some.inj last', enabled] at disabled
      cases disabled

/-- **Registering rules** settles the batch: the last rule of each id is the one that counts. -/
theorem Accounts.settles_registerAll (h : Accounts w) (listed : Listed w) (named : Named w)
    (there : w.engine.isSome = true) (rules : List Rule) : Settles w rules (w.registerAll rules) := by
  have works := works_registerAll w rules there
  obtain ⟨fresh, replaces, standing⟩ := h.exists_replaces_registerAll listed there rules
  exact replaces.settles standing (h.works works).1 listed
    (listed.chores (chores_registerAll w rules there)) (named.works works)

/-- A document **registers its rules**, whatever is left out. -/
theorem Accounts.settles_load (h : Accounts w) (listed : Listed w) (named : Named w)
    (there : w.engine.isSome = true) {document : String} {batch : Batch}
    (read : Batch.read document = .ok batch) : Settles w batch.rules (w.load document) := by
  -- what is left out is only recorded
  have recorded (skipped : List Skipped) (v : World) :
      ∃ log, skipped.foldl (fun w s => w.record (.skipped s)) v = { v with log } := by
    induction skipped generalizing v with
    | nil => exact ⟨v.log, rfl⟩
    | cons entry rest ih => exact ih (v.record (.skipped entry))
  obtain ⟨log, told⟩ := recorded batch.skipped w
  have loaded : w.load document = (World.registerAll { w with log } batch.rules).respond
      (.ruleIds (batch.rules.map (·.id))) := by
    rw [World.load, read, ← told]
  have accounts : Accounts { w with log } := h.congr rfl rfl rfl
  obtain ⟨fresh, replaces, standing⟩ :=
    accounts.exists_replaces_registerAll (listed.of_ledger rfl rfl) there batch.rules
  have works := works_load w document there
  refine Replaces.settles ?_ standing (h.works works).1 listed
    (listed.chores (chores_load w document there)) (named.works works)
  rw [loaded]
  exact replaces.between h accounts (replaces_nothing rfl rfl rfl rfl) (replaces_nothing rfl rfl rfl rfl)

end World

open World

/-- **The last definition of a rule counts.** In every reachable world with an engine, a batch of rules
leads to the same: the rules that it does not mention are registered as before, with their runs, and of
those that it mentions the last definitions, if they are enabled, with no run started so far. What was
there for rules that it mentions is gone, theirs in the batch included; what was there for others and
for callbacks is there in the order in which it was, and after it what the new rules ask for. The ids
of the registered rules are in order and none is there twice, and the ids of the batch are answered in
the order in which they stand there. -/
theorem last_definition_counts (exec : Executor) (wallClock : Timestamp) (moves : List Move)
    (w : World) (reached : w = (World.empty wallClock).after exec moves)
    (there : w.engine.isSome = true) :
    (∀ rules, w.Settles rules (w.registerAll rules))
      ∧ (∀ rule, w.perform (.register (some rule))
          = (w.registerAll [rule]).respond (.ruleId rule.id))
      ∧ ∀ document batch, Batch.read document = .ok batch →
        w.Settles batch.rules (w.perform (.load document))
          ∧ (w.perform (.load document)).answer = .ruleIds (batch.rules.map (·.id)) := by
  have accounts : World.Accounts w := reached ▸ (accounts_empty wallClock).after exec moves
  have listed : World.Listed w := reached ▸ (listed_empty wallClock).after exec moves
  have named : World.Named w := reached ▸ (named_empty wallClock).after exec moves
  have asked (act : World → World) : w.withEngine act = act w := by rw [withEngine, if_pos there]
  refine ⟨accounts.settles_registerAll listed named there, fun rule => ?_,
    fun document batch read => ?_⟩
  · rw [perform, asked]
    rfl
  · rw [perform, asked]
    refine ⟨accounts.settles_load listed named there read, ?_⟩
    rw [load, read]
    rfl

/-- The night light is switched off, and of two lamps the second one counts. -/
theorem last_definition_counts_lamp :
    let w := (World.empty .first).after noEffects
      (Move.played (.operation (.register (some (nightLight .single)))) 1)
    let lamp (name : String) : Rule := { id := "lamp", triggers := [.event name, .schedule 5] }
    let w' := w.registerAll [lamp "dusk", { nightLight .single with enabled := false }, lamp "dawn"]
    w'.ruleIndex? "light" = none
      ∧ ∃ place r, w'.ruleIndex? "lamp" = some place ∧ 1 ≤ place
        ∧ w'.registrations[place]? = some r ∧ r.rule = lamp "dawn" := by
  intro w lamp w'
  obtain ⟨settles, -⟩ := last_definition_counts noEffects .first
    (Move.played (.operation (.register (some (nightLight .single)))) 1) w rfl (by cbv)
  have settled := settles [lamp "dusk", { nightLight .single with enabled := false }, lamp "dawn"]
  obtain ⟨place, r, found, later, there, rule, -⟩ := settled.enabled "lamp" (lamp "dawn") rfl rfl
  exact ⟨settled.disabled "light" _ rfl rfl, place, r, found, later, there, rule⟩

end RuleDispatch
