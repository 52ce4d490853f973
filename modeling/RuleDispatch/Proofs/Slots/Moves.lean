import RuleDispatch.Proofs.Steps
import RuleDispatch.Proofs.Slots.Tokens

/-! # What one move does to a slot

Every move leaves the slot of a rule and the tokens of its runs alone, or accepts one run, or takes
one run out. Which of them it is can be told beforehand: from the rule that the next step proposes
for firing and from the run that it ends.

* `World.Numbered`, `World.Sound` — runs numbered in order, every slot in tally with its runs.
* `World.accepted?` — the rule whose firing the next step accepts.
* `SlotMove` — what one move does to a slot.
* `World.sound_empty`, `World.Sound.after` — every reachable world is sound. -/

namespace RuleDispatch

/-! ## 1. Stamps and tokens -/

/-- The token that a registration has of a run with this stamp. -/
def Stamp.token? (index : Nat) (s : Stamp) : Option Token :=
  match s.owner with
  | .rule place generation => if place = index then some ⟨s.run, generation, s.cancelled⟩ else none
  | .label _ => none

namespace World

/-- Tokens depend on the stamps of the runs only. -/
theorem tokens_of_stamps {w : World} {runs : List Run}
    (same : w.runs.map Run.stamp = runs.map Run.stamp) (index : Nat) :
    w.tokens index = runs.filterMap (Run.token? index) := by
  have through (l : List Run) :
      l.filterMap (Run.token? index) = (l.map Run.stamp).filterMap (Stamp.token? index) := by
    rw [List.filterMap_map]
    rfl
  rw [tokens, through, through, same]

/-- Runs are **numbered in order**, and those of rules belong to rules that are there. -/
structure Numbered (w : World) : Prop where
  ascending : w.runs.Pairwise fun a b => a.id < b.id
  bounded : ∀ r ∈ w.runs, r.id < w.nextRun
  owned : ∀ r ∈ w.runs, ∀ index generation, r.owner = .rule index generation →
    index < w.registrations.length

/-- Runs stay numbered when at most **some of them go**. -/
theorem Numbered.of_stamps {w w' : World} (h : Numbered w)
    (stamps : (w'.runs.map Run.stamp).Sublist (w.runs.map Run.stamp))
    (nextRun : w.nextRun ≤ w'.nextRun)
    (length : w.registrations.length ≤ w'.registrations.length) : Numbered w' := by
  have held (r : Run) (member : r ∈ w'.runs) : ∃ old ∈ w.runs, old.stamp = r.stamp :=
    List.mem_map.mp (stamps.subset (List.mem_map_of_mem member))
  refine ⟨?_, ?_, ?_⟩
  · have ordered : (w.runs.map Run.stamp).Pairwise fun a b => a.run < b.run :=
      List.pairwise_map.mpr h.ascending
    have kept := List.pairwise_map.mp (List.Pairwise.sublist stamps ordered)
    exact kept
  · intro r member
    obtain ⟨old, there, same⟩ := held r member
    have id : old.id = r.id := congrArg Stamp.run same
    have := h.bounded old there
    omega
  · intro r member index generation owner
    obtain ⟨old, there, same⟩ := held r member
    have owner' : old.owner = r.owner := congrArg Stamp.owner same
    exact Nat.lt_of_lt_of_le (h.owned old there index generation (owner'.trans owner)) length

/-- The **slot in a place**, idle while no rule is there. -/
def slot (w : World) (index : Nat) : RunSlot :=
  (w.held? index).elim {} (·.slot)

/-- The slot in a place is that of **the entry there**. -/
theorem slot_of_entry {w : World} {index : Nat} {r : Registration} (h : w.held? index = some r) :
    w.slot index = r.slot := by
  rw [slot, h]
  rfl

/-- The slot in a place is that of **the rule registered there**. -/
theorem slot_of_registration {w : World} {index : Nat} {r : Registration}
    (h : w.registrations[index]? = some r) : w.slot index = r.slot := by
  rw [slot_of_entry (held?_of_registration h), Registration.slot_bare]

/-- A world is **sound** when every slot tallies with the tokens of its runs. -/
structure Sound (w : World) : Prop extends Numbered w where
  tallies : ∀ index r, w.held? index = some r → r.slot.Tallies r.rule.mode (w.tokens index)

/-! ## 2. Chores -/

/-- What a chore does to **one place**: nothing, or its rule is disposed of, or one is put in. -/
inductive PlaceChore : Option Registration → Option Registration → Prop where
  | same (r : Option Registration) : PlaceChore r r
  | marked (r : Option Registration) : PlaceChore r (r.map markDisposed)
  | seated (rule : Rule) : PlaceChore none (some { rule })

/-- Places after one of them changed. -/
theorem held?_of_modify {w w' : World} {index : Nat} {f : Registration → Registration}
    (h : w'.ledger.entries = w.ledger.entries.modify index f) (place : Nat) :
    w'.held? place = if index = place then (w.held? place).map f else w.held? place := by
  rw [held?_eq, held?_eq, h, List.getElem?_modify]
  split
  · rfl
  · exact Option.map_id'

/-- Marking places marks **exactly those**. -/
theorem getElem?_markAll (entries : List Registration) (rules : Keyed Nat) (place : Nat) :
    (markAll entries rules)[place]? =
      if place ∈ rules.map (·.2) then entries[place]?.map markDisposed else entries[place]? := by
  unfold markAll
  induction rules generalizing entries with
  | nil => rfl
  | cons rule rest ih =>
    rw [List.foldl_cons, ih, List.getElem?_modify, List.map_cons]
    by_cases first : rule.2 = place
    · simp only [first, if_true, List.mem_cons, true_or]
      cases entries[place]? <;> simp [markDisposed]
    · simp only [first, if_false, id_map', List.mem_cons, Ne.symm first, false_or]

/-- Rules **stay in their places**, and disposed of once they are. -/
def Grows (w w' : World) : Prop :=
  ∀ index r, w.held? index = some r →
    ∃ r', w'.held? index = some r' ∧ r'.rule = r.rule ∧ (r.disposed = true → r'.disposed = true)

/-- Rules stay where they are **when nothing happens**. -/
theorem Grows.refl (w : World) : Grows w w :=
  fun _ r h => ⟨r, h, rfl, fun disposed => disposed⟩

/-- Rules stay in their places **one time after the other**. -/
theorem Grows.trans {u v w : World} (h : Grows u v) (h' : Grows v w) : Grows u w := by
  intro index r entry
  obtain ⟨s, entry, rule, disposed⟩ := h index r entry
  obtain ⟨t, entry, rule', disposed'⟩ := h' index s entry
  exact ⟨t, entry, rule'.trans rule, disposed' ∘ disposed⟩

/-- A place is taken when its number is below that of the places. -/
theorem isSome_held?_iff (w : World) (index : Nat) :
    (w.held? index).isSome = true ↔ index < w.registrations.length := by
  rw [held?, Option.isSome_map, isSome_getElem?]

/-- There are **no fewer rules** later. -/
theorem Grows.length_le {w w' : World} (h : Grows w w') :
    w.registrations.length ≤ w'.registrations.length := by
  by_contra less
  have taken := (isSome_held?_iff w w'.registrations.length).mpr (by omega)
  obtain ⟨r, entry⟩ := Option.isSome_iff_exists.mp taken
  obtain ⟨r', later, -⟩ := h _ r entry
  have := (isSome_held?_iff w' w'.registrations.length).mp (by rw [later]; rfl)
  omega

/-- What chores keep of the slots: **everything**, and the runs stay numbered. -/
structure Steady (w w' : World) : Prop where
  grows : Grows w w'
  slot : ∀ index, w'.slot index = w.slot index
  tokens : ∀ index, w'.tokens index = w.tokens index
  nextRun : w.nextRun ≤ w'.nextRun
  numbered : Numbered w'

/-- What keeps all of the slots can be done **one after the other**. -/
theorem Steady.trans {u v w : World} (h : Steady u v) (h' : Steady v w) : Steady u w where
  grows := h.grows.trans h'.grows
  slot index := (h'.slot index).trans (h.slot index)
  tokens index := (h'.tokens index).trans (h.tokens index)
  nextRun := Nat.le_trans h.nextRun h'.nextRun
  numbered := h'.numbered

/-- Chores in each place leave **the rules in their places**. -/
theorem grows_of_places {w w' : World}
    (places : ∀ place, PlaceChore (w.held? place) (w'.held? place)) : Grows w w' := by
  intro index r entry
  have chore := places index
  rw [entry] at chore
  generalize w'.held? index = later at chore
  cases chore with
  | same => exact ⟨r, rfl, rfl, id⟩
  | marked => exact ⟨markDisposed r, rfl, rfl, fun _ => rfl⟩

/-- Chores in each place leave **the slots** as they are. -/
theorem slot_of_places {w w' : World}
    (places : ∀ place, PlaceChore (w.held? place) (w'.held? place)) (index : Nat) :
    w'.slot index = w.slot index := by
  have chore := places index
  unfold slot
  generalize w.held? index = before, w'.held? index = later at chore
  cases chore with
  | same => rfl
  | marked => cases before <;> rfl
  | seated => rfl

/-- Changing places only is steady. -/
theorem steady_of_places {w w' : World} (numbered : Numbered w) (runs : w'.runs = w.runs)
    (nextRun : w'.nextRun = w.nextRun)
    (places : ∀ place, PlaceChore (w.held? place) (w'.held? place)) : Steady w w' where
  grows := grows_of_places places
  slot := slot_of_places places
  tokens index := by rw [tokens, tokens, runs]
  nextRun := Nat.le_of_eq nextRun.symm
  numbered := numbered.of_stamps (by rw [runs]) (Nat.le_of_eq nextRun.symm)
    (grows_of_places places).length_le

/-- Disposing of rules is steady, **whichever they are**. -/
theorem steady_of_markAll {w w' : World} (numbered : Numbered w) {engine : Option (Keyed Nat)}
    {rules : Keyed Nat}
    (ledger : w'.ledger = { w.ledger with engine, entries := markAll w.ledger.entries rules }) :
    Steady w w' := by
  refine steady_of_places numbered (congrArg Ledger.runs ledger) (congrArg Ledger.nextRun ledger)
    fun place => ?_
  rw [held?_eq w', ledger, getElem?_markAll, ← held?_eq]
  split
  · exact .marked _
  · exact .same _

/-- In a world whose runs are numbered, a run is told **by its number**. -/
theorem Numbered.eq_of_id_eq {w : World} (h : Numbered w) {a b : Run} (ha : a ∈ w.runs)
    (hb : b ∈ w.runs) (same : a.id = b.id) : a = b := by
  have ids : (w.runs.map (·.id)).Nodup := List.pairwise_map.mpr (h.ascending.imp Nat.ne_of_lt)
  exact List.inj_on_of_nodup_map ids ha hb same

/-- Starting a run outside any rule is steady. -/
theorem steady_spawn {w : World} (numbered : Numbered w) (label : String) (actions : List Action)
    (cancelled : Bool) : Steady w (w.spawn (.label label) actions cancelled) where
  grows := Grows.refl w
  slot _ := rfl
  -- a run outside any rule has no token
  tokens index := by
    show (w.runs ++ [_]).filterMap _ = _
    rw [List.filterMap_append]
    exact List.append_nil _
  nextRun := Nat.le_succ _
  numbered :=
    { ascending := by
        refine List.pairwise_append.mpr ⟨numbered.ascending, List.pairwise_singleton _ _, ?_⟩
        intro r member new isNew
        rw [List.mem_singleton.mp isNew]
        exact numbered.bounded r member
      bounded := by
        intro r member
        rcases List.mem_append.mp member with old | new
        · exact Nat.lt_succ_of_lt (numbered.bounded r old)
        · rw [List.mem_singleton.mp new]
          exact Nat.lt_succ_self _
      owned := by
        intro r member index generation owner
        rcases List.mem_append.mp member with old | new
        · exact numbered.owned r old index generation owner
        · rw [List.mem_singleton.mp new] at owner
          cases owner }

/-- Cancelling a run outside any rule is steady: **no token is cancelled**. -/
theorem steady_cancelRun {w : World} (numbered : Numbered w) {id : Nat}
    (outside : ∃ r ∈ w.runs, r.id = id ∧ ∃ label, r.owner = .label label) :
    Steady w (w.cancelRun id) := by
  have ledger := ledger_cancelRun w id
  have runs : (w.cancelRun id).runs = w.runs.map (Run.cancelIf id) := congrArg Ledger.runs ledger
  have entries : (w.cancelRun id).ledger.entries = w.ledger.entries := by rw [ledger]
  have nextRun : (w.cancelRun id).nextRun = w.nextRun := congrArg Ledger.nextRun ledger
  have same (place : Nat) : (w.cancelRun id).held? place = w.held? place := by
    rw [held?_eq, entries, held?_eq]
  have places (place : Nat) : PlaceChore (w.held? place) ((w.cancelRun id).held? place) :=
    same place ▸ .same _
  obtain ⟨r, member, rfl, label, owner⟩ := outside
  refine
    { grows := grows_of_places places
      slot := slot_of_places places
      tokens := fun index => ?_
      nextRun := Nat.le_of_eq nextRun.symm
      numbered := ?_ }
  · -- the run cancelled has no token, and all others stay as they are
    rw [tokens, runs, List.filterMap_map]
    refine List.filterMap_congr fun other there => ?_
    show (other.cancelIf r.id).token? index = other.token? index
    rw [Run.token?_cancelIf]
    by_cases this : other.id = r.id
    · obtain rfl := numbered.eq_of_id_eq there member this
      rw [Run.token?, owner]
      rfl
    · cases found : other.token? index with
      | none => rfl
      | some t =>
        have run : t.run ≠ r.id := (Run.token?_eq_some.mp found).2.1 ▸ this
        rw [Option.map_some, Token.cancelIf, if_neg run]
  · have length := (grows_of_places places).length_le
    refine ⟨?_, ?_, ?_⟩
    · rw [runs, List.pairwise_map]
      simpa using numbered.ascending
    · rw [runs, nextRun]
      intro other there
      obtain ⟨old, member, rfl⟩ := List.mem_map.mp there
      rw [Run.id_cancelIf]
      exact numbered.bounded old member
    · rw [runs]
      intro other there index generation owner
      obtain ⟨old, member, rfl⟩ := List.mem_map.mp there
      rw [Run.owner_cancelIf] at owner
      exact Nat.lt_of_lt_of_le (numbered.owned old member index generation owner) length

/-- **Every chore** is steady. -/
theorem steady_chore {w w' : World} (numbered : Numbered w) (h : Chore w w') : Steady w w' := by
  cases h with
  | quiet frames plain same =>
    have entries : w'.ledger.entries = w.ledger.entries := by rw [same]
    refine steady_of_places numbered (congrArg Ledger.runs same) (congrArg Ledger.nextRun same)
      fun place => ?_
    rw [held?_eq w', entries, ← held?_eq]
    exact .same _
  | spawn label actions cancelled => exact steady_spawn numbered label actions cancelled
  | cancel outside => exact steady_cancelRun numbered outside
  | unregister id =>
    have ledger := ledger_unregister w id
    cases found : w.ruleIndex? id with
    | none =>
      rw [found] at ledger
      refine steady_of_places numbered (congrArg Ledger.runs ledger)
        (congrArg Ledger.nextRun ledger) fun place => ?_
      rw [held?_eq (w.unregister id), ledger, held?_eq]
      exact .same _
    | some index =>
      rw [found] at ledger
      refine steady_of_places numbered (congrArg Ledger.runs ledger)
        (congrArg Ledger.nextRun ledger) fun place => ?_
      rw [held?_of_modify (congrArg Ledger.entries ledger)]
      split
      · exact .marked _
      · exact .same _
  | enrol enabled free there =>
    next rule =>
    have ledger := ledger_enrol w rule
    refine steady_of_places numbered (congrArg Ledger.runs ledger) (congrArg Ledger.nextRun ledger)
      fun place => ?_
    have length : w.ledger.entries.length = w.registrations.length := List.length_map _
    rw [held?_eq, held?_eq, ledger]
    show PlaceChore _ (w.ledger.entries ++ [({ rule } : Registration)])[place]?
    rcases Nat.lt_trichotomy place w.ledger.entries.length with before | rfl | after
    · rw [List.getElem?_append_left before]
      exact .same _
    · -- the next place is the one that the rule takes
      rw [List.getElem?_concat_length, List.getElem?_eq_none (Nat.le_refl _)]
      exact .seated rule
    · rw [List.getElem?_eq_none (Nat.le_of_lt after),
        List.getElem?_eq_none (by rw [List.length_append]; exact after)]
      exact .same _
  | disposeAll => exact steady_of_markAll numbered (ledger_disposeAll w)
  | dropEngine => exact steady_of_markAll numbered (ledger_dropEngine w)

/-- **Several chores** are steady. -/
theorem steady_chores {w w' : World} (numbered : Numbered w) (h : Chores w w') : Steady w w' := by
  induction h with
  | refl =>
    exact
      { grows := Grows.refl w
        slot := fun _ => rfl
        tokens := fun _ => rfl
        nextRun := Nat.le_refl _
        numbered }
  | tail _ last ih => exact ih.trans (steady_chore ih.numbered last)

/-! ## 3. Runs accepted -/

/-- Whether a rule **gets a run** when it is proposed for firing. -/
def takes (w : World) (r : Registration) : Bool :=
  !r.disposed && allHold w.store.reading r.rule.conditions && r.slot.accepts r.rule.mode

/-- The rule proposed for firing, if **its firing is accepted**. -/
def acceptedOf (w : World) (firing : Option Nat) : Option Nat :=
  firing.filter fun index => (w.registrations[index]?).any w.takes

/-- The rule whose firing the next step **accepts**, by its place. -/
def accepted? (w : World) : Option Nat :=
  w.acceptedOf w.firing?

/-- A rule proposed for firing gets a run **exactly when it takes one**; otherwise nothing comes of
it. -/
theorem ledger_fire (w : World) {index : Nat} {r : Registration}
    (registered : w.registrations[index]? = some r) :
    (w.fire index).ledger = if w.takes r then (w.startRun index r).ledger else w.ledger := by
  unfold fire takes
  rw [registered]
  dsimp only
  cases r.disposed with
  | true => rfl
  | false =>
    cases allHold w.store.reading r.rule.conditions with
    | false => rfl
    | true => cases r.slot.accepts r.rule.mode <;> rfl

end World

/-- What one move does to a slot and to the tokens of its runs: **nothing**, or a run is accepted, or
a run is over. -/
inductive SlotMove (mode : Mode) (fresh : Nat) (slot : RunSlot) (tokens : List Token) :
    Bool → Option Token → RunSlot → List Token → Prop where
  /-- Nothing happens to the slot. -/
  | still : SlotMove mode fresh slot tokens false none slot tokens
  /-- A run is accepted, and whoever it preempts yields. -/
  | accepts (accepted : slot.accepts mode = true) :
      SlotMove mode fresh slot tokens true none (slot.begin fresh)
        (yieldTokens tokens (slot.preempts mode) ++ [⟨fresh, slot.generation + 1, false⟩])
  /-- A run comes to its end. -/
  | ends {t : Token} (member : t ∈ tokens) :
      SlotMove mode fresh slot tokens false (some t) (slot.finish t.generation)
        (tokens.filter (·.run ≠ t.run))

section

variable {mode : Mode} {fresh : Nat} {slot slot' : RunSlot} {tokens tokens' : List Token}

/-- What **accepting a run** does. -/
theorem SlotMove.of_accepted {ended : Option Token}
    (h : SlotMove mode fresh slot tokens true ended slot' tokens') :
    slot' = slot.begin fresh
      ∧ tokens' = yieldTokens tokens (slot.preempts mode) ++ [⟨fresh, slot.generation + 1, false⟩] := by
  cases h with
  | accepts accepted => exact ⟨rfl, rfl⟩

/-- What **the end of a run** does. -/
theorem SlotMove.of_ended {accepted : Bool} {t : Token}
    (h : SlotMove mode fresh slot tokens accepted (some t) slot' tokens') :
    t ∈ tokens ∧ slot' = slot.finish t.generation ∧ tokens' = tokens.filter (·.run ≠ t.run) := by
  cases h with
  | ends member => exact ⟨member, rfl, rfl⟩

/-- A slot that tallies **still tallies** after a move. -/
theorem SlotMove.tallies {accepted : Bool} {ended : Option Token}
    (h : SlotMove mode fresh slot tokens accepted ended slot' tokens')
    (tallies : slot.Tallies mode tokens) (bounded : ∀ t ∈ tokens, t.run < fresh) :
    slot'.Tallies mode tokens' := by
  cases h with
  | still => exact tallies
  | accepts accepted => exact tallies.begin accepted bounded
  | ends member => exact tallies.finish member

end

namespace World

/-- What one move does to **all slots**. -/
structure Moved (w w' : World) (accepted : Option Nat) (ended : Option Run) : Prop where
  grows : Grows w w'
  numbered : Numbered w'
  nextRun : w.nextRun ≤ w'.nextRun
  slots : ∀ index r', w'.held? index = some r' →
    SlotMove r'.rule.mode w.nextRun (w.slot index) (w.tokens index) (accepted = some index)
      (ended.bind (·.token? index)) r'.slot (w'.tokens index)

/-- What is steady accepts nothing and ends nothing. -/
theorem Steady.moved {w w' : World} (h : Steady w w') : Moved w w' none none where
  grows := h.grows
  numbered := h.numbered
  nextRun := h.nextRun
  slots index r' entry := by
    rw [h.tokens, ← slot_of_entry entry, h.slot]
    exact .still

/-- The tokens after a run gave way. -/
theorem filterMap_yielding (runs : List Run) (run : Option Nat) (index : Nat) :
    (yielding runs run).filterMap (Run.token? index)
      = yieldTokens (runs.filterMap (Run.token? index)) run := by
  cases run with
  | none => rfl
  | some id =>
    simp only [yielding, yieldTokens, List.filterMap_map, List.map_filterMap]
    exact List.filterMap_congr fun r _ => Run.token?_cancelIf index id r

/-- The runs that go on keep their numbers and owners when one gives way. -/
theorem exists_of_mem_yielding {runs : List Run} {run : Option Nat} {r : Run}
    (h : r ∈ yielding runs run) : ∃ old ∈ runs, r.id = old.id ∧ r.owner = old.owner := by
  cases run with
  | none => exact ⟨r, h, rfl, rfl⟩
  | some id =>
    obtain ⟨old, member, rfl⟩ := List.mem_map.mp h
    exact ⟨old, member, Run.id_cancelIf id old, Run.owner_cancelIf id old⟩

/-- **No run of another rule** gives way. -/
theorem Sound.yieldTokens_of_ne {w : World} (sound : Sound w) {index place : Nat}
    {r : Registration} (entry : w.held? index = some r) (other : place ≠ index) :
    yieldTokens (w.tokens place) (r.slot.preempts r.rule.mode) = w.tokens place := by
  cases gives : r.slot.preempts r.rule.mode with
  | none => rfl
  | some id =>
    have active : r.slot.active = some id := by
      unfold RunSlot.preempts at gives
      split at gives
      · exact gives
      · cases gives
    -- the run that gives way is one of this rule, so it has no token of another
    obtain ⟨t, member, run, -⟩ := ((sound.tallies index r entry).active id).mp active
    obtain ⟨owned, there, token⟩ := mem_tokens.mp member
    refine (List.map_congr_left fun t' member' => ?_).trans (List.map_id _)
    obtain ⟨owned', there', token'⟩ := mem_tokens.mp member'
    obtain ⟨owner, same, -⟩ := Run.token?_eq_some.mp token
    obtain ⟨owner', same', -⟩ := Run.token?_eq_some.mp token'
    have distinct : t'.run ≠ id := by
      intro e
      obtain rfl := sound.eq_of_id_eq there there' (by omega)
      rw [owner] at owner'
      injection owner' with e
      exact other e.symm
    exact if_neg distinct

/-- **A run accepted** moves its slot only. -/
theorem Sound.moved_startRun {w w' : World} (sound : Sound w) {index : Nat} {r : Registration}
    (registered : w.registrations[index]? = some r) (accepted : r.slot.accepts r.rule.mode = true)
    (started : w'.ledger = (w.startRun index r).ledger) : Moved w w' (some index) none := by
  rw [ledger_startRun] at started
  have entry : w.held? index = some r.bare := held?_of_registration registered
  have runs : w'.runs = _ := congrArg Ledger.runs started
  have nextRun : w'.nextRun = w.nextRun + 1 := congrArg Ledger.nextRun started
  have places := held?_of_modify (congrArg Ledger.entries started)
  have grows : Grows w w' := by
    intro place held there
    rw [places, there]
    split
    · exact ⟨_, rfl, rfl, id⟩
    · exact ⟨held, rfl, rfl, id⟩
  have tokens (place : Nat) : w'.tokens place
      = yieldTokens (w.tokens place) (r.slot.preempts r.rule.mode)
        ++ if index = place then [⟨w.nextRun, r.slot.generation + 1, false⟩] else [] := by
    rw [World.tokens, runs, List.filterMap_append, filterMap_yielding, ← World.tokens]
    congr 1
    by_cases here : index = place <;> simp [Run.token?, here]
  -- numbers ascend, are below the next one, and belong to rules that are there; then the slots
  refine ⟨grows, ⟨?_, ?_, ?_⟩, by omega, ?_⟩
  · rw [runs]
    refine List.pairwise_append.mpr ⟨?_, List.pairwise_singleton _ _, ?_⟩
    · cases r.slot.preempts r.rule.mode with
      | none => exact sound.ascending
      | some id => exact List.pairwise_map.mpr (by simpa using sound.ascending)
    · intro held member new isNew
      obtain ⟨old, there, same, -⟩ := exists_of_mem_yielding member
      rw [List.mem_singleton.mp isNew, same]
      exact sound.bounded old there
  · rw [runs, nextRun]
    intro held member
    rcases List.mem_append.mp member with kept | new
    · obtain ⟨old, there, same, -⟩ := exists_of_mem_yielding kept
      rw [same]
      exact Nat.lt_succ_of_lt (sound.bounded old there)
    · rw [List.mem_singleton.mp new]
      exact Nat.lt_succ_self _
  · rw [runs]
    intro held member place generation owner
    refine Nat.lt_of_lt_of_le ?_ grows.length_le
    rcases List.mem_append.mp member with kept | new
    · obtain ⟨old, there, -, same⟩ := exists_of_mem_yielding kept
      exact sound.owned old there place generation (same ▸ owner)
    · rw [List.mem_singleton.mp new] at owner
      injection owner with here
      exact here ▸ (List.getElem?_eq_some_iff.mp registered).1
  · intro place held there
    rw [places] at there
    by_cases here : index = place
    · -- the rule that fires: its slot begins a run, and its tokens are joined by a new one
      subst here
      rw [if_pos rfl, entry, Option.map_some, Option.some.injEq] at there
      rw [← there, tokens, if_pos rfl, slot_of_entry entry]
      simpa using SlotMove.accepts accepted
    · rw [if_neg here] at there
      have kept := sound.yieldTokens_of_ne entry (Ne.symm here)
      rw [Registration.slot_bare, Registration.rule_bare] at kept
      rw [tokens, if_neg here, List.append_nil, kept, slot_of_entry there]
      simpa [here] using SlotMove.still

/-! ## 4. Every move -/

/-- What the end of a run does to a place: the slot is told **if the run was its own**. -/
theorem Ends.held? {w w' : World} {r : Run} (closed : Ends w w' r) (place : Nat) :
    w'.held? place = match r.token? place with
      | some t => (w.held? place).map fun held =>
          { held with slot := held.slot.finish t.generation }
      | none => w.held? place := by
  have entries := closed.entries
  cases owner : r.owner with
  | label label =>
    rw [owner] at entries
    rw [held?_eq, entries, Run.token?, owner]
    exact (held?_eq w place).symm
  | rule index generation =>
    rw [owner] at entries
    rw [held?_of_modify entries, Run.token?, owner]
    by_cases here : index = place <;> simp [here]

/-- What the end of a run does to the tokens: **those of the run** go. -/
theorem Ends.tokens {w w' : World} {r : Run} (closed : Ends w w' r) (place : Nat) :
    w'.tokens place = (w.tokens place).filter (·.run ≠ r.id) := by
  rw [tokens_of_stamps closed.stamps, World.tokens, List.filter_filterMap, List.filterMap_filter]
  refine List.filterMap_congr fun other _ => ?_
  cases found : other.token? place with
  | none => simp
  | some t =>
    have run : t.run = other.id := (Run.token?_eq_some.mp found).2.1
    by_cases this : other.id = r.id <;> simp [run, this, Option.filter]

/-- **One run over** moves its slot only. -/
theorem Sound.moved_ends {w w' : World} (sound : Sound w) {r : Run} (member : r ∈ w.runs)
    (closed : Ends w w' r) : Moved w w' none (some r) := by
  have grows : Grows w w' := by
    intro place held there
    rw [closed.held?, there]
    split
    · exact ⟨_, rfl, rfl, id⟩
    · exact ⟨held, rfl, rfl, id⟩
  have stamps : (w'.runs.map Run.stamp).Sublist (w.runs.map Run.stamp) :=
    closed.stamps ▸ List.filter_sublist.map Run.stamp
  refine ⟨grows, sound.of_stamps stamps (Nat.le_of_eq closed.nextRun.symm) grows.length_le,
    Nat.le_of_eq closed.nextRun.symm, fun place r' there => ?_⟩
  rw [closed.held?] at there
  cases token : r.token? place with
  | some t =>
    obtain ⟨-, run, -⟩ := Run.token?_eq_some.mp token
    rw [token] at there
    obtain ⟨held, entry, rfl⟩ := Option.map_eq_some_iff.mp there
    rw [closed.tokens, slot_of_entry entry, Option.bind_some, token, ← run]
    exact .ends (mem_tokens.mpr ⟨r, member, token⟩)
  | none =>
    -- the run was not one of this place, and neither is any with its number
    rw [token] at there
    have others : (w.tokens place).filter (·.run ≠ r.id) = w.tokens place := by
      refine List.filter_eq_self.mpr fun t owned => ?_
      obtain ⟨other, there', token'⟩ := mem_tokens.mp owned
      rw [decide_eq_true_iff, (Run.token?_eq_some.mp token').2.1]
      intro same
      rw [sound.eq_of_id_eq there' member same, token] at token'
      cases token'
    rw [closed.tokens, others, slot_of_entry there, Option.bind_some, token]
    exact .still

/-- **Runs refitted** move no slot. -/
theorem Refit.steady {w w' : World} (numbered : Numbered w) (refit : Refit w w') : Steady w w' where
  grows index r entry := ⟨r, by rw [held?_eq, refit.entries, ← held?_eq, entry], rfl, id⟩
  slot index := by rw [slot, slot, held?_eq, held?_eq, refit.entries]
  tokens index := tokens_of_stamps refit.stamps index
  nextRun := Nat.le_of_eq refit.nextRun.symm
  numbered := by
    refine numbered.of_stamps (by rw [refit.stamps]) (Nat.le_of_eq refit.nextRun.symm) ?_
    have entries := congrArg List.length refit.entries
    rw [ledger, ledger, List.length_map, List.length_map] at entries
    exact Nat.le_of_eq entries.symm

/-- Leaving the runs, the rules and the slots alone keeps a world sound. -/
theorem Sound.of_ledger {w w' : World} {stack : List Frame} (sound : Sound w)
    (same : w'.ledger = { w.ledger with stack }) : Sound w' where
  toNumbered := (Refit.steady sound.toNumbered (Refit.of_ledger same)).numbered
  tallies index r entry := by
    have steady := Refit.steady sound.toNumbered (Refit.of_ledger same)
    rw [steady.tokens]
    refine sound.tallies index r ?_
    rw [held?_eq, same] at entry
    rw [held?_eq, entry]

/-- What is moved from a world with other things to be done is moved from the world. -/
theorem Moved.of_ledger {w u w' : World} {stack : List Frame} {accepted : Option Nat}
    {ended : Option Run} (same : u.ledger = { w.ledger with stack })
    (h : Moved u w' accepted ended) : Moved w w' accepted ended := by
  have entries (index : Nat) : u.held? index = w.held? index := by
    rw [held?_eq, same, ← held?_eq]
  have runs : u.runs = w.runs := congrArg Ledger.runs same
  have nextRun : u.nextRun = w.nextRun := congrArg Ledger.nextRun same
  refine ⟨fun index r entry => h.grows index r (by rw [entries, entry]), h.numbered,
    nextRun ▸ h.nextRun, fun index r' entry => ?_⟩
  have moved := h.slots index r' entry
  rw [nextRun, slot, entries, World.tokens, runs] at moved
  exact moved

/-- **Every kind of move** moves the slots as it was due to. -/
theorem Sound.moved {w w' : World} {firing : Option Nat} {ended : Option Run} (sound : Sound w)
    (kind : MoveKind w w' firing ended) : Moved w w' (w.acceptedOf firing) ended := by
  cases kind with
  | refits done => exact (done.steady sound.toNumbered).moved
  | ends member done => exact sound.moved_ends member done
  | @acts u _ same registrations store done =>
    cases done with
    | chores done =>
      exact ((steady_chores (sound.of_ledger same).toNumbered done).moved).of_ledger same
    | @fires v index frames plain same' registrations' store' done =>
      have same : v.ledger = { w.ledger with stack := frames ++ u.stack } := by rw [same', same]
      -- nothing done before the firing touched the rules or what conditions read
      have soundly := sound.of_ledger same
      have places : v.registrations = w.registrations := registrations'.trans registrations
      have reading : v.store = w.store := store'.trans store
      refine Moved.of_ledger same ?_
      cases registered : v.registrations[index]? with
      | none =>
        have nothing : w.acceptedOf (some index) = none := by
          rw [acceptedOf, Option.filter_some, ← places, registered]
          rfl
        have still : v.fire index = v := by rw [fire, registered]
        rw [still] at done
        rw [nothing]
        exact (Refit.steady soundly.toNumbered (.of_ledger done)).moved
      | some r =>
        have takes : w.takes r = v.takes r := by rw [World.takes, World.takes, reading]
        rw [ledger_fire v registered] at done
        rw [acceptedOf, Option.filter_some, ← places, registered, Option.any_some, takes]
        cases gets : v.takes r with
        | false =>
          rw [gets] at done
          exact (Refit.steady soundly.toNumbered (.of_ledger done)).moved
        | true =>
          rw [gets] at done
          have accepted : r.slot.accepts r.rule.mode = true := by
            rw [World.takes, Bool.and_eq_true] at gets
            exact gets.2
          exact soundly.moved_startRun registered accepted done

/-- In a world whose runs are numbered, tokens are those of **numbers given out**. -/
theorem Numbered.run_lt {w : World} (h : Numbered w) {index : Nat} {t : Token}
    (member : t ∈ w.tokens index) : t.run < w.nextRun := by
  obtain ⟨r, there, token⟩ := mem_tokens.mp member
  rw [(Run.token?_eq_some.mp token).2.1]
  exact h.bounded r there

/-- A rule that is not there has no runs. -/
theorem Numbered.tokens_eq_nil {w : World} (h : Numbered w) {index : Nat}
    (absent : w.held? index = none) : w.tokens index = [] := by
  refine List.eq_nil_iff_forall_not_mem.mpr fun t member => ?_
  obtain ⟨r, there, token⟩ := mem_tokens.mp member
  have below := h.owned r there index t.generation (Run.token?_eq_some.mp token).1
  have taken := (isSome_held?_iff w index).mpr below
  rw [absent] at taken
  cases taken

/-- In a sound world the slot **in any place** tallies, whether there is a rule or not. -/
theorem Sound.tallies_slot {w w' : World} (sound : Sound w) (grows : Grows w w') {index : Nat}
    {r' : Registration} (entry : w'.held? index = some r') :
    (w.slot index).Tallies r'.rule.mode (w.tokens index) := by
  cases before : w.held? index with
  | none =>
    rw [slot, before, sound.tokens_eq_nil before]
    exact RunSlot.tallies_idle _
  | some r =>
    obtain ⟨later, there, rule, -⟩ := grows index r before
    obtain rfl : later = r' := Option.some.inj (there.symm.trans entry)
    rw [rule, slot_of_entry before]
    exact sound.tallies index r before

/-- A world **stays sound** when it is moved. -/
theorem Sound.of_moved {w w' : World} {accepted : Option Nat} {ended : Option Run}
    (sound : Sound w) (moved : Moved w w' accepted ended) : Sound w' where
  toNumbered := moved.numbered
  tallies index r' entry :=
    (moved.slots index r' entry).tallies (sound.tallies_slot moved.grows entry)
      fun _ => sound.run_lt

/-- The rule whose firing a move accepts. -/
def acceptedBy (w : World) : Move → Option Nat
  | .step => w.accepted?
  | .receive _ => none

/-- The run that a move ends. -/
def endedBy (w : World) : Move → Option Run
  | .step => w.ending?
  | .receive _ => none

/-- **Every move** of a sound world moves the slots as it was due to. -/
theorem Sound.move {w : World} (sound : Sound w) (exec : Executor) (m : Move) :
    Moved w (w.move exec m) (w.acceptedBy m) (w.endedBy m) := by
  cases m with
  | step => exact sound.moved (moveKind exec w .step)
  | receive s => exact sound.moved (moveKind exec w (.receive s))

/-- **A firing that is not accepted** leaves the runs and the slots as they are. -/
theorem ledger_step_of_refused (exec : Executor) {w : World} {index : Nat} {r : Registration}
    (firing : w.firing? = some index) (registered : w.registrations[index]? = some r)
    (refused : w.takes r = false) : ∃ stack, (w.step exec).ledger = { w.ledger with stack } := by
  have kind := stepKind exec w
  rw [firing] at kind
  generalize w.ending? = ended at kind
  cases kind with
  | @acts u _ same registrations store done =>
    cases done with
    | @fires v _ frames plain same' registrations' store' done =>
      have there : v.registrations[index]? = some r := by rw [registrations', registrations, registered]
      have takes : v.takes r = false := by rw [← refused, takes, takes, store', store]
      rw [ledger_fire v there, takes, same', same] at done
      exact ⟨_, done⟩

/-- A world in which nothing happened yet is sound. -/
theorem sound_empty (wallClock : Timestamp) : Sound (empty wallClock) where
  ascending := .nil
  bounded := fun _ member => by cases member
  owned := fun _ member => by cases member
  tallies := fun _ _ entry => by cases entry

/-- Sound worlds stay sound **in every history**. -/
theorem Sound.after {exec : Executor} {w : World} (sound : Sound w) (moves : List Move) :
    Sound (w.after exec moves) :=
  after_induct (fun _ m sound => sound.of_moved (sound.move exec m)) sound moves

end World

end RuleDispatch
