import RuleDispatch.Proofs.Dispatch.Edits

/-! # Registrations, one by one

Every subscription is a registration of its own: it gets the next number, also when its handler is on the bus
already, and stands until it is taken back by that number under its own name. What is on the bus can be read
off from the edits that were made, wherever they came from. Laid out by name, as a table of lists, the bus
never stores an empty list.

* `Stands`, `Live` — the registrations that some edits leave, and their numbers.
* `Bus.mem_foldl_edit_iff`, `Bus.Numbered` — they are what is on the bus, in the order of their numbers.
* `Bus.Numbered.subscribers_unsubscribe`, `Bus.Gone`, `Bus.subscribers_foldl_edit` — one of them taken back,
  and what becomes of it and of the others.
* `Channels`, `Channels.Shows` — the bus as a table of lists.
* `Bus.registers_foldl_edit`, `registrations_go_one_by_one` — after any edits, and in any history. -/

namespace RuleDispatch

/-! ## 1. What stands -/

/-- Whether an edit **makes a registration**. -/
def Edit.registers : Edit → Bool
  | .subscribe _ _ => true
  | .unsubscribe _ _ | .listenNumber _ | .listenText _ | .unlisten _ | .setNumber _ _ | .setText _ _ => false

/-- How many registrations some edits make. -/
def registrationsMade (es : List Edit) : Nat :=
  es.countP Edit.registers

/-- A registration **stands** after some edits: one of them made it, it is numbered by those before it, and
none after it takes it back. -/
def Stands (es : List Edit) (s : Subscriber Handler) : Prop :=
  ∃ past later, es = past ++ .subscribe s.name s.handler :: later ∧ registrationsMade past = s.id
    ∧ .unsubscribe s.name s.id ∉ later

/-- A number is **live** under a name: it is that of a registration under this name that stands. -/
def Live (es : List Edit) (name : String) (id : Nat) : Prop :=
  ∃ handler, Stands es ⟨name, id, handler⟩

/-- One more edit makes a registration, or takes one back, or **lets all of them stand**. -/
theorem stands_concat {es : List Edit} {e : Edit} {s : Subscriber Handler} :
    Stands (es ++ [e]) s
      ↔ (Stands es s ∧ e ≠ .unsubscribe s.name s.id)
        ∨ (e = .subscribe s.name s.handler ∧ registrationsMade es = s.id) := by
  constructor
  · rintro ⟨past, later, made, number, kept⟩
    -- the edit that made it is the last one, or the last one comes later
    rcases List.eq_nil_or_concat later with rfl | ⟨later, last, rfl⟩
    · obtain ⟨rfl, same⟩ := List.append_inj' made rfl
      exact .inr ⟨(List.cons.inj same).1, number⟩
    · rw [List.concat_eq_append, ← List.cons_append, ← List.append_assoc] at made
      obtain ⟨rfl, same⟩ := List.append_inj' made rfl
      obtain rfl := (List.cons.inj same).1
      rw [List.concat_eq_append, List.mem_append, not_or, List.mem_singleton] at kept
      exact .inl ⟨⟨past, later, rfl, number, kept.1⟩, fun back => kept.2 back.symm⟩
  · rintro (⟨⟨past, later, rfl, number, kept⟩, other⟩ | ⟨rfl, number⟩)
    · refine ⟨past, later ++ [e], by simp, number, ?_⟩
      rw [List.mem_append, not_or, List.mem_singleton]
      exact ⟨kept, other.symm⟩
    · exact ⟨es, [], rfl, number, List.not_mem_nil⟩

namespace Bus

variable {b : Bus Handler}

/-- Numbers are given out **one after another**. -/
theorem nextId_foldl_edit (b : Bus Handler) (es : List Edit) :
    (es.foldl edit b).nextId = b.nextId + registrationsMade es := by
  induction es generalizing b with
  | nil => rfl
  | cons e rest ih =>
    rw [List.foldl_cons, ih, registrationsMade, registrationsMade, List.countP_cons]
    cases e with
    | subscribe name handler =>
      show b.nextId + 1 + _ = b.nextId + (_ + 1)
      omega
    | unsubscribe | listenNumber | listenText | unlisten | setNumber | setText => rfl

/-- Taking back leaves what has **another name or another number**. -/
theorem mem_unsubscribe_iff {name : String} {id : Nat} {s : Subscriber Handler} :
    s ∈ (b.unsubscribe name id).subscribers ↔ s ∈ b.subscribers ∧ ¬ (s.name = name ∧ s.id = id) := by
  rw [unsubscribe, List.mem_filter]
  simp only [← Bool.decide_and, Bool.not_eq_eq_eq_not, Bool.not_true, decide_eq_false_iff_not]

/-- On the bus is **what stands**. -/
theorem mem_foldl_edit_iff (es : List Edit) (s : Subscriber Handler) :
    s ∈ (es.foldl edit {}).subscribers ↔ Stands es s := by
  induction es using List.reverseRecOn with
  | nil =>
    refine iff_of_false List.not_mem_nil ?_
    rintro ⟨past, later, made, -⟩
    simp at made
  | append_singleton es e ih =>
    rw [List.foldl_append, stands_concat, ← ih]
    have next := nextId_foldl_edit {} es
    generalize es.foldl edit {} = b at next ⊢
    cases e with
    | subscribe name handler =>
      show s ∈ b.subscribers ++ [⟨name, b.nextId, handler⟩] ↔ _
      rw [List.mem_append, List.mem_singleton]
      refine or_congr (by simp) ?_
      obtain ⟨other, id, handler'⟩ := s
      have number : b.nextId = registrationsMade es := next.trans (Nat.zero_add _)
      simp only [number, Subscriber.mk.injEq, Edit.subscribe.injEq]
      exact ⟨fun ⟨n, i, h⟩ => ⟨⟨n.symm, h.symm⟩, i.symm⟩, fun ⟨⟨n, h⟩, i⟩ => ⟨n.symm, i.symm, h.symm⟩⟩
    | unsubscribe name id =>
      refine mem_unsubscribe_iff.trans ?_
      simp [eq_comm]
    | listenNumber | listenText | unlisten | setNumber | setText =>
      simp [edit]

/-- Whether a number is held under a name shows **on the bus**. -/
theorem holds_iff {name : String} {id : Nat} :
    b.holds name id = true ↔ ∃ handler, ⟨name, id, handler⟩ ∈ b.subscribers := by
  rw [holds, List.any_eq_true]
  constructor
  · rintro ⟨⟨other, number, handler⟩, member, same⟩
    simp only [Bool.and_eq_true, decide_eq_true_eq] at same
    obtain ⟨rfl, rfl⟩ := same
    exact ⟨handler, member⟩
  · rintro ⟨handler, member⟩
    exact ⟨_, member, by simp⟩

/-- Whether a number is held is whether it is **live**. -/
theorem holds_foldl_edit_iff (es : List Edit) (name : String) (id : Nat) :
    (es.foldl edit {}).holds name id = true ↔ Live es name id := by
  rw [holds_iff]
  exact exists_congr fun handler => mem_foldl_edit_iff es _

/-! ## 2. Numbers -/

/-- A bus is **numbered** when its registrations stand in the order of their numbers, all of which were
given out. -/
structure Numbered (b : Bus Handler) : Prop where
  ordered : b.subscribers.Pairwise fun s t => s.id < t.id
  given : ∀ s ∈ b.subscribers, s.id < b.nextId

/-- An empty bus **is numbered**. -/
theorem numbered_empty : Numbered {} :=
  ⟨.nil, nofun⟩

/-- An edit leaves a bus **numbered**. -/
theorem Numbered.edit (h : Numbered b) (e : Edit) : Numbered (b.edit e) := by
  cases e with
  | subscribe name handler =>
    refine ⟨?_, fun s member => ?_⟩
    · refine List.pairwise_append.mpr ⟨h.ordered, List.pairwise_singleton _ _, ?_⟩
      rintro s old t new
      rw [List.mem_singleton.mp new]
      exact h.given s old
    · rcases List.mem_append.mp member with old | new
      · exact (h.given s old).trans (Nat.lt_succ_self _)
      · rw [List.mem_singleton.mp new]
        exact Nat.lt_succ_self _
  | unsubscribe name id =>
    exact ⟨h.ordered.filter _, fun s member => h.given s (mem_unsubscribe_iff.mp member).1⟩
  | listenNumber | listenText | unlisten | setNumber | setText => exact h

/-- So do **several edits**. -/
theorem Numbered.foldl_edit (h : Numbered b) (es : List Edit) : Numbered (es.foldl Bus.edit b) := by
  induction es generalizing b with
  | nil => exact h
  | cons e rest ih => exact ih (h.edit e)

/-- A number is that of **one registration at most**. -/
theorem Numbered.nodup (h : Numbered b) : (b.subscribers.map (·.id)).Nodup :=
  List.pairwise_map.mpr (h.ordered.imp Nat.ne_of_lt)

/-- Registrations with one number **are one**. -/
theorem Numbered.eq_of_id_eq (h : Numbered b) {s t : Subscriber Handler} (here : s ∈ b.subscribers)
    (there : t ∈ b.subscribers) (same : s.id = t.id) : s = t :=
  List.inj_on_of_nodup_map h.nodup here there same

/-- Taking back takes out **that registration alone**. -/
theorem Numbered.subscribers_unsubscribe (h : Numbered b) {s : Subscriber Handler}
    {before after : List (Subscriber Handler)} (here : b.subscribers = before ++ s :: after) :
    (b.unsubscribe s.name s.id).subscribers = before ++ after := by
  have once := h.nodup
  rw [here, List.map_append, List.map_cons, List.nodup_middle, List.nodup_cons, ← List.map_append]
    at once
  have others (t : Subscriber Handler) (member : t ∈ before ++ after) : t.id ≠ s.id :=
    fun same => once.1 (List.mem_map.mpr ⟨t, member, same⟩)
  rw [unsubscribe, here, List.filter_append, List.filter_cons_of_neg (by simp), ← List.filter_append,
    List.filter_eq_self.mpr fun t member => by simp [others t member]]

/-- A number is **gone** when it was given out and no registration has it. -/
structure Gone (b : Bus Handler) (id : Nat) : Prop where
  given : id < b.nextId
  nobody : ∀ s ∈ b.subscribers, s.id ≠ id

/-- Edits give new numbers out, so **what is gone stays gone**. -/
theorem Gone.edit {id : Nat} (h : b.Gone id) (e : Edit) : (b.edit e).Gone id := by
  cases e with
  | subscribe name handler =>
    refine ⟨h.given.trans (Nat.lt_succ_self _), fun s member => ?_⟩
    rcases List.mem_append.mp member with old | new
    · exact h.nobody s old
    · rw [List.mem_singleton.mp new]
      exact Nat.ne_of_gt h.given
  | unsubscribe name number =>
    exact ⟨h.given, fun s member => h.nobody s (mem_unsubscribe_iff.mp member).1⟩
  | listenNumber | listenText | unlisten | setNumber | setText => exact h

/-- What is gone **stays gone**, whatever the edits. -/
theorem Gone.foldl_edit {id : Nat} (h : b.Gone id) (es : List Edit) : (es.foldl Bus.edit b).Gone id := by
  induction es generalizing b with
  | nil => exact h
  | cons e rest ih => exact ih (h.edit e)

/-- What is gone is **under no name**. -/
theorem Gone.not_holds {id : Nat} (h : b.Gone id) (name : String) : b.holds name id = false := by
  refine Bool.eq_false_iff.mpr fun held => ?_
  obtain ⟨handler, member⟩ := holds_iff.mp held
  exact h.nobody _ member rfl

/-- Taking back **a number that is held** makes it go. -/
theorem Numbered.gone_unsubscribe (h : Numbered b) {name : String} {id : Nat}
    (held : b.holds name id = true) : (b.unsubscribe name id).Gone id := by
  obtain ⟨handler, member⟩ := holds_iff.mp held
  refine ⟨h.given _ member, fun s there same => ?_⟩
  -- no other registration has the number, and this one was taken back
  obtain ⟨old, apart⟩ := mem_unsubscribe_iff.mp there
  obtain rfl := h.eq_of_id_eq old member same
  exact apart ⟨rfl, rfl⟩

/-- Whatever edits follow, what is left of the registrations **keeps its order**, and new ones come after it. -/
theorem subscribers_foldl_edit (b : Bus Handler) (later : List Edit) :
    ∃ kept new, (later.foldl edit b).subscribers = kept ++ new ∧ kept.Sublist b.subscribers
      ∧ ∀ s ∈ new, b.nextId ≤ s.id := by
  induction later using List.reverseRecOn with
  | nil => exact ⟨b.subscribers, [], (List.append_nil _).symm, List.Sublist.refl _, by simp⟩
  | append_singleton es e ih =>
    rw [List.foldl_append]
    have next := nextId_foldl_edit b es
    generalize es.foldl edit b = now at next ih ⊢
    obtain ⟨kept, new, split, less, fresh⟩ := ih
    cases e with
    | subscribe name handler =>
      refine ⟨kept, new ++ [⟨name, now.nextId, handler⟩], ?_, less, fun s member => ?_⟩
      · show now.subscribers ++ _ = _
        rw [split, List.append_assoc]
      · rcases List.mem_append.mp member with old | last
        · exact fresh s old
        · rw [List.mem_singleton.mp last]
          exact next ▸ Nat.le_add_right _ _
    | unsubscribe name id =>
      exact ⟨_, _, (congrArg (List.filter _) split).trans (List.filter_append _ _),
        List.filter_sublist.trans less, fun s member => fresh s (List.mem_filter.mp member).1⟩
    | listenNumber | listenText | unlisten | setNumber | setText => exact ⟨kept, new, split, less, fresh⟩

/-! ## 3. Laid out by name -/

/-- The **numbers and handlers** of a name. -/
def entries (b : Bus Handler) (name : String) : List (Nat × Handler) :=
  (b.subscribers.filter (·.name = name)).map fun s => (s.id, s.handler)

/-- A new registration comes **last under its name**, and under no other. -/
theorem entries_subscribe (b : Bus Handler) (name other : String) (handler : Handler) :
    (b.subscribe name handler).entries other
      = if other = name then b.entries name ++ [(b.nextId, handler)] else b.entries other := by
  split_ifs with same
  · simp [entries, subscribe, same]
  · simp [entries, subscribe, Ne.symm same]

/-- A registration that is taken back is gone **from under its name**, and from no other. -/
theorem entries_unsubscribe (b : Bus Handler) (name other : String) (id : Nat) :
    (b.unsubscribe name id).entries other
      = if other = name then (b.entries name).filter (·.1 ≠ id) else b.entries other := by
  unfold entries unsubscribe
  rw [List.filter_filter]
  split_ifs with same
  · rw [List.filter_map, List.filter_filter]
    refine congrArg _ (List.filter_congr fun s _ => ?_)
    by_cases here : s.name = name <;> simp [here, same]
  · refine congrArg _ (List.filter_congr fun s _ => ?_)
    by_cases here : s.name = other <;> simp [here, same]

/-- There are **as many entries as are counted**. -/
theorem length_entries (b : Bus Handler) (name : String) : (b.entries name).length = b.count name :=
  List.length_map _

/-- A number is among the entries of a name **if it is held there**. -/
theorem any_entries (b : Bus Handler) (name : String) (id : Nat) :
    (b.entries name).any (·.1 = id) = b.holds name id := by
  rw [entries, List.any_map, List.any_filter]
  rfl

/-- A name has as many registrations as **numbers are held under it**. -/
theorem Numbered.count_eq_ncard (h : Numbered b) (name : String) :
    b.count name = {id | b.holds name id = true}.ncard := by
  have held : {id | b.holds name id = true} = ((b.entries name).map Prod.fst).toFinset := by
    ext id
    rw [Set.mem_ofPred_eq, ← any_entries]
    simp
  have nodup : ((b.entries name).map Prod.fst).Nodup := by
    rw [entries, List.map_map]
    exact h.nodup.sublist (List.filter_sublist.map _)
  rw [held, Set.ncard_coe_finset, List.toFinset_card_of_nodup nodup, List.length_map, length_entries]

end Bus

/-- The bus **laid out by name**: a list of numbers and handlers for each name. -/
structure Channels where
  lists : Keyed (List (Nat × Handler)) := []
  nextId : Nat := 0

namespace Channels

variable {c : Channels} {b : Bus Handler}

/-- The list **stored** under a name; there may be none. -/
def under (c : Channels) (name : String) : List (Nat × Handler) :=
  (c.lists.lookup name).getD []

/-- How many a name has. -/
def count (c : Channels) (name : String) : Nat :=
  (c.lists.lookup name).elim 0 List.length

/-- A registration **added** to the list of its name, which is put in if it is not there. -/
def subscribe (c : Channels) (name : String) (handler : Handler) : Channels :=
  { lists := c.lists.put name (c.under name ++ [(c.nextId, handler)]), nextId := c.nextId + 1 }

/-- A registration **taken back**, and whether the list of its name became shorter by that. A list that
became empty is taken out. -/
def unsubscribe (c : Channels) (name : String) (id : Nat) : Bool × Channels :=
  match c.lists.lookup name with
  | none => (false, c)
  | some held =>
    let left := held.filter (·.1 ≠ id)
    (left.length ≠ held.length,
      { c with lists := if left.isEmpty then c.lists.remove name else c.lists.put name left })

/-- The table **after an edit**. -/
def edit (c : Channels) : Edit → Channels
  | .subscribe name handler => c.subscribe name handler
  | .unsubscribe name id => (c.unsubscribe name id).2
  | .listenNumber _ | .listenText _ | .unlisten _ | .setNumber _ _ | .setText _ _ => c

/-- A table **shows a bus** when it has the lists of its names, and stores none that is empty. -/
structure Shows (c : Channels) (b : Bus Handler) : Prop where
  lists : ∀ name, c.under name = b.entries name
  stored : ∀ entry ∈ c.lists, entry.2 ≠ []
  nextId : c.nextId = b.nextId

/-- A table without lists **shows an empty bus**. -/
theorem shows_empty : Shows {} {} :=
  ⟨fun _ => rfl, nofun, rfl⟩

/-- What is stored under a name is **all that the name has**, and that is something. -/
theorem Shows.lookup_eq_some_iff (h : c.Shows b) {name : String} {held : List (Nat × Handler)} :
    c.lists.lookup name = some held ↔ b.entries name = held ∧ held ≠ [] := by
  have list := h.lists name
  unfold under at list
  cases found : c.lists.lookup name with
  | none =>
    rw [found, Option.getD_none] at list
    refine iff_of_false nofun ?_
    rintro ⟨rfl, some⟩
    exact some list.symm
  | some stored =>
    rw [found, Option.getD_some] at list
    rw [← list, Option.some.injEq]
    refine ⟨?_, And.left⟩
    rintro rfl
    exact ⟨rfl, h.stored _ (Keyed.mem_of_lookup found)⟩

/-- A table has no list for a name **exactly if nobody is registered** under it. -/
theorem Shows.lookup_eq_none_iff (h : c.Shows b) {name : String} :
    c.lists.lookup name = none ↔ b.entries name = [] := by
  constructor
  · intro none
    rw [← h.lists, under, none, Option.getD_none]
  · intro empty
    cases found : c.lists.lookup name with
    | none => rfl
    | some held =>
      obtain ⟨same, some⟩ := h.lookup_eq_some_iff.mp found
      exact absurd (same.symm.trans empty) some

/-- Both **count** the same. -/
theorem Shows.count_eq (h : c.Shows b) (name : String) : c.count name = b.count name := by
  rw [← Bus.length_entries, ← h.lists, count, under]
  cases c.lists.lookup name <;> rfl

/-- The names that are heard at all are those for which **something is stored**. -/
theorem Shows.mem_channels_iff (h : c.Shows b) {name : String} :
    name ∈ b.channels ↔ ∃ held, c.lists.lookup name = some held := by
  have heard : name ∈ b.channels ↔ b.entries name ≠ [] := by
    rw [Bus.channels, List.mem_eraseDups, List.mem_map, Bus.entries, ne_eq, List.map_eq_nil_iff,
      List.filter_eq_nil_iff]
    simp
  rw [heard]
  refine ⟨fun some => ⟨_, h.lookup_eq_some_iff.mpr ⟨rfl, some⟩⟩, ?_⟩
  rintro ⟨held, found⟩
  obtain ⟨rfl, some⟩ := h.lookup_eq_some_iff.mp found
  exact some

/-- Both **answer** the same when a registration is taken back. -/
theorem Shows.unsubscribe_fst (h : c.Shows b) (name : String) (id : Nat) :
    (c.unsubscribe name id).1 = b.holds name id := by
  rw [← Bus.any_entries, unsubscribe]
  cases found : c.lists.lookup name with
  | none => rw [h.lookup_eq_none_iff.mp found, List.any_nil]
  | some held =>
    obtain ⟨rfl, -⟩ := h.lookup_eq_some_iff.mp found
    rw [Bool.eq_iff_iff, decide_eq_true_iff, ne_eq, List.length_filter_eq_length_iff, List.any_eq_true]
    simp

/-- A table shows the bus **with one registration more**. -/
theorem Shows.subscribe (h : c.Shows b) (name : String) (handler : Handler) :
    (c.subscribe name handler).Shows (b.subscribe name handler) where
  lists other := by
    rw [Bus.entries_subscribe, ← h.lists, ← h.lists, ← h.nextId, under, Channels.subscribe,
      Keyed.lookup_put]
    split_ifs <;> rfl
  stored entry member := by
    rcases Keyed.eq_or_mem_of_mem_put member with rfl | old
    · exact List.append_ne_nil_of_right_ne_nil _ nofun
    · exact h.stored entry old
  nextId := congrArg (· + 1) h.nextId

/-- A table shows the bus **with one registration less**. -/
theorem Shows.unsubscribe (h : c.Shows b) (name : String) (id : Nat) :
    (c.unsubscribe name id).2.Shows (b.unsubscribe name id) := by
  unfold Channels.unsubscribe
  cases found : c.lists.lookup name with
  | none =>
    -- nothing is stored under the name, so nothing is there to be taken back
    have none : b.holds name id = false := by
      rw [← Bus.any_entries, h.lookup_eq_none_iff.mp found, List.any_nil]
    rw [Bus.unsubscribe_of_not_holds b none]
    exact h
  | some held =>
    obtain ⟨rfl, -⟩ := h.lookup_eq_some_iff.mp found
    refine ⟨fun other => ?_, fun entry member => ?_, h.nextId⟩
    · rw [Bus.entries_unsubscribe, ← h.lists other, under]
      dsimp only
      split_ifs with empty same same
      · rw [Keyed.lookup_remove, if_pos same, Option.getD_none, List.isEmpty_iff.mp empty]
      · rw [Keyed.lookup_remove, if_neg same, under]
      · rw [Keyed.lookup_put, if_pos same, Option.getD_some]
      · rw [Keyed.lookup_put, if_neg same, under]
    · dsimp only at member
      split_ifs at member with empty
      · exact h.stored entry (Keyed.mem_of_mem_remove member)
      · rcases Keyed.eq_or_mem_of_mem_put member with rfl | old
        · exact fun none => empty (List.isEmpty_iff.mpr none)
        · exact h.stored entry old

/-- A table shows the bus **after every edit**. -/
theorem Shows.edit (h : c.Shows b) (e : Edit) : (c.edit e).Shows (b.edit e) := by
  cases e with
  | subscribe name handler => exact h.subscribe name handler
  | unsubscribe name id => exact h.unsubscribe name id
  | listenNumber | listenText | unlisten | setNumber | setText => exact h

/-- A table goes on showing the bus **whatever edits are made**. -/
theorem Shows.foldl_edit (h : c.Shows b) (es : List Edit) :
    (es.foldl Channels.edit c).Shows (es.foldl Bus.edit b) := by
  induction es generalizing c b with
  | nil => exact h
  | cons e rest ih => exact ih (h.edit e)

end Channels

/-! ## 4. After any edits, and in any history -/

/-- A table that shows a bus **answers as the bus does**. -/
structure Channels.Serves (c : Channels) (b : Bus Handler) : Prop extends c.Shows b where
  /-- It counts the same. -/
  count : ∀ name, c.count name = b.count name
  /-- It answers the same when something is taken back. -/
  unsubscribe : ∀ name id, (c.unsubscribe name id).1 = b.holds name id
  /-- The names heard at all are those for which something is stored. -/
  channels : ∀ name, name ∈ b.channels ↔ ∃ held, c.lists.lookup name = some held

/-- **What is so of a bus** on which these edits were made. -/
structure Bus.Registers (b : Bus Handler) (es : List Edit) : Prop where
  /-- On it are the registrations that stand, in the order of their numbers. -/
  standing : ∀ s, s ∈ b.subscribers ↔ Stands es s
  /-- They come in the order of their numbers. -/
  ordered : b.subscribers.Pairwise fun s t => s.id < t.id
  /-- A name has as many as there are numbers live under it. -/
  count : ∀ name, b.count name = {id | Live es name id}.ncard
  /-- Taking back is answered with yes for a number that is live under just that name. -/
  holds : ∀ name id, b.holds name id = true ↔ Live es name id
  /-- It takes out that registration alone. -/
  removes : ∀ name id, Live es name id → ∃ before handler after,
    b.subscribers = before ++ ⟨name, id, handler⟩ :: after
      ∧ (b.unsubscribe name id).subscribers = before ++ after
  /-- It does nothing with another name, or with a number that is not live. -/
  ignores : ∀ name id, ¬ Live es name id → b.unsubscribe name id = b
  /-- What was taken back is not taken back again, whatever happens, under no name. -/
  once : ∀ name id, Live es name id → ∀ (later : List Edit) (other : String),
    (later.foldl Bus.edit (b.unsubscribe name id)).holds other id = false
  /-- What is left after further edits keeps its order, and new registrations come after it. -/
  order : ∀ later : List Edit, ∃ kept new, (later.foldl Bus.edit b).subscribers = kept ++ new
    ∧ kept.Sublist b.subscribers ∧ ∀ s ∈ new, b.nextId ≤ s.id
  /-- The table of lists on which the edits are made, and which stores no empty list, does the same. -/
  table : (es.foldl Channels.edit {}).Serves b

/-- **After any edits** the registrations that stand are those on the bus. -/
theorem Bus.registers_foldl_edit (es : List Edit) : (es.foldl Bus.edit {}).Registers es := by
  have standing := Bus.mem_foldl_edit_iff es
  have holds := Bus.holds_foldl_edit_iff es
  have numbered := Bus.numbered_empty.foldl_edit es
  have shown := Channels.shows_empty.foldl_edit es
  generalize es.foldl Bus.edit {} = b at *
  exact
    { standing
      ordered := numbered.ordered
      count := fun name => by
        simp only [← holds]
        exact numbered.count_eq_ncard name
      holds
      removes := fun name id live => by
        obtain ⟨handler, stands⟩ := live
        -- a registration that is alive stands in one place on the bus, where it is taken out
        obtain ⟨before, after, here⟩ := List.append_of_mem ((standing _).mpr stands)
        exact ⟨before, handler, after, here, numbered.subscribers_unsubscribe here⟩
      ignores := fun name id dead =>
        b.unsubscribe_of_not_holds (Bool.eq_false_iff.mpr fun held => dead ((holds name id).mp held))
      once := fun name id live later other =>
        ((numbered.gone_unsubscribe ((holds name id).mpr live)).foldl_edit later).not_holds other
      order := b.subscribers_foldl_edit
      table :=
        { shown with
          count := shown.count_eq
          unsubscribe := shown.unsubscribe_fst
          channels := fun name => shown.mem_channels_iff } }

/-- **Registrations go one by one**, in every history, whatever rules, watchers and callbacks subscribe and
take back on the way, and whatever is asked of the bus directly after it. Whoever asks for a count, or takes
a registration back, is told so, while events are being delivered as well. -/
theorem registrations_go_one_by_one (exec : Executor) (wallClock : Timestamp) (moves : List Move)
    (direct : List Edit) :
    let w := (World.empty wallClock).after exec moves
    let done := World.editsDone exec (.empty wallClock) moves
    (direct.foldl Bus.edit w.bus).Registers (done ++ direct)
      ∧ (∀ name below, w.stack = .perform (.subscribers name) :: below →
          (w.step exec).answer = .count {id | Live done name id}.ncard ∧ (w.step exec).bus = w.bus)
      ∧ ∀ label other name id handler below, w.stack = .perform (.unsubscribe label other) :: below →
          w.labels.subscriptions.lookup label = some (name, id, handler) →
          ∃ yes, (w.step exec).answer = .flag yes ∧ (yes = true ↔ Live done (other.getD name) id)
            ∧ (w.step exec).bus = w.bus.unsubscribe (other.getD name) id := by
  intro w done
  have now : w.bus = done.foldl Bus.edit {} := (World.edited_after exec (.empty wallClock) moves).bus
  have before := Bus.registers_foldl_edit done
  rw [← now] at before
  refine ⟨?_, fun name below stack => ?_, fun label other name id handler below stack held => ?_⟩
  · rw [now, ← List.foldl_append]
    exact Bus.registers_foldl_edit (done ++ direct)
  · rw [World.step, stack, ← before.count name]
    exact ⟨rfl, rfl⟩
  · refine ⟨w.bus.holds (other.getD name) id, ?_⟩
    rw [World.step, stack]
    show (World.perform _ (.unsubscribe label other)).answer = _ ∧ _
      ∧ (World.perform _ (.unsubscribe label other)).bus = _
    simp only [World.perform, held]
    exact ⟨rfl, before.holds _ id, rfl⟩

/-- A callback that subscribes its own handler once more when it is called, and then takes itself back. -/
def rung : List Move :=
  Move.played (.operation (.subscribe "bell" "ring"
      ⟨[.subscribeAgain "again" "bell" "ring", .unsubscribe "bell" none], 1⟩)) 1
    ++ Move.played (.operation (.emit "ring" none .null)) 4

/-- It is told that it was there, and the second registration of its handler stays. -/
theorem registrations_go_one_by_one_rung :
    let w := (World.empty .first).after noEffects rung
    (w.step noEffects).answer = .flag true
      ∧ (w.step noEffects).bus.subscribers.map (·.id) = [1] := by
  intro w
  have done : World.editsDone noEffects (.empty .first) rung
      = [.subscribe "ring" (.target (.callback 0)), .subscribe "ring" (.target (.callback 0))] := by
    cbv
  have stack : w.stack = .perform (.unsubscribe "bell" none) :: w.stack.tail := by cbv
  have held : w.labels.subscriptions.lookup "bell" = some ("ring", 0, .target (.callback 0)) := by cbv
  obtain ⟨-, -, taken⟩ := registrations_go_one_by_one noEffects .first rung []
  obtain ⟨yes, answer, yes_iff, left⟩ := taken _ _ _ _ _ _ stack held
  rw [done] at yes_iff
  have live : yes = true := yes_iff.mpr ⟨.target (.callback 0), [], _, rfl, rfl, by simp⟩
  refine ⟨live ▸ answer, ?_⟩
  rw [left]
  cbv

end RuleDispatch
