import RuleDispatch.Proofs.Dispatch.Origins
import RuleDispatch.Proofs.Dispatch.Rounds

/-! # Writes and the store

A value that is written is there before anyone is told of it. Those are told who listen at that moment,
each once and in order, with what was written, though one of them may have written something else in the
meantime. Numbers and texts do not meddle with each other, nothing that was written is ever gone, and a
listener is taken out once at most.

* `Edit.number?`, `Edit.text?` — what an edit writes to an entity.
* `Store.takenOut` — the listeners that some edits take out.
* `StoreAfter`, `World.storeAfter` — what is so at any point of any history. -/

namespace RuleDispatch

namespace Edit

/-- The number that an edit **writes to an entity**. -/
def number? (key : String) : Edit → Option Float
  | .setNumber other value => if key = other then some value else none
  | .subscribe _ _ | .unsubscribe _ _ | .listenNumber _ | .listenText _ | .unlisten _
  | .setText _ _ => none

/-- The text that an edit writes to an entity. -/
def text? (key : String) : Edit → Option String
  | .setText other value => if key = other then some value else none
  | .subscribe _ _ | .unsubscribe _ _ | .listenNumber _ | .listenText _ | .unlisten _
  | .setNumber _ _ => none

end Edit

/-- What an edit **tells**: the value that it writes. -/
def Edit.notice? : Edit → Option Notice
  | .setNumber key value => some (.number key value)
  | .setText key value => some (.text key value)
  | .subscribe _ _ | .unsubscribe _ _ | .listenNumber _ | .listenText _ | .unlisten _ => none

/-! ## 1. Where values are written -/

/-- What only moves subscriptions and listeners about **tells nothing**. -/
theorem Edit.moving_notice? : Edit.Moving fun e => e.notice? = none where
  subscribe _ _ := rfl
  unsubscribe _ _ := rfl
  listenNumber _ := rfl
  listenText _ := rfl
  unlisten _ := rfl

namespace World

/-- A line of the console that **writes** tells what it writes. -/
theorem lineNotice?_of_mem {stamp : Timestamp} {text : String} {e : Edit} {notice : Notice}
    (member : e ∈ Edits.line text) (writes : e.notice? = some notice) :
    lineNotice? stamp text = some notice := by
  unfold Edits.line at member
  unfold lineNotice?
  cases read : Command.read text with
  | error fault =>
    rw [read] at member
    cases member
  | ok command =>
    rw [read] at member
    cases command with
    | setNumber | setText =>
      obtain rfl := List.mem_singleton.mp member
      exact writes
    | emit | get => cases member

/-- **Whatever writes a value tells it**: the engine never writes. -/
theorem notice?_of_mem {w : World} {e : Edit} {notice : Notice} (member : e ∈ w.edits)
    (writes : e.notice? = some notice) : w.notice? = some notice := by
  unfold edits at member
  split at member
  · next op below stack =>
    rw [notice?, stack]
    by_cases quiet : op.writes = []
    -- edits of other operations write no values
    · have silent := Edits.all_perform Edit.moving_notice? { w with stack := below } op
        (quiet ▸ Edits.all_nil) fun _ _ _ _ _ _ => rfl
      rw [silent e member] at writes
      cases writes
    · cases op with
      | setNumber | setText =>
        obtain rfl := List.mem_singleton.mp member
        exact writes
      | line text => exact lineNotice?_of_mem member writes
      | _ => exact absurd rfl quiet
  · next lines shown below stack =>
    rw [notice?, stack]
    cases lines with
    | nil => cases member
    | cons line others =>
      cases line with
      | none => cases member
      | some text => exact lineNotice?_of_mem member writes
  · cases member

end World

namespace Store

variable {s : Store NumberListener Nat}

/-! ## 2. Values -/

/-- What was **written last** by way of some kind of edits, or was there before. -/
theorem foldl_edit_eq {α : Type} (read : Store NumberListener Nat → Option α)
    (written? : Edit → Option α) (each : ∀ s e, read (s.edit e) = (written? e).or (read s))
    (es : List Edit) (s : Store NumberListener Nat) :
    read (es.foldl edit s) = (es.filterMap written?).getLast?.or (read s) := by
  induction es generalizing s with
  | nil => rfl
  | cons e rest ih =>
    rw [List.foldl_cons, ih, each]
    cases written : written? e with
    | none => rw [List.filterMap_cons_none written, Option.none_or]
    | some a =>
      rw [List.filterMap_cons_some written, List.getLast?_cons]
      cases (rest.filterMap written?).getLast? <;> rfl

/-- After an edit a number is **what the edit wrote**, or else what it was. -/
theorem number?_edit (key : String) (s : Store NumberListener Nat) (e : Edit) :
    (s.edit e).number? key = (e.number? key).or (s.number? key) := by
  cases e with
  | setNumber other value =>
    refine (number?_setNumber s other key value).trans ?_
    rw [Edit.number?]
    split_ifs <;> rfl
  | subscribe | unsubscribe | listenNumber | listenText | unlisten | setText => rfl

/-- After an edit a text is **what the edit wrote**, or else what it was. -/
theorem text?_edit (key : String) (s : Store NumberListener Nat) (e : Edit) :
    (s.edit e).text? key = (e.text? key).or (s.text? key) := by
  cases e with
  | setText other value =>
    refine (text?_setText s other key value).trans ?_
    rw [Edit.text?]
    split_ifs <;> rfl
  | subscribe | unsubscribe | listenNumber | listenText | unlisten | setNumber => rfl

/-! ## 3. Listeners -/

/-- Listeners have **numbers that were given out**. -/
def Numbered (s : Store NumberListener Nat) : Prop :=
  ∀ id, s.listens id = true → id < s.nextId

/-- The numbers of the listeners that some edits **take out**: of those that listen when they are. -/
def takenOut : Store NumberListener Nat → List Edit → List Nat
  | _, [] => []
  | s, .unlisten id :: rest =>
    (if s.listens id then [id] else []) ++ takenOut (s.unlisten id) rest
  | s, e :: rest => takenOut (s.edit e) rest

/-- Whoever listens to numbers after one more does, **did so before, or is the new one**. -/
theorem listens_listenNumber (s : Store NumberListener Nat) (listener : NumberListener) (id : Nat) :
    (s.listenNumber listener).listens id = true ↔ s.listens id = true ∨ id = s.nextId := by
  simp only [listens, listenNumber, List.any_append, List.any_cons, List.any_nil, Bool.or_false,
    Bool.or_eq_true, decide_eq_true_eq]
  rw [or_right_comm, eq_comm (a := id)]

/-- Whoever listens to texts after one more does, **did so before, or is the new one**. -/
theorem listens_listenText (s : Store NumberListener Nat) (callback id : Nat) :
    (s.listenText callback).listens id = true ↔ s.listens id = true ∨ id = s.nextId := by
  simp only [listens, listenText, List.any_append, List.any_cons, List.any_nil, Bool.or_false,
    Bool.or_eq_true, decide_eq_true_eq]
  rw [or_assoc, eq_comm (a := id)]

/-- Whoever listens after one stopped **did so before, and is another**. -/
theorem listens_unlisten (s : Store NumberListener Nat) (id other : Nat) :
    (s.unlisten id).listens other = true ↔ s.listens other = true ∧ other ≠ id := by
  have each {α : Type} (listeners : List (Nat × α)) :
      (listeners.filter (·.1 ≠ id)).any (·.1 = other) = true
        ↔ listeners.any (·.1 = other) = true ∧ other ≠ id := by
    simp only [List.any_filter, List.any_eq_true, Bool.and_eq_true, decide_eq_true_eq]
    constructor
    · rintro ⟨l, member, apart, rfl⟩
      exact ⟨⟨l, member, rfl⟩, apart⟩
    · rintro ⟨⟨l, member, rfl⟩, apart⟩
      exact ⟨l, member, apart, rfl⟩
  simp only [listens, unlisten, Bool.or_eq_true, each, ← or_and_right]

/-- Numbers are **never given out again**. -/
theorem nextId_le_edit (s : Store NumberListener Nat) (e : Edit) : s.nextId ≤ (s.edit e).nextId := by
  cases e with
  | listenNumber | listenText => exact Nat.le_succ _
  | subscribe | unsubscribe | unlisten | setNumber | setText => exact Nat.le_refl _

/-- Numbers that were given out **are not given out again**, whatever the edits. -/
theorem nextId_le_foldl_edit (es : List Edit) (s : Store NumberListener Nat) :
    s.nextId ≤ (es.foldl edit s).nextId := by
  induction es generalizing s with
  | nil => exact Nat.le_refl _
  | cons e rest ih => exact (nextId_le_edit s e).trans (ih (s.edit e))

/-- An edit leaves listeners **with numbers that were given out**. -/
theorem Numbered.edit (h : Numbered s) (e : Edit) : Numbered (s.edit e) := by
  intro id listens
  cases e with
  | listenNumber listener =>
    rcases (listens_listenNumber s listener id).mp listens with old | rfl
    · exact (h id old).trans (Nat.lt_succ_self _)
    · exact Nat.lt_succ_self _
  | listenText callback =>
    rcases (listens_listenText s callback id).mp listens with old | rfl
    · exact (h id old).trans (Nat.lt_succ_self _)
    · exact Nat.lt_succ_self _
  | unlisten other => exact h id ((listens_unlisten s other id).mp listens).1
  | subscribe | unsubscribe | setNumber | setText => exact h id listens

/-- What edits take out listened **before, or was added** by them. -/
theorem Numbered.of_mem_takenOut (h : Numbered s) {es : List Edit} {id : Nat}
    (member : id ∈ s.takenOut es) : s.listens id = true ∨ s.nextId ≤ id := by
  induction es generalizing s with
  | nil => cases member
  | cons e rest ih =>
    have later (there : id ∈ (s.edit e).takenOut rest) :
        (s.edit e).listens id = true ∨ s.nextId ≤ id :=
      (ih (h.edit e) there).imp_right (nextId_le_edit s e).trans
    cases e with
    -- what is taken out here listens; what is taken out later did so before, too
    | unlisten other =>
      rcases List.mem_append.mp member with now | there
      · split_ifs at now with listens
        · rw [List.mem_singleton.mp now]
          exact .inl listens
        · cases now
      · exact (later there).imp_left fun listens => ((listens_unlisten s other id).mp listens).1
    | listenNumber listener =>
      rcases later member with listens | new
      · rcases (listens_listenNumber s listener id).mp listens with old | rfl
        · exact .inl old
        · exact .inr (Nat.le_refl _)
      · exact .inr new
    | listenText callback =>
      rcases later member with listens | new
      · rcases (listens_listenText s callback id).mp listens with old | rfl
        · exact .inl old
        · exact .inr (Nat.le_refl _)
      · exact .inr new
    | subscribe | unsubscribe | setNumber | setText => exact later member

/-- **A listener is taken out once at most.** -/
theorem Numbered.nodup_takenOut (h : Numbered s) (es : List Edit) : (s.takenOut es).Nodup := by
  induction es generalizing s with
  | nil => exact .nil
  | cons e rest ih =>
    cases e with
    | unlisten id =>
      have left : Numbered (s.unlisten id) := h.edit (.unlisten id)
      show ((if s.listens id then [id] else []) ++ (s.unlisten id).takenOut rest).Nodup
      split_ifs with listens
      · refine List.nodup_cons.mpr ⟨fun again => ?_, ih left⟩
        -- it listens no more, and its number was given out before
        rcases left.of_mem_takenOut again with still | new
        · exact ((listens_unlisten s id id).mp still).2 rfl
        · exact absurd (h id listens) (Nat.not_lt.mpr new)
      · exact ih left
    | subscribe | unsubscribe | listenNumber | listenText | setNumber | setText =>
      exact ih (h.edit _)

/-- Someone **listens still** after some edits who listened before or was added by them, and was not
taken out. -/
theorem Numbered.listens_foldl_edit (h : Numbered s) (es : List Edit) (id : Nat) :
    (es.foldl Store.edit s).listens id = true
      ↔ (s.listens id = true ∨ s.nextId ≤ id ∧ id < (es.foldl Store.edit s).nextId)
        ∧ id ∉ s.takenOut es := by
  induction es generalizing s with
  | nil =>
    have none : ¬ (s.nextId ≤ id ∧ id < s.nextId) := by omega
    simp [takenOut, none]
  | cons e rest ih =>
    have grows := nextId_le_foldl_edit rest (s.edit e)
    rw [List.foldl_cons, ih (h.edit e)]
    cases e with
    | listenNumber listener =>
      have next : (s.edit (.listenNumber listener)).nextId = s.nextId + 1 := rfl
      rw [next] at grows ⊢
      refine and_congr_left fun _ => ?_
      refine (or_congr_left (listens_listenNumber s listener id)).trans ?_
      rw [or_assoc]
      refine or_congr_right ?_
      omega
    | listenText callback =>
      have next : (s.edit (.listenText callback)).nextId = s.nextId + 1 := rfl
      rw [next] at grows ⊢
      refine and_congr_left fun _ => ?_
      refine (or_congr_left (listens_listenText s callback id)).trans ?_
      rw [or_assoc]
      refine or_congr_right ?_
      omega
    | unlisten other =>
      have next : (s.edit (.unlisten other)).nextId = s.nextId := rfl
      have out : id ∈ s.takenOut (.unlisten other :: rest)
          ↔ (s.listens id = true ∧ id = other) ∨ id ∈ (s.edit (.unlisten other)).takenOut rest := by
        show id ∈ (if s.listens other then [other] else []) ++ _ ↔ _
        rw [List.mem_append]
        refine or_congr_left ?_
        by_cases same : id = other
        · subst same
          split_ifs with listens <;> simp [listens]
        · split_ifs <;> simp [same]
      rw [next, out, show (s.edit (.unlisten other)).listens id = true ↔ _ from
        listens_unlisten s other id]
      refine ⟨fun ⟨there, kept⟩ => ⟨there.imp_left And.left, ?_⟩, fun ⟨there, kept⟩ => ⟨?_, ?_⟩⟩
      · rintro (⟨listens, same⟩ | later)
        · rcases there with still | new
          · exact still.2 same
          · -- a number that is yet to be given out is not that of a listener
            exact absurd (h id listens) (Nat.not_lt.mpr new.1)
        · exact kept later
      · exact there.imp_left fun listens => ⟨listens, fun same => kept (.inl ⟨listens, same⟩)⟩
      · exact fun later => kept (.inr later)
    | subscribe | unsubscribe | setNumber | setText => exact Iff.rfl

end Store

/-! ## 4. At any point of any history -/

/-- **What is so of the store** of a later world, when the edits in between are these. -/
structure StoreAfter (exec : Executor) (w : World) (done : List Edit) (later : World) : Prop where
  /-- A number is the one written last to its entity; texts do not matter. -/
  numbers : ∀ key, later.store.number? key
    = (done.filterMap (Edit.number? key)).getLast?.or (w.store.number? key)
  /-- A text is the one written last to its entity; numbers do not matter. -/
  texts : ∀ key, later.store.text? key
    = (done.filterMap (Edit.text? key)).getLast?.or (w.store.text? key)
  /-- What was there is never gone. -/
  stays : ∀ key, ((w.store.number? key).isSome = true → (later.store.number? key).isSome = true)
    ∧ ((w.store.text? key).isSome = true → (later.store.text? key).isSome = true)
  /-- A number that is written now is there before anyone is told. Told of it are the listeners to
  numbers that were added and not taken out, with what is written now, and nobody else. -/
  toldNumbers : ∀ key value, .setNumber key value ∈ later.edits →
    (later.step exec).store.number? key = some value
      ∧ ∃ base, Round exec base (later.step exec)
        ((done.foldl Store.edit w.store).hearNumbers.map (.number key value))
  /-- The same of a text and the listeners to texts. -/
  toldTexts : ∀ key value, .setText key value ∈ later.edits →
    (later.step exec).store.text? key = some value
      ∧ ∃ base, Round exec base (later.step exec)
        ((done.foldl Store.edit w.store).hearTexts.map (.text key value))
  /-- Taking a listener out now is answered with yes if it listened before or was added since, and
  was not taken out. -/
  answers : ∀ label id below, later.stack = .perform (.unlisten label) :: below →
    later.labels.listeners.lookup label = some id →
    ∃ yes, (later.step exec).answer = .flag yes
      ∧ (yes = true ↔ (w.store.listens id = true ∨ w.store.nextId ≤ id ∧ id < later.store.nextId)
        ∧ id ∉ w.store.takenOut done)
  /-- It was taken out once at most. -/
  once : (w.store.takenOut done).Nodup

namespace World

/-- **Writes and listeners at any point of any history**, whatever is done in between, by callbacks that
are being told of other writes as well. -/
theorem storeAfter (exec : Executor) (w : World) (numbered : w.store.Numbered) (past : List Move) :
    StoreAfter exec w (w.editsDone exec past) (w.after exec past) := by
  have now : (w.after exec past).store = (w.editsDone exec past).foldl Store.edit w.store :=
    (edited_after exec w past).store
  have numbers (key : String) := Store.foldl_edit_eq (fun s => s.number? key)
    (Edit.number? key) (Store.number?_edit key) (w.editsDone exec past) w.store
  have texts (key : String) := Store.foldl_edit_eq (fun s => s.text? key)
    (Edit.text? key) (Store.text?_edit key) (w.editsDone exec past) w.store
  rw [← now] at numbers texts
  exact
    { numbers
      texts
      stays := fun key => by
        rw [numbers, texts, Option.isSome_or, Option.isSome_or]
        exact ⟨fun there => by rw [there, Bool.or_true], fun there => by rw [there, Bool.or_true]⟩
      -- the write is the edit of this very step, and the round of those told begins with it
      toldNumbers := fun key value writes => by
        have tells := notice?_of_mem writes rfl
        have written := edited_step exec (w.after exec past)
        rw [edits_of_notice tells] at written
        refine ⟨?_, ?_⟩
        · rw [written.store]
          exact Store.number?_setNumber_self _ key value
        · rw [← now]
          exact round_of_notice exec tells
      toldTexts := fun key value writes => by
        have tells := notice?_of_mem writes rfl
        have written := edited_step exec (w.after exec past)
        rw [edits_of_notice tells] at written
        refine ⟨?_, ?_⟩
        · rw [written.store]
          exact Store.text?_setText_self _ key value
        · rw [← now]
          exact round_of_notice exec tells
      answers := fun label id below stack held => by
        refine ⟨(w.after exec past).store.listens id, ?_, ?_⟩
        · rw [step, stack]
          show (perform _ (.unlisten label)).answer = _
          simp only [perform, held]
          rfl
        · rw [now]
          exact numbered.listens_foldl_edit (w.editsDone exec past) id
      once := numbered.nodup_takenOut _ }

/-- A listener that writes the same entity once more and takes another listener out. -/
def meddling : List Operation :=
  [.setNumber "lamp" 2, .unlisten "second"]

/-- Both listeners are told of the first number, though the first one writes another one and takes the
second one out; the second number is told to both as well, since it is written before that. -/
theorem meddling_listeners_told :
    let past := Move.played (.operation (.listenNumber "first" ⟨meddling, 1⟩)) 1
      ++ Move.played (.operation (.listenNumber "second" ⟨[], 0⟩)) 1
      ++ [.receive (.operation (.setNumber "lamp" 1))]
    let during := List.replicate 2 .step
    let w := World.empty .first
    (∃ base, Round noEffects base ((w.after noEffects past).step noEffects)
        [.number "lamp" 1 (.callback 0), .number "lamp" 1 (.callback 1)])
      ∧ ∃ base, Round noEffects base ((w.after noEffects (past ++ during)).step noEffects)
        [.number "lamp" 2 (.callback 0), .number "lamp" 2 (.callback 1)] := by
  intro past during w
  have numbered : w.store.Numbered := fun id listens => by cases listens
  have outer := storeAfter noEffects w numbered past
  have inner := storeAfter noEffects w numbered (past ++ during)
  have first : (w.after noEffects past).edits = [.setNumber "lamp" 1] := by cbv
  have second : (w.after noEffects (past ++ during)).edits = [.setNumber "lamp" 2] := by cbv
  exact ⟨(outer.toldNumbers "lamp" 1 (first ▸ List.mem_cons_self)).2,
    (inner.toldNumbers "lamp" 2 (second ▸ List.mem_cons_self)).2⟩

end World

end RuleDispatch
