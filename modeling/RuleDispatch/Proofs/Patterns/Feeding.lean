import RuleDispatch.Proofs.Dispatch.Progress
import RuleDispatch.Proofs.Patterns.Attempts
import RuleDispatch.Proofs.Subscriptions.Attendance

/-! # What a watcher is fed

An event is fed to a watcher when it is emitted while the watcher is not disposed of and has its name in
the pattern. From then on there is one call in the round of this event that shows it to the watcher. So
what a watcher was fed is at every moment what it was shown and what it is still to be shown, each event
as often as it was emitted. Events may overtake one another only where a handler emits one while the one
before is still to be shown; as long as no other handler does, they are shown in the order in which they
were emitted.

* `World.fed?`, `World.shownTo?`, `World.pendingFor` — an event emitted, shown, and still to be shown.
* `World.Attentive` — worlds in which every watcher is listed once for each name of its pattern.
* `World.pending_step` — what a step feeds is shown, or still to be shown.
* `World.fedTo_perm` — so it is with whole histories.
* `Calling`, `World.Uninterrupted` — calls under way, and histories in which no other handler emits.
* `World.OneByOne.fedTo_eq` — in these, events are shown in order. -/

namespace RuleDispatch

/-- The event that a call **shows to the watcher** in some place. -/
def Hearing.shows? (place : Nat) : Hearing → Option Event
  | .event e (.watcher other) => if other = place then some e else none
  | .event _ (.target _) | .number _ _ _ | .text _ _ _ => none

/-- The events that a frame has **still to show** to a watcher. -/
def Frame.shows (place : Nat) (f : Frame) : List Event :=
  f.hearings.filterMap (Hearing.shows? place)

/-- A watcher **hears a name** as long as it is not disposed of, if its pattern has the name. -/
def Watcher.hears (x : Watcher) (name : String) : Bool :=
  !x.disposed && name ∈ x.matcher.sequence

/-- What a **matcher sees** of an event. -/
def Event.seen (e : Event) : String × Timestamp :=
  (e.name, e.timestamp)

namespace World

variable {exec : Executor} {w : World} {place : Nat}

/-- The events **still to be shown** to a watcher, those of the innermost round first. -/
def pendingFor (w : World) (place : Nat) : List Event :=
  w.stack.flatMap (Frame.shows place)

/-- The event that **the next step shows** to a watcher. -/
def shownTo? (place : Nat) (w : World) : Option Event :=
  w.hearing?.bind (Hearing.shows? place)

/-- Whether there is a watcher in a place that hears a name. -/
def heardBy (w : World) (place : Nat) (name : String) : Bool :=
  w.watchers[place]?.any fun x => x.hears name

/-- The event that **the next step emits**, if a watcher is fed with it. -/
def fed? (place : Nat) (w : World) : Option Event :=
  w.emission?.filter fun e => w.heardBy place e.name

/-- The events **shown to a watcher** in a history. -/
def shownTo (exec : Executor) (place : Nat) (w : World) (moves : List Move) : List Event :=
  shown exec (shownTo? place) w moves

/-- The events that a watcher **is fed with** in a history. -/
def fedTo (exec : Executor) (place : Nat) (w : World) (moves : List Move) : List Event :=
  shown exec (fed? place) w moves

/-! ## 1. Who is listed -/

/-- A world in which every watcher is **listed once** for each name of its pattern. -/
structure Attentive (w : World) : Prop where
  accounts : Accounts w
  attends : Attends w w.Records
  once : Once w

/-- In an empty world **no watcher is listed**. -/
theorem attentive_empty (wallClock : Timestamp) : Attentive (empty wallClock) :=
  ⟨accounts_empty wallClock, attends_empty wallClock, once_empty wallClock⟩

/-- Every history leads to such a world. -/
theorem Attentive.after (h : Attentive w) (exec : Executor) (moves : List Move) :
    Attentive (w.after exec moves) where
  accounts := h.accounts.after exec moves
  attends := (attends_after exec ⟨h.accounts, h.attends⟩).2
  once := h.once.after exec moves

/-- Every step leaves watchers **listed once**. -/
theorem Attentive.step (h : Attentive w) (exec : Executor) : Attentive (w.step exec) :=
  h.after exec [.step]

/-- A watcher is listed under a name **exactly if it hears it**. -/
theorem Attentive.mem_handlers_iff (h : Attentive w) (name : String) (place : Nat) :
    .watcher place ∈ w.bus.handlers name ↔ w.heardBy place name = true := by
  rw [h.attends.mem_handlers_iff h.accounts.toWatched]
  unfold heardBy Watcher.hears
  cases w.watchers[place]? <;> simp

/-- Whoever is listed at most once is **called at most once**. -/
theorem filterMap_shows {handlers : List Handler}
    (once : handlers.Pairwise fun first later => ∀ place, first = .watcher place → later ≠ .watcher place)
    (e : Event) (place : Nat) :
    (handlers.map (Hearing.event e)).filterMap (Hearing.shows? place)
      = if .watcher place ∈ handlers then [e] else [] := by
  induction handlers with
  | nil => rfl
  | cons handler rest ih =>
    obtain ⟨apart, once'⟩ := List.pairwise_cons.mp once
    rw [List.map_cons, List.filterMap_cons]
    by_cases here : handler = .watcher place
    · have absent : Handler.watcher place ∉ rest := fun member => apart _ member place here rfl
      rw [ih once', if_neg absent, if_pos (by rw [here]; exact List.mem_cons_self), here]
      simp [Hearing.shows?]
    · have silent : Hearing.shows? place (.event e handler) = none := by
        cases handler with
        | target => rfl
        | watcher other => exact if_neg fun same => here (congrArg Handler.watcher same)
      have same : .watcher place ∈ handler :: rest ↔ .watcher place ∈ rest := by
        rw [List.mem_cons, or_iff_right (Ne.symm here)]
      rw [silent, ih once', if_congr same rfl rfl]

/-- **The calls about a notice** show an event to a watcher once if it hears it. -/
theorem Attentive.calls (h : Attentive w) {notice : Notice} (tells : w.notice? = some notice)
    (place : Nat) :
    (notice.calls w.bus w.store).filterMap (Hearing.shows? place) = (w.fed? place).toList := by
  rw [fed?, emission?, tells]
  cases notice with
  | event e =>
    show ((w.bus.handlers e.name).map (Hearing.event e)).filterMap _ = _
    rw [filterMap_shows (h.once.handlers h.accounts e.name), if_congr (h.mem_handlers_iff e.name place) rfl rfl]
    show _ = (Option.filter _ (some e)).toList
    rw [Option.filter_some]
    split <;> rfl
  | number key value => simp [Notice.calls, Notice.event?, List.filterMap_map, Function.comp_def, Hearing.shows?]
  | text key value => simp [Notice.calls, Notice.event?, List.filterMap_map, Function.comp_def, Hearing.shows?]

/-! ## 2. One step -/

/-- What is no round shows nothing. -/
theorem shows_of_not_round {f : Frame} (other : f.isRound = false) (place : Nat) : f.shows place = [] := by
  cases f <;> first | rfl | cases other

/-- If the calls of a round that are left show something, its next call **is about an event** as well. -/
theorem exists_event_of_shows {frame left : Frame} {h : Hearing} (round : frame.isRound = true)
    (calls : frame.hearings = h :: left.hearings) (shows : left.shows place ≠ []) :
    ∃ e handler, h = .event e handler := by
  cases frame with
  | deliver e handlers =>
    obtain ⟨handler, rest, -, same, -⟩ := List.map_eq_cons_iff.mp calls
    exact ⟨e, handler, same.symm⟩
  | tellNumber key value listeners =>
    obtain ⟨_, rest, -, -, later⟩ := List.map_eq_cons_iff.mp calls
    rw [Frame.shows, ← later] at shows
    simp [List.filterMap_map, Function.comp_def, Hearing.shows?] at shows
  | tellText key value callbacks =>
    obtain ⟨_, rest, -, -, later⟩ := List.map_eq_cons_iff.mp calls
    rw [Frame.shows, ← later] at shows
    simp [List.filterMap_map, Function.comp_def, Hearing.shows?] at shows
  | _ => cases round

/-- What is still to be shown to a watcher is in **what lies below frames that are no rounds**. -/
theorem pending_of_stack {frames rest : List Frame} (stack : w.stack = frames ++ rest)
    (others : ∀ f ∈ frames, f.isRound = false) (place : Nat) :
    w.pendingFor place = rest.flatMap (Frame.shows place) := by
  have none : frames.flatMap (Frame.shows place) = [] :=
    List.flatMap_eq_nil_iff.mpr fun f member => shows_of_not_round (others f member) place
  rw [pendingFor, stack, List.flatMap_append, none, List.nil_append]

/-- What is shown to a watcher next is **the first call of the round on top**. -/
theorem shownTo?_of_stack {frame : Frame} {rest : List Frame} (stack : w.stack = frame :: rest)
    (place : Nat) :
    w.shownTo? place = frame.hearings.head?.bind (Hearing.shows? place) := by
  rw [shownTo?, hearing?, stack]
  rfl

/-- A step that gives no notice feeds nobody. -/
theorem fed?_of_silent (silent : w.notice? = none) (place : Nat) : w.fed? place = none := by
  rw [fed?, emission?, silent]
  rfl

/-- **What one step feeds to a watcher** is to be shown to it then; what it shows was to be shown. -/
theorem pending_step (h : Attentive w) (exec : Executor) (place : Nat) :
    (w.fed? place).toList ++ w.pendingFor place
      = (w.shownTo? place).toList ++ (w.step exec).pendingFor place := by
  cases stack : w.stack with
  | nil =>
    have silent : w.notice? = none := by rw [notice?, stack]
    have quiet : w.shownTo? place = none := by rw [shownTo?, hearing?, stack]; rfl
    rw [step_idle exec w stack, fed?_of_silent silent, quiet]
  | cons frame rest =>
    have shown := shownTo?_of_stack stack place
    have before : w.pendingFor place = frame.shows place ++ rest.flatMap (Frame.shows place) := by
      rw [pendingFor, stack, List.flatMap_cons]
    rw [shown, before]
    cases tells : w.notice? with
    | some notice =>
      -- the round that is begun comes on top of everything else
      obtain ⟨other, after, other', taken⟩ := step_eq_tell_below exec stack tells
      obtain ⟨first, begun, -, calls⟩ := exists_stack_tell { w with stack := after :: rest } notice
      have later : (w.step exec).pendingFor place
          = (w.fed? place).toList ++ rest.flatMap (Frame.shows place) := by
        rw [pendingFor, taken, begun, List.flatMap_cons, List.flatMap_cons, shows_of_not_round other',
          List.nil_append, Frame.shows, calls]
        exact congrArg (· ++ _) (h.calls tells place)
      have none : frame.hearings = [] := by
        cases frame <;> first | rfl | cases other
      rw [later, Frame.shows, none]
      rfl
    | none =>
      rw [fed?_of_silent tells, Option.toList_none, List.nil_append]
      cases round : frame.isRound with
      | false =>
        -- nothing that comes on top shows anything
        obtain ⟨frames, piled, others⟩ := piles_step exec stack round tells
        have none : frame.hearings = [] := by
          cases frame <;> first | rfl | cases round
        rw [pending_of_stack piled others, Frame.shows, none]
        rfl
      | true =>
        cases calls : frame.hearings with
        | nil =>
          rw [step_of_no_hearings exec stack round calls, Frame.shows, calls]
          rfl
        | cons call later =>
          -- the call that is made leaves the others below what it asks for
          obtain ⟨left, -, left', called⟩ := step_of_hearings exec stack calls
          obtain ⟨frames, piled, others⟩ := piles_hear { w with stack := left :: rest } call
          rw [called, pending_of_stack piled others, List.flatMap_cons, Frame.shows, Frame.shows, calls,
            left', List.head?_cons, Option.bind_some, List.filterMap_cons, ← List.append_assoc]
          cases Hearing.shows? place call <;> rfl

/-- Something from outside shows nothing and feeds nobody. -/
theorem pending_receive (w : World) (s : Stimulus) (place : Nat) :
    (w.receive s).pendingFor place = w.pendingFor place := by
  cases s <;> rfl

/-! ## 3. Histories -/

/-- **What a watcher is fed with** in a history, and what was still to be shown to it before, is what it is
shown and what is still to be shown to it after. -/
theorem fedTo_perm (h : Attentive w) (exec : Executor) (place : Nat) (moves : List Move) :
    (w.pendingFor place ++ fedTo exec place w moves).Perm
      (shownTo exec place w moves ++ (w.after exec moves).pendingFor place) := by
  induction moves generalizing w with
  | nil => exact .of_eq (List.append_nil _)
  | cons m moves ih =>
    cases m with
    | receive s =>
      have later := ih (h.after exec [.receive s])
      rwa [show (w.after exec [.receive s]).pendingFor place = _ from pending_receive w s place] at later
    | step =>
      -- what is fed now changes places with what is to be shown already
      calc w.pendingFor place ++ ((w.fed? place).toList ++ fedTo exec place (w.step exec) moves)
        _ = (w.pendingFor place ++ (w.fed? place).toList) ++ fedTo exec place (w.step exec) moves :=
            (List.append_assoc _ _ _).symm
        List.Perm _ (((w.fed? place).toList ++ w.pendingFor place) ++ fedTo exec place (w.step exec) moves) :=
            List.perm_append_comm.append_right _
        _ = (w.shownTo? place).toList
              ++ ((w.step exec).pendingFor place ++ fedTo exec place (w.step exec) moves) := by
            rw [pending_step h exec, List.append_assoc]
        List.Perm _ ((w.shownTo? place).toList ++ (shownTo exec place (w.step exec) moves
              ++ ((w.step exec).after exec moves).pendingFor place)) :=
            (ih (h.step exec)).append_left _
        _ = ((w.shownTo? place).toList ++ shownTo exec place (w.step exec) moves)
              ++ ((w.step exec).after exec moves).pendingFor place :=
            (List.append_assoc _ _ _).symm

/-- A history in which a watcher is fed with **one event after another**: whenever it is fed, nothing is
still to be shown to it. -/
def OneByOne (exec : Executor) (place : Nat) (w : World) (moves : List Move) : Prop :=
  ∀ before after e, moves = before ++ .step :: after →
    (w.after exec before).fed? place = some e → (w.after exec before).pendingFor place = []

/-- A watcher fed with one event after another is so **from the second move on**. -/
theorem OneByOne.tail {m : Move} {moves : List Move} (h : OneByOne exec place w (m :: moves)) :
    OneByOne exec place (w.move exec m) moves := fun before after e split =>
  h (m :: before) after e (congrArg (m :: ·) split)

/-- Then it is shown them **in order**. -/
theorem OneByOne.fedTo_eq {moves : List Move} (alone : OneByOne exec place w moves) (h : Attentive w) :
    w.pendingFor place ++ fedTo exec place w moves
      = shownTo exec place w moves ++ (w.after exec moves).pendingFor place := by
  induction moves generalizing w with
  | nil => exact List.append_nil _
  | cons m moves ih =>
    have later := ih alone.tail (h.after exec [m])
    cases m with
    | receive s =>
      rwa [show (w.move exec (.receive s)).pendingFor place = _ from pending_receive w s place] at later
    | step =>
      have now := pending_step h exec place
      -- where something is fed, nothing is waiting, so nothing is overtaken
      have swapped : w.pendingFor place ++ (w.fed? place).toList
          = (w.fed? place).toList ++ w.pendingFor place := by
        cases fed : w.fed? place with
        | none => rw [Option.toList_none, List.append_nil, List.nil_append]
        | some e =>
          have nothing : w.pendingFor place = [] := alone [] moves e rfl fed
          rw [nothing, List.append_nil, List.nil_append]
      show w.pendingFor place ++ ((w.fed? place).toList ++ fedTo exec place (w.step exec) moves) = _
      rw [← List.append_assoc, swapped, now, List.append_assoc,
        show (w.step exec).pendingFor place ++ fedTo exec place (w.step exec) moves = _ from later,
        ← List.append_assoc]
      rfl

/-- And there is **one event at most** that is still to be shown. -/
theorem OneByOne.length_pendingFor_le {moves : List Move} (alone : OneByOne exec place w moves)
    (h : Attentive w) (one : (w.pendingFor place).length ≤ 1) :
    ((w.after exec moves).pendingFor place).length ≤ 1 := by
  induction moves generalizing w with
  | nil => exact one
  | cons m moves ih =>
    refine ih alone.tail (h.after exec [m]) ?_
    cases m with
    | receive s => exact (congrArg List.length (pending_receive w s place)).trans_le one
    | step =>
      have now := congrArg List.length (pending_step h exec place)
      rw [List.length_append, List.length_append] at now
      show ((w.step exec).pendingFor place).length ≤ 1
      cases fed : w.fed? place with
      | none =>
        rw [fed, Option.toList_none, List.length_nil] at now
        omega
      | some e =>
        have nothing : w.pendingFor place = [] := alone [] moves e rfl fed
        rw [fed, nothing, Option.toList_some, List.length_singleton, List.length_nil] at now
        omega

/-- The watcher that the next step shows an event is **the one in this place**. -/
theorem shownTo?_eq (w : World) (place : Nat) :
    w.shownTo? place = (w.showing?.filter (·.1 = place)).map Prod.snd := by
  unfold shownTo? hearing? showing?
  cases w.stack with
  | nil => rfl
  | cons frame rest =>
    cases frame with
    | deliver event handlers =>
      match handlers with
      | [] => rfl
      | .target _ :: _ => rfl
      | .watcher other :: _ =>
        show (if other = place then some event else none) = _
        by_cases here : other = place <;> simp [here, Option.filter_some]
    | tellNumber key value listeners => cases listeners <;> rfl
    | tellText key value listeners => cases listeners <;> rfl
    | _ => rfl

/-- A watcher **stays where it is**, and its matcher has observed what was shown to it. -/
theorem watcher_after (exec : Executor) {x : Watcher} (there : w.watchers[place]? = some x)
    (moves : List Move) :
    ∃ x', (w.after exec moves).watchers[place]? = some x'
      ∧ x'.matcher = (x.matcher.run ((shownTo exec place w moves).map Event.seen)).2
      ∧ x'.target = x.target ∧ (x.disposed = true → x'.disposed = true) := by
  induction moves generalizing w x with
  | nil => exact ⟨x, there, rfl, rfl, id⟩
  | cons m moves ih =>
    cases m with
    | receive s =>
      refine ih (w := w.receive s) (x := x) ?_
      rw [show (w.receive s).watchers = w.watchers from congrArg Lookouts.watchers (lookouts_receive w s)]
      exact there
    | step =>
      obtain ⟨y, there', later⟩ := watcher_step exec there
      obtain ⟨x', found, matcher, target, disposed⟩ := ih there'
      -- it is shown the event of this step, if the step has one for it
      have shown : (w.showing?.filter (·.1 = place)).elim x (fun shown => x.shown shown.2)
          = (w.shownTo? place).elim x x.shown := by
        rw [shownTo?_eq]
        cases w.showing?.filter (·.1 = place) <;> rfl
      rw [shown] at later
      have seen : ((w.shownTo? place).elim x x.shown).matcher
            = (x.matcher.run ((w.shownTo? place).toList.map Event.seen)).2
          ∧ ((w.shownTo? place).elim x x.shown).target = x.target
          ∧ (x.disposed = true → ((w.shownTo? place).elim x x.shown).disposed = true) := by
        cases w.shownTo? place <;> exact ⟨rfl, rfl, id⟩
      have first : y.matcher = (x.matcher.run ((w.shownTo? place).toList.map Event.seen)).2
          ∧ y.target = x.target ∧ (x.disposed = true → y.disposed = true) := by
        -- in the step it may be disposed of, too
        generalize (w.shownTo? place).elim x x.shown = z at later seen
        rcases later with rfl | rfl
        · exact seen
        · exact ⟨seen.1, seen.2.1, fun _ => rfl⟩
      refine ⟨x', found, ?_, target.trans first.2.1, fun gone => disposed (first.2.2 gone)⟩
      show _ = (x.matcher.run (((w.shownTo? place).toList ++ shownTo exec place (w.step exec) moves).map _)).2
      rw [List.map_append, Matcher.run_append, ← first.1, matcher]

/-! ## 4. Calls under way -/

/-- A call of the round at some depth that is **under way** after a history: it was made on the way, and
what it asks for still lies above what is left of the round. -/
def Calling (exec : Executor) (depth : Nat) (w : World) (moves : List Move) (call : Hearing) : Prop :=
  ∃ before during, moves = before ++ .step :: during
    ∧ (w.after exec before).hearingAt depth .step = some call
    ∧ ∀ early later, during = early ++ later →
      depth + 1 < (((w.after exec before).step exec).after exec early).stack.length

/-- A history in which **no other handler emits**: whenever a watcher is fed with an event, the only
handler that is being called is the watcher itself. -/
def Uninterrupted (exec : Executor) (place : Nat) (w : World) (moves : List Move) : Prop :=
  ∀ before after e, moves = before ++ .step :: after → (w.after exec before).fed? place = some e →
    ∀ depth f handler, Calling exec depth w before (.event f handler) → handler = .watcher place

/-- A call stays under way for **one move more** if what is left of its round is still below. -/
theorem Calling.snoc {depth : Nat} {moves : List Move} {call : Hearing}
    (h : Calling exec depth w moves call) {m : Move}
    (still : depth + 1 < (w.after exec (moves ++ [m])).stack.length) :
    Calling exec depth w (moves ++ [m]) call := by
  obtain ⟨before, during, rfl, made, goes_on⟩ := h
  refine ⟨before, during ++ [m], by rw [List.append_assoc, List.cons_append], made, fun early later split => ?_⟩
  rcases List.eq_nil_or_concat' later with rfl | ⟨later, last, rfl⟩
  · rw [List.append_nil] at split
    rw [List.append_assoc, List.cons_append, after_append] at still
    rw [← split]
    exact still
  · rw [← List.append_assoc] at split
    exact goes_on early later (List.append_inj_left' split rfl)

/-- A call that is **made now** is under way from then on. -/
theorem Calling.made {moves : List Move} {base : List Frame} {frame : Frame} {call : Hearing}
    (stack : (w.after exec moves).stack = frame :: base) (next : frame.hearings.head? = some call)
    (still : base.length + 1 < (w.after exec (moves ++ [.step])).stack.length) :
    Calling exec base.length w (moves ++ [.step]) call := by
  refine ⟨moves, [], rfl, ?_, fun early later split => ?_⟩
  · rw [hearingAt, if_pos (by rw [stack, List.length_cons]), hearing?, stack]
    exact next
  · obtain ⟨rfl, -⟩ := List.append_eq_nil_iff.mp split.symm
    rw [after_append] at still
    exact still

/-- Nobody is being called while a watcher is fed **with nothing else to be done**. -/
theorem uninterrupted_of_shallow {moves : List Move}
    (shallow : ∀ n < moves.length, ((w.after exec (moves.take n)).fed? place).isSome = true →
      (w.after exec (moves.take n)).stack.length ≤ 1) : Uninterrupted exec place w moves := by
  rintro before after e rfl fed depth f handler ⟨past, during, split, -, goes_on⟩
  have height := shallow before.length (by simp) (by rw [List.take_left, fed]; rfl)
  have deeper := goes_on during [] (List.append_nil _).symm
  rw [List.take_left, split, after_append] at height
  exact absurd (Nat.lt_of_lt_of_le deeper height) (by omega)

section Reached

variable {wallClock : Timestamp} {past : List Move}

/-- What a round has still to show to a watcher **the watcher was fed with** when the round began. -/
theorem exists_fed_of_round (reached : w = (empty wallClock).after exec past) {above base : List Frame}
    {frame : Frame} (stack : w.stack = above ++ frame :: base) (round : frame.isRound = true)
    (place : Nat) :
    ∃ before during shown, past = before ++ .step :: during
      ∧ shown ++ frame.shows place = (((empty wallClock).after exec before).fed? place).toList := by
  obtain ⟨before, during, notice, progress⟩ :=
    exists_inProgress (w := empty wallClock) (fun _ member => by cases member) (reached ▸ stack) round
  have calls := ((attentive_empty wallClock).after exec before).calls progress.given place
  rw [← progress.calls, List.filterMap_append] at calls
  exact ⟨before, during, _, progress.history, calls⟩

/-- **A round shows an event to a watcher once** at most. -/
theorem length_shows_le (reached : w = (empty wallClock).after exec past) {above base : List Frame}
    {frame : Frame} (stack : w.stack = above ++ frame :: base) (round : frame.isRound = true) (place : Nat) :
    (frame.shows place).length ≤ 1 := by
  obtain ⟨before, -, shown, -, calls⟩ := exists_fed_of_round reached stack round place
  calc (frame.shows place).length
      ≤ (shown ++ frame.shows place).length := by rw [List.length_append]; omega
    _ = (((empty wallClock).after exec before).fed? place).toList.length := by rw [calls]
    _ ≤ 1 := Option.length_toList_le

/-- Where there is no watcher yet, **nothing is to be shown** to it. -/
theorem pendingFor_of_absent (reached : w = (empty wallClock).after exec past)
    (absent : w.watchers[place]? = none) : w.pendingFor place = [] := by
  refine List.flatMap_eq_nil_iff.mpr fun frame member => ?_
  by_contra shows
  have round : frame.isRound = true := eq_true_of_ne_false fun other => shows (shows_of_not_round other place)
  obtain ⟨above, base, stack⟩ := List.append_of_mem member
  obtain ⟨before, during, shown, history, calls⟩ := exists_fed_of_round reached stack round place
  -- when the round began, the watcher was fed, so it was there
  cases fed : ((empty wallClock).after exec before).fed? place with
  | none =>
    rw [fed] at calls
    exact shows (List.append_eq_nil_iff.mp calls).2
  | some e =>
    unfold fed? at fed
    obtain ⟨-, heard⟩ := Option.filter_eq_some_iff.mp fed
    obtain ⟨x, there, -⟩ := (Option.any_eq_true _ _).mp heard
    obtain ⟨x', there', -⟩ := watcher_after exec there (.step :: during)
    rw [reached, history, after_append] at absent
    rw [absent] at there'
    cases there'

/-- What is to be shown by a round that is not on top waits for **a call of this round** that is under
way, of another handler. -/
theorem exists_calling (reached : w = (empty wallClock).after exec past) (nothing : w.pendingFor place = [])
    {moves : List Move} (orderly : Orderly exec w moves) {above base : List Frame} {left : Frame}
    (stack : (w.after exec moves).stack = above ++ left :: base) (below : above ≠ [])
    (shows : left.shows place ≠ []) :
    ∃ e handler, Calling exec base.length w moves (.event e handler) ∧ handler ≠ .watcher place := by
  -- back to the move with which the round made its last call
  have round : left.isRound = true := eq_true_of_ne_false fun other => shows (shows_of_not_round other place)
  induction moves using List.reverseRecOn generalizing above left with
  | nil =>
    have there : left ∈ w.stack := by
      rw [after_nil] at stack
      rw [stack]
      exact List.mem_append_right _ List.mem_cons_self
    exact absurd (List.flatMap_eq_nil_iff.mp nothing left there) shows
  | append_singleton moves m ih =>
    obtain ⟨orderly', last⟩ := orderly_append.mp orderly
    have now : w.after exec (moves ++ [m]) = (w.after exec moves).move exec m := after_append w _ _
    have still : base.length + 1 < (w.after exec (moves ++ [m])).stack.length := by
      rw [stack, List.length_append, List.length_cons]
      have := List.length_pos_of_ne_nil below
      omega
    rw [now] at stack
    cases m with
    | receive s =>
      -- something comes from outside only where there is no round
      obtain ⟨between, there⟩ := round_of_receive stack round
      have idle : (w.after exec moves).stack = [] := List.isEmpty_iff.mp last.1
      rw [idle] at there
      cases (List.append_eq_nil_iff.mp there.symm).2
    | step =>
      rcases round_of_step exec stack round with ⟨frame, between, there⟩ | ⟨frame, h, there, mine, calls⟩
        | ⟨notice, tells, rfl, calls⟩
      · obtain ⟨e, handler, calling, other⟩ := ih orderly' there (List.cons_ne_nil _ _) shows round
        exact ⟨e, handler, calling.snoc still, other⟩
      · -- the call is made now, and it is not that of the watcher, which is called only later
        obtain ⟨e, handler, rfl⟩ := exists_event_of_shows mine calls shows
        refine ⟨e, handler, .made there (by rw [calls]; rfl) still, ?_⟩
        rintro rfl
        have later : w.after exec moves = (empty wallClock).after exec (past ++ moves) := by
          rw [after_append, ← reached]
        have one : (frame.shows place).length ≤ 1 :=
          length_shows_le later (show (w.after exec moves).stack = [] ++ frame :: base from there) mine place
        have shown : Hearing.shows? place (.event e (.watcher place)) = some e := if_pos rfl
        rw [Frame.shows, calls, List.filterMap_cons_some shown, List.length_cons] at one
        exact shows (List.eq_nil_of_length_eq_zero (Nat.le_zero.mp (Nat.le_of_succ_le_succ one)))
      · exact absurd rfl below

/-- **As long as no other handler emits**, a watcher is fed with one event after another. -/
theorem Uninterrupted.oneByOne {moves : List Move} (uninterrupted : Uninterrupted exec place w moves)
    (reached : w = (empty wallClock).after exec past) (nothing : w.pendingFor place = [])
    (orderly : Orderly exec w moves) : OneByOne exec place w moves := by
  intro before after e split fed
  refine List.flatMap_eq_nil_iff.mpr fun frame member => ?_
  by_contra shows
  obtain ⟨above, base, stack⟩ := List.append_of_mem member
  have below : above ≠ [] := by
    rintro rfl
    -- what feeds the watcher is no round
    cases tells : (w.after exec before).notice? with
    | none =>
      rw [fed?_of_silent tells] at fed
      cases fed
    | some notice =>
      obtain ⟨other, -⟩ := step_eq_tell_below exec stack tells
      exact shows (shows_of_not_round other place)
  have first : Orderly exec w before := (orderly_append.mp (split ▸ orderly)).1
  obtain ⟨f, handler, calling, other⟩ := exists_calling reached nothing first stack below shows
  exact other (uninterrupted before after e split fed _ f handler calling)

end Reached

end World

end RuleDispatch
