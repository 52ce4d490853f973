import RuleDispatch.Proofs.Patterns.Feeding

/-! # A watcher is its matcher

A watcher that is shown an event has its matcher observe it, and calls its target when the pattern is
complete. So a watcher does on the bus what its matcher would do if it were given the events that the
watcher hears, one after another, until the watcher is disposed of; from then on its target is never
called again, not even by a round that still has the watcher among those to call.

* `Matcher.lastOutcome_append` — after a match a matcher starts anew.
* `World.completes` — whether the next step calls the target of a watcher.
* `World.completes_iff` — it does when the matcher completes the pattern with the event shown.
* `World.disposeWatcher_again`, `World.completes_of_disposed` — being disposed of is final.
* `watcher_is_its_matcher` — all this of a watcher that was put up, in every history. -/

namespace RuleDispatch

/-- The label of the watcher that an operation **disposes of**, if there is one: the watcher is disposed
of, dropped, or has to make room for another one. -/
def Operation.dismisses? : Operation → Option String
  | .watchDispose label | .watchDrop label | .watch label _ _ _ => some label
  | _ => none

namespace Matcher

variable {sequence : List String} {withinMs : UInt64} {m : Matcher}

/-! ## 1. Starting anew -/

/-- With the index zero a matcher does with the next event **what a fresh one does**. -/
theorem observe_of_index (nonempty : m.sequence ≠ []) (zero : m.index = 0) (name : String)
    (time : Timestamp) :
    m.observe name time = (fresh m.sequence m.withinMs).observe name time := by
  obtain ⟨names, window, index, start⟩ := m
  obtain rfl : index = 0 := zero
  cases names with
  | nil => exact absurd rfl nonempty
  | cons first rest => rfl

/-- And so it does **with all events to come**. -/
theorem run_of_index (zero : m.index = 0) (events : List (String × Timestamp)) :
    (m.run events).1 = ((fresh m.sequence m.withinMs).run events).1 := by
  cases sequence : m.sequence with
  | nil =>
    -- whatever the index is, nothing is ever looked at
    have ignored (m : Matcher) (empty : m.sequence = []) :
        (m.run events).1 = events.map fun _ => Outcome.ignored := by
      induction events generalizing m with
      | nil => rfl
      | cons event rest ih =>
        have still : m.observe event.1 event.2 = (.ignored, m) := by
          unfold observe
          rw [empty]
        rw [run_cons, still, List.map_cons, ih m empty]
    rw [ignored m sequence, ignored (fresh [] m.withinMs) rfl]
  | cons first rest =>
    cases events with
    | nil => rfl
    | cons event later =>
      have same := observe_of_index (sequence ▸ List.cons_ne_nil first rest) zero event.1 event.2
      rw [run_cons, run_cons, ← sequence, same]

/-- A match leaves **no attempt under way**. -/
theorem index_observe_of_isMatch {name : String} {time : Timestamp}
    (matched : (m.observe name time).1.isMatch = true) : (m.observe name time).2.index = 0 := by
  obtain ⟨next, last⟩ := index_of_isMatch matched
  rw [observe_of_last next last]

/-- **After a match a matcher starts anew**: what it makes of later events is what it would make of them
alone. -/
theorem lastOutcome_append {past later : List (String × Timestamp)} {outcome : Outcome}
    (found : lastOutcome sequence withinMs past = some outcome) (matched : outcome.isMatch = true)
    (more : later ≠ []) :
    lastOutcome sequence withinMs (past ++ later) = lastOutcome sequence withinMs later := by
  have zero : (after sequence withinMs past).index = 0 := by
    induction past using List.reverseRecOn with
    | nil => cases found
    | append_singleton past event _ =>
      rw [lastOutcome_concat] at found
      rw [after_concat]
      exact index_observe_of_isMatch (Option.some.inj found ▸ matched)
  have rest := run_of_index zero later
  rw [sequence_after, withinMs_after] at rest
  have nonempty : ((fresh sequence withinMs).run later).1 ≠ [] := by
    rw [← List.length_pos_iff, length_run]
    exact List.length_pos_iff.mpr more
  show (((fresh sequence withinMs).run (past ++ later)).1).getLast? = _
  rw [run_append]
  show (_ ++ ((after sequence withinMs past).run later).1).getLast? = _
  rw [rest, List.getLast?_append_of_ne_nil _ nonempty]
  rfl

end Matcher

namespace World

variable {exec : Executor} {w : World} {place : Nat} {x : Watcher} {e : Event}

/-! ## 2. An event shown -/

/-- The world in which an event **has been shown** to the watcher in a place, and nothing else was done. -/
def showTo (w : World) (place : Nat) (e : Event) : World :=
  { w with watchers := w.watchers.modify place fun x => x.shown e }

/-- Whether the next step **calls the target of a watcher**: it shows the watcher an event with which its
pattern is complete, and the watcher is not disposed of. -/
def completes (w : World) (place : Nat) : Bool :=
  (w.shownTo? place).any fun e => w.watchers[place]?.any fun x =>
    !x.disposed && decide ((x.matcher.observe e.name e.timestamp).1 = .completed)

/-- A watcher completes its pattern if it is **not disposed of** and the event shown to it **ends the match
in time**. -/
theorem completes_eq (shown : w.shownTo? place = some e) (there : w.watchers[place]? = some x) :
    w.completes place
      = (!x.disposed && decide ((x.matcher.observe e.name e.timestamp).1 = .completed)) := by
  rw [completes, shown, there, Option.any_some, Option.any_some]

/-- The step that **shows an event to a watcher** has its matcher observe the event, and then does what
the outcome asks for. -/
theorem step_of_shownTo? (exec : Executor) (shown : w.shownTo? place = some e)
    (there : w.watchers[place]? = some x) :
    ∃ stack, w.step exec = (({ w with stack } : World).showTo place e).settleWatcher x e.name
      (x.matcher.observe e.name e.timestamp).1 := by
  obtain ⟨call, next, shows⟩ := Option.bind_eq_some_iff.mp shown
  obtain ⟨stack, taken⟩ := step_of_hearing? exec next
  have same : call = .event e (.watcher place) := by
    unfold Hearing.shows? at shows
    split at shows
    · split_ifs at shows with here
      rw [here, Option.some.inj shows]
    all_goals cases shows
  refine ⟨stack, ?_⟩
  rw [taken, same]
  show World.observe { w with stack } e place = _
  unfold observe
  rw [show ({ w with stack } : World).watchers[place]? = some x from there]
  dsimp only [showTo]
  rw [modify_shown there]

/-- **The target is called** if the step completes the pattern; the matcher is back at the beginning by
then. -/
theorem step_of_completes (exec : Executor) (shown : w.shownTo? place = some e)
    (there : w.watchers[place]? = some x) :
    ∃ stack later, later = ({ w with stack } : World).showTo place e
      ∧ (w.completes place = true →
        later.watchers[place]?.map (·.matcher.index) = some 0
          ∧ w.step exec = later.callTarget .complete x.target)
      ∧ (w.completes place = false →
        w.step exec = later ∨ w.step exec = later.note (.patternExpired e.name)) := by
  obtain ⟨stack, taken⟩ := step_of_shownTo? exec shown there
  refine ⟨stack, _, rfl, fun completed => ?_, fun other => ?_⟩
  · rw [completes_eq shown there, Bool.and_eq_true, Bool.not_eq_true', decide_eq_true_eq] at completed
    obtain ⟨live, completed⟩ := completed
    refine ⟨?_, ?_⟩
    · have matched : (x.matcher.observe e.name e.timestamp).1.isMatch = true := by rw [completed]; rfl
      show ((w.watchers.modify place fun x => x.shown e)[place]?).map _ = _
      rw [List.getElem?_modify_eq, there]
      exact congrArg some (Matcher.index_observe_of_isMatch matched)
    · rw [taken, completed]
      exact if_neg (by rw [live]; exact Bool.false_ne_true)
  · rw [completes_eq shown there] at other
    rw [taken]
    -- without completion the watcher is settled in silence, or it notes that the attempt expired
    unfold settleWatcher
    split
    · next completed =>
      rw [completed, decide_eq_true rfl, Bool.and_true, Bool.not_eq_false'] at other
      exact .inl (if_pos other)
    · exact .inr rfl
    · exact .inl rfl

/-! ## 3. Watchers that are disposed of -/

/-- Whether a watcher is disposed of is what **the watcher itself** says. -/
theorem watcherDisposed_eq (there : w.watchers[place]? = some x) :
    w.watcherDisposed place = x.disposed := by
  rw [watcherDisposed, there]
  rfl

/-- The target of a watcher that is disposed of **is not called**. -/
theorem completes_of_disposed (gone : w.watcherDisposed place = true) : w.completes place = false := by
  cases shown : w.shownTo? place with
  | none => rw [completes, shown]; rfl
  | some e =>
    cases there : w.watchers[place]? with
    | none => rw [completes, there, shown]; rfl
    | some x =>
      rw [completes_eq shown there, ← watcherDisposed_eq there, gone]
      rfl

/-- **Disposed of is disposed of**, whatever happens. -/
theorem watcherDisposed_after (there : w.watchers[place]? = some x) (gone : w.watcherDisposed place = true)
    (exec : Executor) (moves : List Move) : (w.after exec moves).watcherDisposed place = true := by
  obtain ⟨x', there', -, -, disposed⟩ := watcher_after exec there moves
  rw [watcherDisposed_eq there']
  exact disposed (watcherDisposed_eq there ▸ gone)

/-- A watcher that was disposed of **is so**, also where there is none. -/
theorem watcherDisposed_disposeWatcher (w : World) (place : Nat) :
    (w.disposeWatcher place).watcherDisposed place = true := by
  rw [watcherDisposed, watchers_disposeWatcher]
  cases w.watchers[place]? with
  | none => rfl
  | some x => simp [Watcher.retired]

/-- Disposing of a watcher **once more changes nothing**. -/
theorem disposeWatcher_again (watched : Watched w) (there : w.watchers[place]? = some x)
    (gone : w.watcherDisposed place = true) : w.disposeWatcher place = w := by
  have gone' : x.disposed = true := watcherDisposed_eq there ▸ gone
  -- it gave its subscriptions back when it was disposed of, so there are none to give back now
  have nothing : x.subscriptions = [] := watched.closed x (List.mem_of_getElem? there) gone'
  have same : (w.watchers.modify place fun x => { x with disposed := true, subscriptions := [] })
      = w.watchers := by
    have still : { x with disposed := true, subscriptions := [] } = x := by
      obtain ⟨matcher, target, subscriptions, disposed⟩ := x
      obtain rfl : disposed = true := gone'
      obtain rfl : subscriptions = [] := nothing
      rfl
    refine List.ext_getElem? fun other => ?_
    rw [List.getElem?_modify]
    by_cases here : place = other
    · rw [← here, there]
      simpa using still
    · simp [here]
  unfold disposeWatcher
  rw [there]
  dsimp only [unsubscribeAll]
  rw [same, nothing]
  rfl

/-- **What an operation disposes of is disposed of** when it is done. -/
theorem watcherDisposed_perform (w : World) {op : Operation} {label : String}
    (dismisses : op.dismisses? = some label) (held : w.labels.watchers.lookup label = some place) :
    (w.perform op).watcherDisposed place = true := by
  cases op with
  | watchDispose other =>
    obtain rfl := Option.some.inj dismisses
    simp only [perform, held]
    exact watcherDisposed_disposeWatcher w place
  | watchDrop other =>
    obtain rfl := Option.some.inj dismisses
    simp only [perform, held]
    exact watcherDisposed_disposeWatcher { w with
      labels := { w.labels with watchers := w.labels.watchers.remove other } } place
  | watch other sequence withinMs script =>
    obtain rfl := Option.some.inj dismisses
    -- the new watcher is put up first, in another place
    simp only [perform, watchAs]
    rw [show (w.addCallback other script).labels.watchers.lookup other = some place from held]
    exact watcherDisposed_disposeWatcher _ place
  | _ => cases dismisses

/-! ## 4. A watcher in a history -/

/-- The target of a watcher is called when **the matcher completes the pattern with the event shown**,
after all that the watcher was shown before. -/
theorem completes_iff (fresh : x.matcher = .fresh x.matcher.sequence x.matcher.withinMs)
    (there : w.watchers[place]? = some x) (exec : Executor) (moves : List Move) :
    (w.after exec moves).completes place = true
      ↔ (w.after exec moves).watcherDisposed place = false
        ∧ ∃ e, (w.after exec moves).shownTo? place = some e
          ∧ Matcher.lastOutcome x.matcher.sequence x.matcher.withinMs
              ((shownTo exec place w moves ++ [e]).map Event.seen) = some .completed := by
  obtain ⟨x', there', matcher, -⟩ := watcher_after exec there moves
  have after : x'.matcher = Matcher.after x.matcher.sequence x.matcher.withinMs
      ((shownTo exec place w moves).map Event.seen) := by
    rw [matcher, Matcher.after, ← fresh]
  rw [watcherDisposed_eq there']
  cases shown : (w.after exec moves).shownTo? place with
  | none =>
    rw [completes, shown]
    simp
  | some e =>
    rw [completes_eq shown there', Bool.and_eq_true, Bool.not_eq_true', decide_eq_true_eq, after]
    simp [Matcher.lastOutcome_concat, Event.seen]

end World

/-- A watcher is **fed with what it hears, in turn**, from some world on. -/
structure FedInTurn (exec : Executor) (w : World) (place : Nat) : Prop where
  /-- Every event that it is fed with is shown to it once, or is still to be shown, whatever happens. -/
  once : ∀ moves, (World.fedTo exec place w moves).Perm
    (World.shownTo exec place w moves ++ (w.after exec moves).pendingFor place)
  /-- Nothing is still to be shown when nothing is being done. -/
  settled : ∀ moves, (w.after exec moves).isIdle = true → (w.after exec moves).pendingFor place = []
  /-- As long as no other handler emits, events are shown in the order in which they are emitted. -/
  inOrder : ∀ moves, Orderly exec w moves → World.Uninterrupted exec place w moves →
    World.fedTo exec place w moves
      = World.shownTo exec place w moves ++ (w.after exec moves).pendingFor place
  /-- Then the event that is shown next is the last that was emitted. -/
  latest : ∀ moves e, Orderly exec w moves → World.Uninterrupted exec place w moves →
    (w.after exec moves).shownTo? place = some e →
    World.fedTo exec place w moves = World.shownTo exec place w moves ++ [e]

/-- A watcher **acts as its matcher** from some world on. -/
structure ActsAsMatcher (exec : Executor) (w : World) (place : Nat) (x : Watcher) : Prop where
  /-- As long as no other handler emits, its target is called just when the matcher, fed with all events
  emitted so far that have their name in the pattern, completes the pattern with the last of them. -/
  exactly : ∀ moves, Orderly exec w moves → World.Uninterrupted exec place w moves →
    ((w.after exec moves).completes place = true
      ↔ (w.after exec moves).watcherDisposed place = false
        ∧ ((w.after exec moves).shownTo? place).isSome = true
        ∧ Matcher.lastOutcome x.matcher.sequence x.matcher.withinMs
            ((World.fedTo exec place w moves).map Event.seen) = some .completed)
  /-- Whatever happens, the events that it is shown decide. -/
  always : ∀ moves, (w.after exec moves).completes place = true
    ↔ (w.after exec moves).watcherDisposed place = false
      ∧ ∃ e, (w.after exec moves).shownTo? place = some e
        ∧ Matcher.lastOutcome x.matcher.sequence x.matcher.withinMs
            ((World.shownTo exec place w moves ++ [e]).map Event.seen) = some .completed
  /-- The step that shows an event calls the target or does not; if it does, the matcher is back at the
  beginning by then. -/
  called : ∀ moves e, (w.after exec moves).shownTo? place = some e →
    ∃ stack later, later = ({ w.after exec moves with stack } : World).showTo place e
      ∧ ((w.after exec moves).completes place = true →
        later.watchers[place]?.map (·.matcher.index) = some 0
          ∧ (w.after exec moves).step exec = later.callTarget .complete x.target)
      ∧ ((w.after exec moves).completes place = false →
        (w.after exec moves).step exec = later
          ∨ (w.after exec moves).step exec = later.note (.patternExpired e.name))
  /-- So what is shown from then on is a fresh attempt, be it emitted by the target itself. -/
  anew : ∀ past moves, (w.after exec past).completes place = true →
    ((w.after exec (past ++ .step :: moves)).completes place = true
      ↔ (w.after exec (past ++ .step :: moves)).watcherDisposed place = false
        ∧ ∃ e, (w.after exec (past ++ .step :: moves)).shownTo? place = some e
          ∧ Matcher.lastOutcome x.matcher.sequence x.matcher.withinMs
              ((World.shownTo exec place ((w.after exec past).step exec) moves ++ [e]).map Event.seen)
            = some .completed)
  /-- A pattern without names is never complete. -/
  empty : x.matcher.sequence = [] → ∀ moves, (w.after exec moves).completes place = false

/-- A watcher **is silent once it is disposed of**, from some world on. -/
structure SilentOnceDisposed (exec : Executor) (w : World) (place : Nat) : Prop where
  /-- It stays disposed of, and its target is never called, not even by rounds that have begun before. -/
  final : ∀ moves more, (w.after exec moves).watcherDisposed place = true →
    (w.after exec (moves ++ more)).watcherDisposed place = true
      ∧ (w.after exec (moves ++ more)).completes place = false
  /-- It is disposed of as soon as an operation that disposes of it is done, whoever asks for it. -/
  dismissed : ∀ moves op rest label, (w.after exec moves).stack = .perform op :: rest →
    op.dismisses? = some label → (w.after exec moves).labels.watchers.lookup label = some place →
    (w.after exec (moves ++ [.step])).watcherDisposed place = true
  /-- To dispose of it once more changes nothing. -/
  again : ∀ moves, (w.after exec moves).watcherDisposed place = true →
    (w.after exec moves).disposeWatcher place = w.after exec moves

namespace World

variable {exec : Executor} {w : World} {place : Nat} {x : Watcher} {wallClock : Timestamp}
  {past : List Move}

/-- The event that the next step shows is **the first of those to be shown**. -/
theorem exists_pendingFor {e : Event} (shown : w.shownTo? place = some e) :
    ∃ later, w.pendingFor place = e :: later := by
  obtain ⟨call, next, shows⟩ := Option.bind_eq_some_iff.mp shown
  obtain ⟨frame, top, first⟩ := Option.bind_eq_some_iff.mp next
  obtain ⟨rest, stack⟩ := List.head?_eq_some_iff.mp top
  obtain ⟨later, calls⟩ := List.head?_eq_some_iff.mp first
  rw [pendingFor, stack, List.flatMap_cons, Frame.shows, calls, List.filterMap_cons_some shows]
  exact ⟨_, rfl⟩

/-- A watcher to whom nothing is to be shown so far is **fed in turn** from then on. -/
theorem fedInTurn (reached : w = (empty wallClock).after exec past) (nothing : w.pendingFor place = []) :
    FedInTurn exec w place := by
  have attentive : Attentive w := reached ▸ (attentive_empty wallClock).after exec past
  have inOrder (moves : List Move) (orderly : Orderly exec w moves)
      (uninterrupted : Uninterrupted exec place w moves) :
      fedTo exec place w moves
        = shownTo exec place w moves ++ (w.after exec moves).pendingFor place := by
    have all := (uninterrupted.oneByOne reached nothing orderly).fedTo_eq attentive
    rwa [nothing, List.nil_append] at all
  refine ⟨fun moves => ?_, fun moves idle => ?_, inOrder, fun moves e orderly uninterrupted shown => ?_⟩
  · have all := fedTo_perm attentive exec place moves
    rwa [nothing, List.nil_append] at all
  · rw [pendingFor, List.isEmpty_iff.mp idle, List.flatMap_nil]
  · -- the event that is shown is the only one that waits, so it is the last one that was fed
    have one := (uninterrupted.oneByOne reached nothing orderly).length_pendingFor_le attentive
      (by rw [nothing]; exact Nat.zero_le _)
    obtain ⟨later, pending⟩ := exists_pendingFor shown
    rw [pending, List.length_cons] at one
    have last : later = [] := List.eq_nil_of_length_eq_zero (Nat.le_zero.mp (Nat.le_of_succ_le_succ one))
    rw [inOrder moves orderly uninterrupted, pending, last]

/-- A watcher that has seen nothing so far **acts as its matcher** from then on. -/
theorem actsAsMatcher (fed : FedInTurn exec w place)
    (fresh : x.matcher = .fresh x.matcher.sequence x.matcher.withinMs)
    (there : w.watchers[place]? = some x) : ActsAsMatcher exec w place x := by
  have always := completes_iff fresh there exec
  refine ⟨fun moves orderly uninterrupted => ?_, always, fun moves e shown => ?_, fun past moves completed => ?_,
    fun none moves => ?_⟩
  · rw [always moves]
    refine and_congr_right fun _ => ?_
    cases shown : (w.after exec moves).shownTo? place with
    | none => simp
    | some e => simp [fed.latest moves e orderly uninterrupted shown]
  · obtain ⟨x', there', -, target, -⟩ := watcher_after exec there moves
    exact target ▸ step_of_completes exec shown there'
  · -- the event that completed the pattern comes before those that are shown later
    obtain ⟨-, e₀, shown, found⟩ := (always past).mp completed
    have split : shownTo exec place w (past ++ .step :: moves)
        = (shownTo exec place w past ++ [e₀])
          ++ shownTo exec place ((w.after exec past).step exec) moves := by
      rw [shownTo, shown_append, List.append_assoc]
      show _ ++ (((w.after exec past).shownTo? place).toList ++ _) = _
      rw [shown]
      rfl
    rw [always (past ++ .step :: moves), split]
    refine and_congr_right fun _ => exists_congr fun e => and_congr_right fun _ => ?_
    rw [List.append_assoc, List.map_append, Matcher.lastOutcome_append found rfl (by simp)]
  · -- an outcome that is a match was expected by the pattern, and an empty one expects nothing
    refine eq_false_of_ne_true fun completed => ?_
    obtain ⟨-, e, -, found⟩ := (always moves).mp completed
    rw [List.map_append, List.map_singleton, Matcher.lastOutcome_concat] at found
    have last : ((Matcher.after x.matcher.sequence x.matcher.withinMs
        ((shownTo exec place w moves).map Event.seen)).observe e.name e.timestamp).1 = .completed :=
      Option.some.inj found
    obtain ⟨next, -⟩ := Matcher.index_of_isMatch (congrArg Outcome.isMatch last)
    rw [Matcher.sequence_after, none] at next
    cases next

/-- Every watcher **is silent once it is disposed of**. -/
theorem silentOnceDisposed (attentive : Attentive w) (there : w.watchers[place]? = some x) :
    SilentOnceDisposed exec w place where
  final moves more gone := by
    obtain ⟨x', there', -⟩ := watcher_after exec there moves
    rw [after_append]
    have still := watcherDisposed_after there' gone exec more
    exact ⟨still, completes_of_disposed still⟩
  dismissed moves op rest label stack dismisses held := by
    have taken : (w.after exec moves).step exec = perform { w.after exec moves with stack := rest } op := by
      rw [step, stack]
      rfl
    rw [after_append]
    show ((w.after exec moves).step exec).watcherDisposed place = true
    rw [taken]
    exact watcherDisposed_perform _ dismisses held
  again moves gone := by
    obtain ⟨x', there', -⟩ := watcher_after exec there moves
    exact disposeWatcher_again (attentive.after exec moves).accounts.toWatched there' gone

/-- A callback that disposes of the watcher at the door when it rings, the watcher, and a ring. -/
def doorDismissed : List Move :=
  Move.played (.operation (.subscribe "maid" "ring" ⟨[.watchDispose "door"], 1⟩)) 1
    ++ Move.played (.operation (.watch "door" ["ring"] 1000 ⟨[], 0⟩)) 1
    ++ Move.played (.operation (.emit "ring" none .null)) 4

/-- The round goes on to show the ring to the watcher, which is silent. -/
example : (((empty .first).after noEffects doorDismissed).shownTo? 0).isSome = true
    ∧ ((empty .first).after noEffects doorDismissed).completes 0 = false := by decide

end World

open World

/-- **A watcher is its matcher on the events that it hears, until it is disposed of**: whatever happens after
the step that put it up, it is fed with every event that is emitted under a name of its pattern, once; its
target is called when the matcher completes the pattern; and never again once it is disposed of. -/
theorem watcher_is_its_matcher (exec : Executor) (wallClock : Timestamp) (past : List Move) (w begun : World)
    (reached : w = (World.empty wallClock).after exec past) (next : begun = w.step exec) (place : Nat)
    (x : Watcher) (absent : w.watchers[place]? = none) (putUp : begun.watchers[place]? = some x) :
    FedInTurn exec begun place ∧ ActsAsMatcher exec begun place x ∧ SilentOnceDisposed exec begun place := by
  have reached' : begun = (World.empty wallClock).after exec (past ++ [.step]) := by
    rw [after_append, ← reached]
    exact next
  have attentive : Attentive w := reached ▸ (attentive_empty wallClock).after exec past
  have fresh : x.matcher = .fresh x.matcher.sequence x.matcher.withinMs :=
    fresh_of_step exec absent (next ▸ putUp)
  -- a watcher that was not there yet was on nobody's list
  have nothing : begun.pendingFor place = [] := by
    have step := pending_step attentive exec place
    have unheard : w.fed? place = none := by
      refine Option.eq_none_iff_forall_ne_some.mpr fun e fed => ?_
      obtain ⟨-, heard⟩ := Option.filter_eq_some_iff.mp fed
      rw [heardBy, absent] at heard
      cases heard
    rw [unheard, pendingFor_of_absent reached absent, ← next] at step
    exact (List.append_eq_nil_iff.mp step.symm).2
  have fed : FedInTurn exec begun place := fedInTurn reached' nothing
  exact ⟨fed, actsAsMatcher fed fresh putUp,
    silentOnceDisposed (next ▸ attentive.step exec) putUp⟩

/-- A callback that waits for a knock and a ring at the door. -/
def doorWatched : List Move :=
  [.receive (.operation (.watch "door" ["knock", "ring"] 1000 ⟨[], 0⟩))]

/-- Someone knocks, and rings; the last thing that is done is that the ring is to be told. -/
def knockAndRing : List Move :=
  Move.played (.operation (.emit "knock" none .null)) 4
    ++ Move.played (.operation (.emit "ring" none .null)) 1

/-- The watcher at the door is fed with the knock and the ring, and its callback is called when it is shown
the ring. -/
theorem watcher_is_its_matcher_door :
    ∃ begun, begun = ((World.empty .first).after noEffects doorWatched).step noEffects
      ∧ (fedTo noEffects 0 begun knockAndRing).map Event.name = ["knock", "ring"]
      ∧ (begun.after noEffects knockAndRing).completes 0 = true := by
  obtain ⟨x, putUp⟩ : ∃ x, (((World.empty .first).after noEffects doorWatched).step noEffects).watchers[0]?
      = some x := ⟨_, rfl⟩
  obtain ⟨-, acts, -⟩ := watcher_is_its_matcher noEffects .first doorWatched _ _ rfl rfl 0 x rfl putUp
  have orderly : Orderly noEffects (((World.empty .first).after noEffects doorWatched).step noEffects)
      knockAndRing :=
    orderly_append.mpr ⟨orderly_played (by rfl) _ _, orderly_played (by rfl) _ _⟩
  have uninterrupted : Uninterrupted noEffects 0
      (((World.empty .first).after noEffects doorWatched).step noEffects) knockAndRing :=
    uninterrupted_of_shallow (by decide)
  refine ⟨_, rfl, by decide, (acts.exactly knockAndRing orderly uninterrupted).mpr ⟨by decide, by decide, ?_⟩⟩
  obtain rfl := Option.some.inj putUp
  decide

end RuleDispatch
