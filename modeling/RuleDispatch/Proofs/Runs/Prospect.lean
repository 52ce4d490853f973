import RuleDispatch.Proofs.Runs.Course
import RuleDispatch.Proofs.Runs.Poised
import RuleDispatch.Proofs.Runs.Schedule

/-! # What can be seen of a run from where it stands

What a run is still going to do hangs on little: on the run itself, on the frame that goes on with
it, on the time, and on when sleepers wake up. So whatever is read off from these alone is kept by
every move that is not a turn of this run, and a turn of it changes it as it changes the run.

* `turnIn`, `World.clockMoves`, `World.wakes` — the frame that goes on with a run, and the clock.
* `Prospect`, `World.prospect` — deeds to come, read off from where a run stands.
* `World.Poised.prospect_step` — one step takes off the deed that it is.
* `World.Punctual` — a run does what stands in a timetable, in time. -/

namespace RuleDispatch

/-! ## 1. Turns and the clock -/

/-- The frame among others that **goes on with a run**. -/
def turnIn (id : Nat) (frames : List Frame) : Option Frame :=
  frames.find? fun f => f.acts? = some id

@[simp] theorem turnIn_nil (id : Nat) : turnIn id [] = none := rfl

@[simp] theorem turnIn_execute (id : Nat) (rest : List Frame) :
    turnIn id (.execute id :: rest) = some (.execute id) := by
  simp [turnIn, Frame.acts?]

@[simp] theorem turnIn_serve (id : Nat) (call : Call) (rest : List Frame) :
    turnIn id (.serve id call :: rest) = some (.serve id call) := by
  simp [turnIn, Frame.acts?]

/-- Frames that do not go on with the run **do not matter**. -/
theorem turnIn_append {id : Nat} {frames : List Frame} (h : ∀ f ∈ frames, f.acts? ≠ some id)
    (rest : List Frame) : turnIn id (frames ++ rest) = turnIn id rest := by
  have none : frames.find? (fun f => decide (f.acts? = some id)) = none :=
    List.find?_eq_none.mpr fun f member => by simpa using h f member
  rw [turnIn, List.find?_append, none]
  rfl

/-- A frame of another run is **not the turn** of this one. -/
theorem turnIn_cons {id : Nat} {frame : Frame} (h : frame.acts? ≠ some id) (rest : List Frame) :
    turnIn id (frame :: rest) = turnIn id rest :=
  @turnIn_append id [frame] (fun _ member => List.mem_singleton.mp member ▸ h) rest

/-- Plain frames are **nobody's turn**. -/
theorem turnIn_append_of_isPlain {id : Nat} {frames : List Frame}
    (h : ∀ f ∈ frames, f.isPlain = true) (rest : List Frame) :
    turnIn id (frames ++ rest) = turnIn id rest :=
  turnIn_append (fun f member => by rw [Frame.acts?_of_isPlain (h f member)]; rintro ⟨⟩) rest

/-- Among frames of which none goes on with a run there is none. -/
theorem turnIn_eq_none {id : Nat} {frames : List Frame} (h : ∀ f ∈ frames, f.acts? ≠ some id) :
    turnIn id frames = none := by
  rw [← List.append_nil frames, turnIn_append h, turnIn_nil]

/-- Where **no run has a turn**, none has this one. -/
theorem turnIn_eq_none_of_run? {frames : List Frame} {id : Nat}
    (none : ∀ f ∈ frames, f.run? = none) : turnIn id frames = Option.none :=
  turnIn_eq_none fun f member acts => by
    have run := none f member
    rw [Frame.run?_of_acts? acts] at run
    cases run

namespace World

variable {exec : Executor} {w w' : World}

/-- The **moves of the clock to come**, that under way first. -/
def clockMoves (w : World) (future : List Move) : List ClockMove :=
  w.stack.filterMap (Frame.clock? w.now) ++ future.filterMap Move.clock?

/-- When somebody who waits for a moment **wakes up**. -/
def wakes (w : World) (future : List Move) (deadline : Nat) : Nat :=
  wakeAt w.now (w.clockMoves future) deadline

/-- Nobody wakes **before the time**. -/
theorem le_wakes (w : World) (future : List Move) (d : Nat) : d ≤ w.wakes future d :=
  (le_wakeAt w.now _ d).2

/-- Who is due already wakes **now**. -/
theorem wakes_of_le (w : World) (future : List Move) {d : Nat} (h : d ≤ w.now) :
    w.wakes future d = w.now :=
  wakeAt_of_le h _

/-- What is plain, and the turns of tasks, do not move the clock. -/
theorem clock?_of_isPlain {f : Frame} (now : Nat) (h : f.isPlain = true) : f.clock? now = none := by
  cases f <;> first | rfl | cases h

/-- Frames that do not move the clock do not matter for it. -/
theorem filterMap_clock?_append {now : Nat} {frames : List Frame}
    (h : ∀ f ∈ frames, f.clock? now = none) (rest : List Frame) :
    (frames ++ rest).filterMap (Frame.clock? now) = rest.filterMap (Frame.clock? now) := by
  rw [List.filterMap_append, List.filterMap_eq_nil_iff.mpr h, List.nil_append]

end World

/-- A turn leaves no clock to be moved, and goes on with its own run only. -/
theorem TurnEnds.of_mem {now : Nat} {r : Run} {result : Option Run × List Frame}
    (h : TurnEnds now r result) {f : Frame} (member : f ∈ result.2) :
    f.clock? now = none ∧ ∀ id, f.acts? = some id → id = r.id := by
  cases h with
  | closed => cases member
  | waits => cases member
  | goes frames same acting plain isTurn mine awake =>
    rcases List.mem_append.mp member with above | last
    · refine ⟨World.clock?_of_isPlain now (plain f above), fun id acts => ?_⟩
      rw [Frame.acts?_of_isPlain (plain f above)] at acts
      cases acts
    · obtain rfl := List.mem_singleton.mp last
      refine ⟨?_, fun id acts => ?_⟩
      · cases f <;> first | rfl | cases mine
      · rw [Frame.run?_of_acts? acts] at mine
        exact Option.some.inj mine

namespace World

variable {exec : Executor} {w w' : World}

/-- What a turn leaves to be done moves **no clock**. -/
theorem Turned.clockMoves {r : Run} {frame : Frame} {rest : List Frame}
    {result : Option Run × List Frame} (turned : Turned w w' r.id rest result)
    (ends : TurnEnds w.now r result) (stack : w.stack = frame :: rest)
    (mine : frame.run? = some r.id) (future : List Move) :
    w'.clockMoves future = w.clockMoves (.step :: future) := by
  have still : frame.clock? w.now = none := by
    cases frame <;> first | rfl | cases mine
  rw [World.clockMoves, World.clockMoves, turned.stack, turned.now, stack,
    filterMap_clock?_append fun f member => (ends.of_mem member).1, List.filterMap_cons, still]
  rfl

/-- Below the turn of a run there is **no other**. -/
theorem Poised.run?_below (h : Poised w) {frame : Frame} {rest : List Frame} {id : Nat}
    (stack : w.stack = frame :: rest) (run : frame.run? = some id) : ∀ f ∈ rest, f.run? = none := by
  obtain ⟨clock, rfl, below⟩ := h.layers_below_turn stack run
  exact below.run?_of_drain

end World

/-! ## 2. Prospects -/

/-- The **deeds to come** of a run, as they are read off from when sleepers wake up, from the time,
from the run, and from the frame that goes on with it. -/
abbrev Prospect :=
  (Nat → Nat) → Nat → Run → Option Frame → List (Nat × Deed)

namespace Run

/-- What a step of a service call shows: **a panic**, if it comes to one. -/
def servedDeed? (now : Nat) : Call → Option (Nat × Deed)
  | ⟨_, [], .panicked⟩ => some (now, .panic)
  | _ => none

end Run

namespace Prospect

/-- It does not matter for what is to come **whether the run was cancelled** just now. -/
def Blind (V : Prospect) : Prop :=
  ∀ wake now r turn, V wake now (r.marked true) turn = V wake now r turn

/-- As long as the run waits, what is to come hangs on **later moments** only. -/
def Patient (V : Prospect) (r : Run) : Prop :=
  ∀ wake wake' now now' d, (∀ d, d ≤ wake d) → r.deadline? = some d →
    (∀ d', d ≤ d' → wake d' = wake' d') → V wake now r none = V wake' now' r none

/-- What is to come after a turn. -/
def later (V : Prospect) (wake : Nat → Nat) (now id : Nat) (result : Option Run × List Frame) :
    List (Nat × Deed) :=
  result.1.elim [] fun r => V wake now r (turnIn id result.2)

end Prospect

namespace World

variable {exec : Executor} {w w' : World} {V : Prospect}

/-- The deeds to come of a run **in the world**; none when it is over. -/
def prospect (w : World) (V : Prospect) (future : List Move) (id : Nat) : List (Nat × Deed) :=
  (w.run? id).elim [] fun r => V (w.wakes future) w.now r (turnIn id w.stack)

/-- When neither the run nor the clock is touched, what is to come **stays**. -/
theorem prospect_congr (blind : V.Blind) {future future' : List Move} {id : Nat}
    (now : w'.now = w.now) (turn : turnIn id w'.stack = turnIn id w.stack)
    (clock : w'.clockMoves future' = w.clockMoves future)
    (run : (w'.run? id).map (·.marked true) = (w.run? id).map (·.marked true)) :
    w'.prospect V future' id = w.prospect V future id := by
  have wakes : w'.wakes future' = w.wakes future := by
    funext d
    rw [World.wakes, World.wakes, now, clock]
  unfold prospect
  rw [wakes, now, turn]
  cases there : w.run? id with
  | none =>
    rw [there] at run
    rw [Option.map_eq_none_iff.mp run]
  | some r =>
    rw [there] at run
    obtain ⟨r', later, same⟩ := Option.map_eq_some_iff.mp run
    rw [later]
    show V _ _ r' _ = V _ _ r _
    rw [← blind _ _ r', same, blind]

/-! ## 3. One move -/

/-- What goes on without any turn keeps to **all that is to come**. -/
theorem Extends.prospect (ext : Extends w w') (numbered' : Numbered w') (blind : V.Blind)
    (future : List Move) {id : Nat} (old : id < w.nextRun) :
    w'.prospect V future id = w.prospect V future id := by
  obtain ⟨frames, plain, stack⟩ := ext.stack
  refine prospect_congr blind ext.now ?_ ?_ (ext.run? numbered' old)
  · rw [stack, turnIn_append_of_isPlain plain]
  · rw [clockMoves, clockMoves, stack, ext.now,
      filterMap_clock?_append fun f member => clock?_of_isPlain _ (plain f member)]

/-- Something that moves neither run nor clock **taken off the stack** changes nothing of it. -/
theorem prospect_below {frame : Frame} {rest : List Frame} (stack : w.stack = frame :: rest)
    (run : frame.acts? = none) (clock : frame.clock? w.now = none) (blind : V.Blind)
    (future : List Move) (id : Nat) :
    World.prospect { w with stack := rest } V future id = w.prospect V future id := by
  refine prospect_congr blind rfl ?_ ?_ rfl
  · show turnIn id rest = turnIn id w.stack
    rw [stack]
    exact (turnIn_cons (by simp [run]) rest).symm
  · show rest.filterMap _ ++ _ = w.stack.filterMap _ ++ _
    rw [stack, List.filterMap_cons, clock]

/-- **Time passing** changes nothing for a run that is patient. -/
theorem Poised.prospect_clock (h : Poised w) (exec : Executor) (clock : Clocked w.stack)
    (queue : w.ready = []) (future : List Move) {id : Nat}
    (patient : ∀ r, w.run? id = some r → V.Patient r) :
    (w.step exec).prospect V future id = w.prospect V (.step :: future) id := by
  have idle : turnIn id w.stack = none := turnIn_eq_none_of_run? clock.run?_eq_none
  -- who waits notices nothing as long as it wakes up at the same moments
  have same {later : World} {now : Nat} {stack : List Frame}
      (ledger : later.ledger = { w.ledger with now, stack, ready := later.ready })
      (idle' : turnIn id stack = none)
      (wakes : ∀ r ∈ w.runs, ∀ d, r.deadline? = some d → w.now < d → ∀ d', d ≤ d' →
        w.wakes (.step :: future) d'
          = wakeAt now (stack.filterMap (Frame.clock? now) ++ future.filterMap Move.clock?) d') :
      later.prospect V future id = w.prospect V (.step :: future) id := by
    have runs : later.runs = w.runs := congrArg Ledger.runs ledger
    have now' : later.now = now := congrArg Ledger.now ledger
    have stack' : later.stack = stack := congrArg Ledger.stack ledger
    have found : later.run? id = w.run? id := by rw [World.run?, World.run?, runs]
    unfold World.prospect
    rw [found, stack', idle, idle']
    cases there : w.run? id with
    | none => rfl
    | some r =>
      have member := List.mem_of_find?_eq_some there
      obtain ⟨d, waits, come⟩ := h.waits clock queue member
      refine (patient r there _ _ _ _ d (w.le_wakes _) waits fun d' after => ?_).symm
      rw [wakes r member d waits come d' after, World.wakes, clockMoves, now', stack']
  generalize stack : w.stack = all at clock
  cases clock with
  | advancing time =>
    have reached : w.now ≤ time := h.forward time (by simp [stack])
    have moves : w.clockMoves (.step :: future)
        = .advance (time - w.now) :: future.filterMap Move.clock? := by
      rw [clockMoves, stack]
      rfl
    rcases w.appointment_or_none time with ⟨next, appointment, before⟩ | none
    · -- the clock stops at the first appointment, and the run has none before it
      rw [step_advance_of_le exec stack appointment before]
      refine same (ledger_wakeDue _) rfl fun r member d waits come d' later => ?_
      obtain ⟨next', appointment', first⟩ := nextAppointment?_le member waits
      obtain rfl : next = next' := Option.some.inj (appointment.symm.trans appointment')
      rw [World.wakes, moves]
      exact wakeAt_advance_split _ (Nat.le_max_left _ _) (Nat.max_le.mpr ⟨reached, before⟩)
        (Nat.max_le.mpr ⟨by omega, by omega⟩)
    · -- it goes on to the end, and the run has no appointment until then
      rw [step_advance_of_lt exec stack none]
      refine same rfl rfl fun r member d waits _ d' later => ?_
      obtain ⟨next, appointment, before⟩ := nextAppointment?_le member waits
      have after := none next appointment
      rw [World.wakes, moves, wakeAt_advance _ reached (by omega)]
      rfl
  | leaping ms =>
    have moves : w.clockMoves (.step :: future) = .jump ms :: future.filterMap Move.clock? := by
      rw [clockMoves, stack]
      rfl
    rw [step_leap exec stack]
    refine same (ledger_wakeDue _) rfl fun r _ d _ come d' later => ?_
    rw [World.wakes, moves, wakeAt_jump _ (by omega)]
    rfl

/-- What is going to be done **after a turn** is what the turn left. -/
theorem Turned.prospect {r : Run} {frame : Frame} {rest : List Frame}
    {result : Option Run × List Frame} (turned : Turned w w' r.id rest result)
    (ends : TurnEnds w.now r result) (stack : w.stack = frame :: rest)
    (mine : frame.run? = some r.id) (below : ∀ f ∈ rest, f.run? = none) (numbered' : Numbered w')
    (member : r ∈ w.runs) (same : ∀ later, result.1 = some later → later.id = r.id)
    (V : Prospect) (future : List Move) :
    w'.prospect V future r.id = V.later (w.wakes (.step :: future)) w.now r.id result := by
  have wakes : w'.wakes future = w.wakes (.step :: future) := by
    funext d
    rw [World.wakes, World.wakes, turned.now, turned.clockMoves ends stack mine]
  have idle : turnIn r.id rest = none := turnIn_eq_none_of_run? below
  have turn : turnIn r.id (result.2 ++ rest) = turnIn r.id result.2 := by
    rw [turnIn, List.find?_append]
    show (turnIn r.id result.2).or (turnIn r.id rest) = _
    rw [idle, Option.or_none]
  rw [World.prospect, turned.run?_self numbered' member same, wakes, turned.now,
    turned.stack, turn]
  rfl

/-- A turn of a run takes off the deed that it is, **seen from the run alone**. -/
structure Keeps (w : World) (V : Prospect) (exec : Executor) (future : List Move) (r : Run) :
    Prop where
  stride : w.stridesOf exec [.step] r.id = [r.nextStride w.now w.calls] →
    V (w.wakes future) w.now r (some (.execute r.id))
      = ((r.progress.next r.cancelled).1.deed?.map fun d => (w.now, d)).toList
        ++ V.later (w.wakes future) w.now r.id (r.stride exec w.now w.calls)
  served : ∀ call, V (w.wakes future) w.now r (some (.serve r.id call))
    = (Run.servedDeed? w.now call).toList
      ++ V.later (w.wakes future) w.now r.id (r.served w.now call)
  resumed : V (w.wakes future) w.now r none
    = V.later (w.wakes future) w.now r.id (r.resumed w.now)

/-- **A turn of its own** takes off the deed that it is, if this holds of the run alone. -/
theorem Poised.prospect_turn_self (h : Poised w) (sound : Sound w) {frame : Frame}
    {rest : List Frame} {id : Nat} (stack : w.stack = frame :: rest) (run : frame.run? = some id)
    {future : List Move} (keeps : ∀ r, w.run? id = some r → w.Keeps V exec (.step :: future) r) :
    w.prospect V (.step :: future) id
      = w.deedsOf exec [.step] id ++ (w.step exec).prospect V future id := by
  obtain ⟨-, r, member, rfl, phase⟩ := h.turn frame (stack ▸ List.mem_cons_self) id run
  have found := sound.run?_eq_some member
  have turned := turned_step exec sound.toNumbered stack run member
  have ends : TurnEnds w.now r (r.turn exec w.now w.calls frame) :=
    Run.turnEnds exec w.calls run phase
  have below := h.run?_below stack run
  rw [turned.prospect ends stack run below (sound.move exec .step).numbered member
    fun _ => Run.id_turn, World.prospect,
    found, stack, Option.elim_some]
  cases frame with
  | execute other =>
    obtain rfl := Option.some.inj run
    have strides : w.stridesOf exec [.step] r.id = [r.nextStride w.now w.calls] :=
      stridesOf_step_of_execute stack found
    have deed : w.deed? r.id = (r.progress.next r.cancelled).1.deed?.map fun d => (w.now, d) := by
      rw [deed?, stack, found]
      exact if_pos rfl
    rw [deedsOf_step, deed, turnIn_execute]
    exact (keeps r found).stride strides
  | serve other call =>
    obtain rfl := Option.some.inj run
    have deed : w.deed? r.id = Run.servedDeed? w.now call := by
      obtain ⟨service, effects, result⟩ := call
      rw [deed?, stack]
      cases effects with
      | nil =>
        cases result with
        | done => rfl
        | failed reason => rfl
        | panicked =>
          show (if r.id = r.id then (w.run? r.id).map _ else none) = _
          rw [found, if_pos rfl]
          rfl
      | cons effect effects => rfl
    rw [deedsOf_step, deed, turnIn_serve]
    exact (keeps r found).served call
  | resume task =>
    cases task with
    | timer index => cases run
    | run other =>
      obtain rfl := Option.some.inj run
      -- waking up is no deed, and no turn that the run goes on with
      have idle : turnIn r.id (.resume (.run r.id) :: rest) = none :=
        (turnIn_cons (by rintro ⟨⟩) rest).trans (turnIn_eq_none_of_run? below)
      rw [deedsOf_step, deed?_of_acts?_ne stack (by rintro ⟨⟩), idle]
      exact (keeps r found).resumed
  | perform | respond | record | deliver | tellNumber | tellText | lines | drain | advanceTo
  | leap => cases run

/-- **Another's turn** changes nothing. -/
theorem Poised.prospect_turn_of_ne (h : Poised w) (sound : Sound w) {frame : Frame}
    {rest : List Frame} {id other : Nat} (stack : w.stack = frame :: rest)
    (run : frame.run? = some other) (apart : id ≠ other) (blind : V.Blind) (future : List Move) :
    (w.step exec).prospect V future id = w.prospect V (.step :: future) id := by
  have numbered' := (sound.move exec .step).numbered
  obtain ⟨-, r, member, rfl, phase⟩ := h.turn frame (stack ▸ List.mem_cons_self) other run
  have turned := turned_step exec sound.toNumbered stack run member
  have ends : TurnEnds w.now r (r.turn exec w.now w.calls frame) :=
    Run.turnEnds exec w.calls run phase
  have kept := turned.run?_of_ne numbered' (fun _ => Run.id_turn) apart
  have elsewhere {f : Frame} (acts : ∀ i, f.acts? = some i → i = r.id) : f.acts? ≠ some id :=
    fun same => apart (acts id same)
  refine prospect_congr blind turned.now ?_ (turned.clockMoves ends stack run future) (by rw [kept])
  rw [turned.stack, turnIn_append fun f member => elsewhere (ends.of_mem member).2, stack]
  refine (turnIn_cons (elsewhere fun i acts => ?_) rest).symm
  rw [Frame.run?_of_acts? acts] at run
  exact Option.some.inj run

/-- **Something from outside** taken up while nothing is being done changes nothing. -/
theorem prospect_receive (idle : w.isIdle = true) (s : Stimulus) (blind : V.Blind)
    (future : List Move) (id : Nat) :
    (w.receive s).prospect V future id = w.prospect V (.receive s :: future) id := by
  have stack : w.stack = [] := List.isEmpty_iff.mp idle
  have pushed (frames : List Frame) (acts : ∀ f ∈ frames, f.acts? = none)
      (clock : frames.filterMap (Frame.clock? w.now) = (Move.clock? (.receive s)).toList) :
      (w.push frames).prospect V future id = w.prospect V (.receive s :: future) id := by
    have all : (w.push frames).stack = frames := by rw [stack_push, stack, List.append_nil]
    refine prospect_congr blind rfl ?_ ?_ rfl
    · rw [all, stack, turnIn_nil]
      exact turnIn_eq_none fun f member => by rw [acts f member]; rintro ⟨⟩
    · show (w.push frames).stack.filterMap (Frame.clock? w.now) ++ _ = _
      rw [clockMoves, all, stack, clock, List.filterMap_nil, List.nil_append, List.filterMap_cons]
      cases Move.clock? (.receive s) <;> rfl
  cases s with
  | operation op => exact pushed [.perform op] (by simp [Frame.acts?]) rfl
  | advance ms =>
    refine pushed [.drain, .advanceTo (w.now + ms), .respond .done] (by simp [Frame.acts?]) ?_
    show [ClockMove.advance (w.now + ms - w.now)] = [.advance ms]
    rw [Nat.add_sub_cancel_left]
  | jump ms => exact pushed [.drain, .leap ms, .drain, .respond .done] (by simp [Frame.acts?]) rfl

/-- A timer's turn changes nothing. -/
theorem prospect_tick (sound : Sound w) {index : Nat} {rest : List Frame}
    (stack : w.stack = .resume (.timer index) :: rest) (blind : V.Blind) (future : List Move)
    {id : Nat} (old : id < w.nextRun) :
    (w.step exec).prospect V future id = w.prospect V (.step :: future) id := by
  have taken : w.step exec = tick { w with stack := rest } index := by
    rw [step, stack]
    rfl
  have numbered' := (sound.move exec .step).numbered
  obtain ⟨u, same, place, -, -, acts⟩ := acts_tick { w with stack := rest } index
  have runs : u.runs = w.runs := congrArg Ledger.runs same
  have now : u.now = w.now := congrArg Ledger.now same
  have nextRun : u.nextRun = w.nextRun := congrArg Ledger.nextRun same
  rw [World.move, taken] at numbered'
  rw [taken, (extends_acts acts).prospect numbered' blind future (nextRun ▸ old)]
  -- the timer's turn is no run's, whether it is put back or not
  refine prospect_congr blind now ?_ ?_ (by rw [World.run?, World.run?, runs])
  · rw [stack, turnIn_cons (by simp [Frame.acts?])]
    rcases place with place | place
    · rw [place]
    · rw [place]
      exact turnIn_cons (by simp [Frame.acts?]) rest
  · rw [clockMoves, clockMoves, now, stack]
    rcases place with place | place
    · rw [place]
      rfl
    · rw [place]
      rfl

/-- **Giving a turn** changes nothing. -/
theorem prospect_drain {rest : List Frame} (stack : w.stack = .drain :: rest) (blind : V.Blind)
    (future : List Move) (id : Nat) :
    (w.step exec).prospect V future id = w.prospect V (.step :: future) id := by
  cases queue : w.ready with
  | nil =>
    rw [step_drain_of_nil exec stack queue]
    exact prospect_below stack rfl rfl blind future id
  | cons task tasks =>
    rw [step_drain_of_cons exec stack queue]
    refine prospect_congr blind rfl ?_ ?_ rfl
    · rw [stack]
      exact turnIn_cons (by simp [Frame.acts?]) (.drain :: rest)
    · rw [clockMoves, clockMoves, stack]
      rfl

/-- **One step** takes off the deed that it is and leaves the others to come, if every turn of the run
alone does. -/
theorem Poised.prospect_step (h : Poised w) (sound : Sound w) (blind : V.Blind) {future : List Move}
    {id : Nat} (old : id < w.nextRun)
    (patient : Clocked w.stack → w.ready = [] → ∀ r, w.run? id = some r → V.Patient r)
    (keeps : ∀ r, w.run? id = some r → w.Keeps V exec (.step :: future) r) :
    w.prospect V (.step :: future) id
      = w.deedsOf exec [.step] id ++ (w.step exec).prospect V future id := by
  -- whatever does not go on with the run is no deed of it
  have silent {frame : Frame} {rest : List Frame} (stack : w.stack = frame :: rest)
      (other : frame.acts? ≠ some id)
      (kept : (w.step exec).prospect V future id = w.prospect V (.step :: future) id) :
      w.prospect V (.step :: future) id
        = w.deedsOf exec [.step] id ++ (w.step exec).prospect V future id := by
    rw [deedsOf_step, deed?_of_acts?_ne stack other, kept]
    rfl
  cases stack : w.stack with
  | nil =>
    have still : w.deed? id = none := by rw [deed?, stack]
    rw [deedsOf_step, still]
    show _ = (w.step exec).prospect V future id
    rw [step_idle exec w stack]
    rfl
  | cons frame rest =>
    rcases h.clocked_or_layers stack with ⟨clock, queue⟩ | plain | ⟨other, run⟩ | ⟨index, rfl⟩
      | rfl
    · -- the clock moves, and nobody has a turn
      refine silent stack (fun acts => ?_)
        (h.prospect_clock exec clock queue future (patient clock queue))
      have run := clock.run?_eq_none frame (stack ▸ List.mem_cons_self)
      rw [Frame.run?_of_acts? acts] at run
      cases run
    · -- something is done between two turns
      refine silent stack (by rw [Frame.acts?_of_isPlain plain]; rintro ⟨⟩) ?_
      have taken : w.step exec = act { w with stack := rest } exec frame := by
        rw [World.step, stack]
      have numbered' := (sound.move exec .step).numbered
      have ext := extends_acts (acts_plain exec { w with stack := rest } plain)
      rw [← taken] at ext
      rw [ext.prospect numbered' blind future old]
      exact prospect_below stack (Frame.acts?_of_isPlain plain) (clock?_of_isPlain _ plain) blind
        future id
    · -- a run has its turn, this one or another
      by_cases mine : id = other
      · exact h.prospect_turn_self sound stack (mine ▸ run) keeps
      · refine silent stack (fun acts => mine ?_)
          (h.prospect_turn_of_ne sound stack run mine blind future)
        rw [Frame.run?_of_acts? acts] at run
        exact Option.some.inj run
    · -- a timer has its turn
      exact silent stack (by rintro ⟨⟩) (prospect_tick sound stack blind future old)
    · -- the next turn is given
      exact silent stack (by rintro ⟨⟩) (prospect_drain stack blind future id)

/-! ## 4. Doing what stands in a timetable -/

/-- **Nothing is left to be done** until the clock moves. -/
def AtRest (w : World) : Prop :=
  w.stack = [] ∧ w.ready = []

/-- The clock **does not go back** in an orderly history. -/
theorem Poised.now_le_step (h : Poised w) (sound : Sound w) (exec : Executor) :
    w.now ≤ (w.step exec).now := by
  have woken (v : World) : v.wakeDue.now = v.now := congrArg Ledger.now (ledger_wakeDue v)
  -- only the clock changes what time it is
  have still (same : (w.step exec).now = w.now) : w.now ≤ (w.step exec).now :=
    Nat.le_of_eq same.symm
  cases stack : w.stack with
  | nil => exact still (by rw [step_idle exec w stack])
  | cons frame rest =>
    have taken : w.step exec = act { w with stack := rest } exec frame := by rw [World.step, stack]
    rcases h.clocked_or_layers stack with ⟨clock, -⟩ | plain | ⟨id, run⟩ | ⟨index, rfl⟩ | rfl
    · rw [stack] at clock
      cases clock with
      | advancing time =>
        rcases w.appointment_or_none time with ⟨next, appointment, before⟩ | none
        · rw [step_advance_of_le exec stack appointment before, woken]
          exact Nat.le_max_left w.now next
        · rw [step_advance_of_lt exec stack none]
          exact h.forward time (by simp [stack])
      | leaping ms =>
        rw [step_leap exec stack, woken]
        exact Nat.le_add_right w.now ms
    · exact still (taken ▸ (extends_acts (acts_plain exec { w with stack := rest } plain)).now)
    · obtain ⟨-, r, member, rfl, -⟩ := h.turn frame (stack ▸ List.mem_cons_self) id run
      exact still (turned_step exec sound.toNumbered stack run member).now
    · obtain ⟨u, same, -, -, -, acts⟩ := acts_tick { w with stack := rest } index
      have now : u.now = w.now := congrArg Ledger.now same
      exact still (taken ▸ (extends_acts acts).now.trans now)
    · refine still ?_
      cases queue : w.ready with
      | nil => rw [step_drain_of_nil exec stack queue]
      | cons task tasks => rw [step_drain_of_cons exec stack queue]

/-- A deed is done **at its moment**. -/
theorem fst_eq_now_of_deed? {id : Nat} {deed : Nat × Deed} (h : w.deed? id = some deed) :
    deed.1 = w.now := by
  unfold deed? at h
  split at h
  · split at h
    · obtain ⟨r, -, found⟩ := Option.bind_eq_some_iff.mp h
      obtain ⟨d, -, rfl⟩ := Option.map_eq_some_iff.mp found
      rfl
    · cases h
  · split at h
    · obtain ⟨r, -, rfl⟩ := Option.map_eq_some_iff.mp h
      rfl
    · cases h
  · cases h

/-- What was done was done **by now**. -/
theorem Poised.le_now_of_mem_deedsOf (h : Poised w) (sound : Sound w) {moves : List Move}
    (orderly : Orderly exec w moves) (id : Nat) :
    w.now ≤ (w.after exec moves).now
      ∧ ∀ deed ∈ w.deedsOf exec moves id, deed.1 ≤ (w.after exec moves).now := by
  induction moves generalizing w with
  | nil => exact ⟨Nat.le_refl _, fun _ member => by cases member⟩
  | cons m moves ih =>
    obtain ⟨poised, later⟩ := h.move sound exec orderly
    obtain ⟨forward, done⟩ := ih poised (sound.of_moved (sound.move exec m)) later
    have first : w.now ≤ (w.move exec m).now := by
      cases m with
      | step => exact h.now_le_step sound exec
      | receive s => cases s <;> exact Nat.le_refl _
    have all := Nat.le_trans first forward
    refine ⟨all, fun deed member => ?_⟩
    rw [deedsOf_cons] at member
    rcases List.mem_append.mp member with now | after
    · -- the first move did it, and the clock does not go back after it
      cases m with
      | receive s => cases now
      | step =>
        rw [deedsOf_step, Option.mem_toList] at now
        exact fst_eq_now_of_deed? now ▸ all
    · exact done deed after

/-- What a run does **at which moments**, when nothing comes from outside before what came before is
done. -/
structure Punctual (w : World) (exec : Executor) (moves : List Move) (id : Nat)
    (table : List (Nat × Deed)) : Prop where
  /-- Whatever it has done so far stands in the timetable. -/
  sofar : w.deedsOf exec moves id <+: table
  /-- At rest it has done what stands there up to now. -/
  rest : (w.after exec moves).AtRest →
    w.deedsOf exec moves id = table.filter (·.1 ≤ (w.after exec moves).now)
  /-- Once it has done all that stands there it is over. -/
  closed : w.deedsOf exec moves id = table → (w.after exec moves).run? id = none

/-- What a run has done **and what is left of its timetable** make up the timetable, so it does what
stands there in time when nothing is left at rest that should have been done by then. -/
theorem Poised.punctual_of_split (h : Poised w) (sound : Sound w) {moves : List Move}
    (orderly : Orderly exec w moves) {id : Nat} {table left : List (Nat × Deed)}
    (split : table = w.deedsOf exec moves id ++ left)
    (later : (w.after exec moves).AtRest → ∀ deed ∈ left, (w.after exec moves).now < deed.1)
    (more : left = [] → (w.after exec moves).run? id = none) :
    w.Punctual exec moves id table := by
  refine ⟨⟨left, split.symm⟩, fun rest => ?_, fun all => ?_⟩
  · have done := (h.le_now_of_mem_deedsOf sound orderly id).2
    rw [split, List.filter_append,
      List.filter_eq_self.mpr fun deed member => decide_eq_true (done deed member),
      List.filter_eq_nil_iff.mpr fun deed member => ?_, List.append_nil]
    simpa using later rest deed member
  · rw [all] at split
    exact more (List.self_eq_append_right.mp split)

end World

end RuleDispatch
