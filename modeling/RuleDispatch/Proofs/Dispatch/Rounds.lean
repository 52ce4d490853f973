import RuleDispatch.Proofs.Disposal.Deliveries
import RuleDispatch.Proofs.Dispatch.Edits
import RuleDispatch.Proofs.Dispatch.Ending

/-! # Rounds of calls

An event that is emitted and a value that is written are notices. When one is given, it is read off who
is to be told, and these are called in a round, one after another. Whatever a call does is done before
the next call, rounds of its own included, and something from outside may come at any time. None of it
changes whom the round calls, with what, or in which order; and when nothing more comes from outside, the
round comes to its end.

* `Notice`, `World.notice?` — what is told, and what the next step tells.
* `World.emission?` — the event that the next step emits.
* `Hearing`, `World.hear` — one call of a round.
* `World.heard` — the calls that the round at some depth makes in a history.
* `Round` — a round that makes exactly these calls.
* `World.tell`, `World.step_eq_tell_below` — a notice given, and what is left to be done after it.
* `World.round_of_notice` — the round that it begins. -/

namespace RuleDispatch

/-! ## 1. Notices and calls -/

/-- What a round **tells**: an event was emitted, or a value written. -/
inductive Notice where
  | event (event : Event)
  | number (key : String) (value : Float)
  | text (key value : String)

/-- One **call** of a round: who is told what. -/
inductive Hearing where
  | event (event : Event) (handler : Handler)
  | number (key : String) (value : Float) (listener : NumberListener)
  | text (key value : String) (callback : Nat)

/-- The calls that are **to be made about a notice**: everyone is told who hears of it on the bus or
at the store, in the order of the subscriptions. -/
def Notice.calls (bus : Bus Handler) (store : Store NumberListener Nat) : Notice → List Hearing
  | .event e => (bus.handlers e.name).map (.event e)
  | .number key value => store.hearNumbers.map (.number key value)
  | .text key value => store.hearTexts.map (.text key value)

/-- The event that a notice tells of. -/
def Notice.event? : Notice → Option Event
  | .event e => some e
  | .number _ _ | .text _ _ => none

/-- What is **edited** as a notice is given: the value is written. -/
def Notice.edits : Notice → List Edit
  | .event _ => []
  | .number key value => [.setNumber key value]
  | .text key value => [.setText key value]

namespace Frame

/-- The calls that a frame has **still to make**. -/
def hearings : Frame → List Hearing
  | .deliver event handlers => handlers.map (.event event)
  | .tellNumber key value listeners => listeners.map (.number key value)
  | .tellText key value callbacks => callbacks.map (.text key value)
  | .perform _ | .respond _ | .record | .lines _ _ | .execute _ | .serve _ _ | .resume _ | .drain
  | .advanceTo _ | .leap _ => []

/-- Whether a frame is what is **left of a round**. -/
def isRound : Frame → Bool
  | .deliver _ _ | .tellNumber _ _ _ | .tellText _ _ _ => true
  | .perform _ | .respond _ | .record | .lines _ _ | .execute _ | .serve _ _ | .resume _ | .drain
  | .advanceTo _ | .leap _ => false

end Frame

/-- What a command of the console tells. -/
def Command.notice? (stamp : Timestamp) : Command → Option Notice
  | .emit name data => some (.event ⟨name, stamp, data⟩)
  | .setNumber key value => some (.number key value)
  | .setText key value => some (.text key value)
  | .get _ => none

/-- What a line of the console tells, if it is a command. -/
def lineNotice? (stamp : Timestamp) (text : String) : Option Notice :=
  match Command.read text with
  | .ok command => command.notice? stamp
  | .error _ => none

namespace World

variable {exec : Executor} {w : World}

/-- One **call** made. -/
def hear (w : World) : Hearing → World
  | .event event handler => w.handle event handler
  | .number key value listener => w.hearNumber key value listener
  | .text key value callback => w.hearText key value callback

/-- The call that **the next step** makes. -/
def hearing? (w : World) : Option Hearing :=
  w.stack.head?.bind fun frame => frame.hearings.head?

/-- The notice that **the next step** gives. -/
def notice? (w : World) : Option Notice :=
  match w.stack with
  | .perform (.emit name time data) :: _ => some (.event ⟨name, time.getD (.ofMillis w.now), data⟩)
  | .perform (.setNumber key value) :: _ => some (.number key value)
  | .perform (.setText key value) :: _ => some (.text key value)
  | .perform (.line text) :: _ => lineNotice? w.wallClock text
  | .lines (some text :: _) _ :: _ => lineNotice? w.wallClock text
  | _ => none

/-- The event that **the next step emits**. -/
def emission? (w : World) : Option Event :=
  w.notice?.bind Notice.event?

/-- The call that a move makes for the round **at some depth** of the stack. -/
def hearingAt (depth : Nat) (w : World) : Move → Option Hearing
  | .step => if w.stack.length = depth + 1 then w.hearing? else none
  | .receive _ => none

/-- The calls that **one round** makes in a history, as long as it goes on; it lies above so many
other things to be done. -/
def heard (exec : Executor) (depth : Nat) : World → List Move → List Hearing
  | _, [] => []
  | w, m :: moves =>
    if w.stack.length ≤ depth then []
    else (w.hearingAt depth m).toList ++ heard exec depth (w.move exec m) moves

end World

/-- A **round** that has just begun, above what else is to be done: it makes exactly these calls. -/
structure Round (exec : Executor) (base : List Frame) (w : World) (calls : List Hearing) : Prop where
  /-- It is what is done next. -/
  begun : ∃ frame, w.stack = frame :: base ∧ frame.hearings = calls
  /-- It makes no other calls, and none before its turn, whatever happens in the meantime. -/
  inOrder : ∀ moves, w.heard exec base.length moves <+: calls
  /-- It has made all of them, each once, when what lies below is done next. -/
  complete : ∀ moves, (w.after exec moves).stack.length ≤ base.length →
    w.heard exec base.length moves = calls
  /-- A call is made by the very step: whoever is called is told, before anything else is done. -/
  made : ∀ moves h, (w.after exec moves).hearingAt base.length .step = some h →
    ∃ stack, (w.after exec moves).step exec = { w.after exec moves with stack }.hear h
  /-- It comes to its end when nothing more is asked for. -/
  ends : ∃ steps, (w.after exec (List.replicate steps .step)).stack = base

namespace World

variable {exec : Executor} {w : World}

/-! ## 2. One call after another -/

/-- A call only **adds to what is to be done**. -/
theorem suffix_hear (w : World) (h : Hearing) : w.stack <:+ (w.hear h).stack := by
  cases h with
  | event event handler => exact (acts_handle w event handler).suffix
  | number key value listener => exact (acts_hearNumber w key value listener).suffix
  | text key value callback => exact (Acts.chores (chores_hearText w key value callback)).suffix

/-- A round with calls to make **makes the first of them** and goes on with the others. -/
theorem step_of_hearings (exec : Executor) {frame : Frame} {base : List Frame} {h : Hearing}
    {later : List Hearing} (stack : w.stack = frame :: base) (calls : frame.hearings = h :: later) :
    ∃ left, left.isRound = true ∧ left.hearings = later
      ∧ w.step exec = { w with stack := left :: base }.hear h := by
  rw [step, stack]
  cases frame with
  | deliver event handlers =>
    obtain ⟨handler, rest, rfl, rfl, rfl⟩ := List.map_eq_cons_iff.mp calls
    exact ⟨.deliver event rest, rfl, rfl, rfl⟩
  | tellNumber key value listeners =>
    obtain ⟨listener, rest, rfl, rfl, rfl⟩ := List.map_eq_cons_iff.mp calls
    exact ⟨.tellNumber key value rest, rfl, rfl, rfl⟩
  | tellText key value callbacks =>
    obtain ⟨callback, rest, rfl, rfl, rfl⟩ := List.map_eq_cons_iff.mp calls
    exact ⟨.tellText key value rest, rfl, rfl, rfl⟩
  | perform | respond | record | lines | execute | serve | resume | drain | advanceTo | leap =>
    cases calls

/-- A round with no call left to make **is closed**. -/
theorem step_of_no_hearings (exec : Executor) {frame : Frame} {base : List Frame}
    (stack : w.stack = frame :: base) (round : frame.isRound = true) (none : frame.hearings = []) :
    w.step exec = { w with stack := base } := by
  rw [step, stack]
  cases frame with
  | deliver event handlers =>
    obtain rfl := List.map_eq_nil_iff.mp none
    rfl
  | tellNumber key value listeners =>
    obtain rfl := List.map_eq_nil_iff.mp none
    rfl
  | tellText key value callbacks =>
    obtain rfl := List.map_eq_nil_iff.mp none
    rfl
  | perform | respond | record | lines | execute | serve | resume | drain | advanceTo | leap =>
    cases round

/-- A round that is over **tells nobody**. -/
theorem heard_of_le {depth : Nat} (closed : w.stack.length ≤ depth) (moves : List Move) :
    w.heard exec depth moves = [] := by
  cases moves with
  | nil => rfl
  | cons m moves => rw [heard, if_pos closed]

/-- **A round in progress**: in every history it makes the calls that are left, in order, and all of them
before what lies below is done next. -/
theorem heard_of_suffix {frame : Frame} {base : List Frame} (round : frame.isRound = true)
    (below : frame :: base <:+ w.stack) (moves : List Move) :
    w.heard exec base.length moves <+: frame.hearings
      ∧ ((w.after exec moves).stack.length ≤ base.length →
        w.heard exec base.length moves = frame.hearings) := by
  induction moves generalizing w frame with
  | nil =>
    have length := below.length_le
    refine ⟨List.nil_prefix, fun closed => ?_⟩
    rw [List.length_cons] at length
    rw [after_nil] at closed
    omega
  | cons m moves ih =>
    obtain ⟨above, stack⟩ := below
    have deep : ¬ w.stack.length ≤ base.length := by
      rw [← stack, List.length_append, List.length_cons]
      omega
    rw [heard, if_neg deep]
    -- what is left of the round after a move that makes no call of it
    have unmoved (silent : w.hearingAt base.length m = none)
        (still : frame :: base <:+ (w.move exec m).stack) :
        (w.hearingAt base.length m).toList ++ heard exec base.length (w.move exec m) moves
            <+: frame.hearings
          ∧ ((w.after exec (m :: moves)).stack.length ≤ base.length →
            (w.hearingAt base.length m).toList ++ heard exec base.length (w.move exec m) moves
              = frame.hearings) := by
      rw [silent]
      exact ih round still
    cases above with
    | cons other above =>
      -- something else is done first
      have stack' : w.stack = other :: (above ++ frame :: base) := stack.symm
      refine unmoved ?_ ((List.suffix_append above _).trans (suffix_move exec m stack'))
      cases m with
      | receive => rfl
      | step =>
        rw [hearingAt, if_neg]
        rw [stack']
        simp
        omega
    | nil =>
      have stack' : w.stack = frame :: base := stack.symm
      cases m with
      | receive s =>
        have kept : w.stack <:+ (w.receive s).stack := by
          cases s <;> exact List.suffix_append _ _
        exact unmoved rfl (stack' ▸ kept)
      | step =>
        have next : w.hearingAt base.length .step = frame.hearings.head? := by
          rw [hearingAt, if_pos (by rw [stack', List.length_cons]), hearing?, stack']
          rfl
        rw [next]
        cases calls : frame.hearings with
        | nil =>
          -- the last call was made, and the round is closed
          have closed : (w.step exec).stack = base :=
            congrArg World.stack (step_of_no_hearings exec stack' round calls)
          have nothing : (w.move exec .step).heard exec base.length moves = [] :=
            heard_of_le (Nat.le_of_eq (congrArg List.length closed)) moves
          rw [nothing]
          exact ⟨List.prefix_refl _, fun _ => rfl⟩
        | cons h later =>
          obtain ⟨left, round', calls', called⟩ := step_of_hearings exec stack' calls
          have goes_on : left :: base <:+ (w.step exec).stack := by
            rw [called]
            exact suffix_hear { w with stack := left :: base } h
          obtain ⟨inOrder, complete⟩ := ih round' goes_on
          rw [calls'] at inOrder complete
          exact ⟨List.cons_prefix_cons.mpr ⟨rfl, inOrder⟩,
            fun closed => congrArg (h :: ·) (complete closed)⟩

/-- The step that **makes a call** tells whoever is called. -/
theorem step_of_hearing? (exec : Executor) {h : Hearing} (next : w.hearing? = some h) :
    ∃ stack, w.step exec = { w with stack }.hear h := by
  obtain ⟨frame, top, first⟩ := Option.bind_eq_some_iff.mp next
  obtain ⟨base, stack⟩ := List.head?_eq_some_iff.mp top
  obtain ⟨later, calls⟩ := List.head?_eq_some_iff.mp first
  obtain ⟨left, -, -, called⟩ := step_of_hearings exec stack calls
  exact ⟨left :: base, called⟩

/-! ## 3. Every notice begins a round -/

/-- A frame that is what is left of a round is plain. -/
theorem isPlain_of_isRound {frame : Frame} (round : frame.isRound = true) : frame.isPlain = true := by
  cases frame <;> first | rfl | cases round

/-- What is **on top of the stack** as what is left of a round is a round. -/
theorem round_of_stack (exec : Executor) {frame : Frame} {base : List Frame}
    (round : frame.isRound = true) (stack : w.stack = frame :: base) :
    Round exec base w frame.hearings where
  begun := ⟨frame, stack, rfl⟩
  inOrder moves := (heard_of_suffix round (stack ▸ List.suffix_refl _) moves).1
  complete moves := (heard_of_suffix round (stack ▸ List.suffix_refl _) moves).2
  made moves h next := by
    unfold hearingAt at next
    split_ifs at next
    exact step_of_hearing? exec next
  ends := by
    refine exists_done exec w [frame] base (fun f member => ?_) stack
    rw [List.mem_singleton.mp member]
    exact isPlain_of_isRound round

/-- A notice **given**: the value is written, and those who hear of it now are to be told. -/
def tell (w : World) : Notice → World
  | .event event => w.emit event
  | .number key value => w.writeNumber key value
  | .text key value => w.writeText key value

/-- What is done first once a notice was given is **a round of the calls about it**. -/
theorem exists_stack_tell (w : World) (notice : Notice) :
    ∃ frame, (w.tell notice).stack = frame :: w.stack ∧ frame.isRound = true
      ∧ frame.hearings = notice.calls w.bus w.store := by
  cases notice <;> exact ⟨_, rfl, rfl, rfl⟩

/-- A command that tells something **gives the notice**, above what is to be done after it. -/
theorem applyCommand_eq_tell (w : World) (frames : List Frame) {command : Command} {notice : Notice}
    (tells : command.notice? w.wallClock = some notice) :
    w.applyCommand frames command = (w.push frames).tell notice := by
  cases command with
  | emit | setNumber | setText =>
    obtain rfl := Option.some.inj tells
    rfl
  | get key => cases tells

/-- **An operation that tells something** gives the notice and is answered afterwards. -/
theorem step_perform_eq_tell (exec : Executor) {op : Operation} {rest : List Frame} {notice : Notice}
    (stack : w.stack = .perform op :: rest) (tells : w.notice? = some notice) :
    ∃ answer, w.step exec = ({ w with stack := .respond answer :: rest } : World).tell notice := by
  rw [notice?, stack] at tells
  rw [step, stack]
  cases op with
  | emit | setNumber | setText =>
    obtain rfl := Option.some.inj tells
    exact ⟨_, rfl⟩
  | line text =>
    dsimp only [lineNotice?] at tells
    cases read : Command.read text with
    | error e =>
      rw [read] at tells
      cases tells
    | ok command =>
      rw [read] at tells
      refine ⟨.shown (World.outputOf { w with stack := rest } command), ?_⟩
      show World.readLine _ text = _
      rw [readLine, read]
      exact applyCommand_eq_tell _ _ tells
  | _ => cases tells

/-- The step that gives a notice leaves **something that is no round** to be done afterwards. -/
theorem step_eq_tell_below (exec : Executor) {notice : Notice} {frame : Frame} {rest : List Frame}
    (stack : w.stack = frame :: rest) (tells : w.notice? = some notice) :
    frame.isRound = false ∧ ∃ after : Frame, after.isRound = false
      ∧ w.step exec = ({ w with stack := after :: rest } : World).tell notice := by
  have given := tells
  rw [notice?, stack] at given
  -- the command is that of the line, and the other lines are done after the round
  cases frame with
  | perform op =>
    obtain ⟨answer, taken⟩ := step_perform_eq_tell exec stack tells
    exact ⟨rfl, .respond answer, rfl, taken⟩
  | lines lines shown =>
    cases lines with
    | nil => cases given
    | cons line others =>
      cases line with
      | none => cases given
      | some text =>
        dsimp only [lineNotice?] at given
        split at given
        · next command read =>
          refine ⟨rfl, .lines others
            (shown ++ (World.outputOf { w with stack := rest } command).toList), rfl, ?_⟩
          rw [step, stack]
          show World.readLines _ shown (some text :: others) = _
          rw [readLines, read]
          exact applyCommand_eq_tell _ _ given
        · cases given
  | respond | record | deliver | tellNumber | tellText | execute | serve | resume | drain | advanceTo
  | leap => cases given

/-- The step that tells something **gives the notice**, whatever is to be done after it. -/
theorem step_eq_tell (exec : Executor) {notice : Notice} (tells : w.notice? = some notice) :
    ∃ base, w.step exec = ({ w with stack := base } : World).tell notice := by
  cases stack : w.stack with
  | nil =>
    rw [notice?, stack] at tells
    cases tells
  | cons frame rest =>
    obtain ⟨-, after, -, taken⟩ := step_eq_tell_below exec stack tells
    exact ⟨_, taken⟩

/-- **A notice begins a round**, with those who hear of it now. -/
theorem round_of_notice (exec : Executor) {notice : Notice} (tells : w.notice? = some notice) :
    ∃ base, Round exec base (w.step exec) (notice.calls w.bus w.store) := by
  obtain ⟨base, taken⟩ := step_eq_tell exec tells
  obtain ⟨frame, stack, round, calls⟩ := exists_stack_tell { w with stack := base } notice
  rw [← taken] at stack
  exact ⟨base, calls ▸ round_of_stack exec round stack⟩

/-- A line of the console edits **what it tells**. -/
theorem edits_line {stamp : Timestamp} {text : String} {notice : Notice}
    (tells : lineNotice? stamp text = some notice) : Edits.line text = notice.edits := by
  unfold lineNotice? at tells
  unfold Edits.line
  cases read : Command.read text with
  | error e =>
    rw [read] at tells
    cases tells
  | ok command =>
    rw [read] at tells
    cases command with
    | emit | setNumber | setText =>
      obtain rfl := Option.some.inj tells
      rfl
    | get => cases tells

/-- **Giving a notice** edits what it tells, and nothing else. -/
theorem edits_of_notice {notice : Notice} (tells : w.notice? = some notice) :
    w.edits = notice.edits := by
  unfold notice? at tells
  unfold edits
  split at tells
  · next stack =>
    obtain rfl := Option.some.inj tells
    rw [stack]
    rfl
  · next stack =>
    obtain rfl := Option.some.inj tells
    rw [stack]
    rfl
  · next stack =>
    obtain rfl := Option.some.inj tells
    rw [stack]
    rfl
  · next stack =>
    rw [stack]
    exact edits_line tells
  · next stack =>
    rw [stack]
    exact edits_line tells
  · cases tells

end World

end RuleDispatch
