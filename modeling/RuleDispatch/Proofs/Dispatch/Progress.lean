import RuleDispatch.Proofs.Dispatch.Rounds

/-! # Rounds in progress

What is left of a round lies on the stack until its last call is done. Only a notice puts a round there.
So every round that is found on the stack was begun by a notice that was given on the way, and the calls
that it has made and those that it has still to make are together the calls about this notice.

* `World.Piles` — nothing that comes on top of the stack is a round.
* `World.piles_step` — what a step puts there without a notice.
* `World.round_of_step` — where a round on the stack comes from, one step earlier.
* `InProgress`, `World.exists_inProgress` — where it comes from in the end. -/

namespace RuleDispatch

namespace World

variable {exec : Executor} {u v w w' : World}

/-! ## 1. What comes on top -/

/-- At most **other things than rounds** come on top of the stack. -/
def Piles (w w' : World) : Prop :=
  ∃ frames, w'.stack = frames ++ w.stack ∧ ∀ f ∈ frames, f.isRound = false

/-- What **leaves the stack** puts no round on it. -/
theorem Piles.of_stack (same : w'.stack = w.stack) : Piles w w' :=
  ⟨[], same, by simp⟩

/-- What **leaves the desk** puts no round on the stack. -/
theorem Piles.of_desk (same : w'.desk = w.desk) : Piles w w' :=
  .of_stack (congrArg Prod.snd same)

/-- What puts no round on the stack can be done **one after the other**. -/
theorem Piles.trans (first : Piles u v) (later : Piles v w) : Piles u w := by
  obtain ⟨frames, stack, others⟩ := first
  obtain ⟨more, stack', others'⟩ := later
  refine ⟨more ++ frames, by rw [stack', stack, List.append_assoc], fun f member => ?_⟩
  exact (List.mem_append.mp member).elim (others' f) (others f)

/-- **Adding frames** that are no rounds puts no round on the stack. -/
theorem piles_push (w : World) {frames : List Frame} (others : ∀ f ∈ frames, f.isRound = false) :
    Piles w (w.push frames) :=
  ⟨frames, rfl, others⟩

/-- **Calling a callback** puts no round on the stack: the callback's operations come there. -/
theorem piles_runCallback (w : World) (index : Nat) (entry : String → Entry) :
    Piles w (w.runCallback index entry) := by
  unfold runCallback
  split
  · exact .of_stack rfl
  · refine ⟨scriptFrames _, rfl, ?_⟩
    simp only [scriptFrames, List.mem_flatMap, List.mem_cons, List.not_mem_nil, or_false]
    rintro f ⟨op, -, rfl | rfl⟩ <;> rfl

/-- **Calling a target** puts no round on the stack. -/
theorem piles_callTarget (w : World) (entry : String → Entry) (target : Target) :
    Piles w (w.callTarget entry target) := by
  cases target with
  | callback index => exact piles_runCallback w index entry
  | rule index => exact .of_desk (desk_fire w index)

/-- **No call** puts a round on the stack by itself. -/
theorem piles_hear (w : World) (h : Hearing) : Piles w (w.hear h) := by
  cases h with
  | event event handler =>
    cases handler with
    | target target => exact piles_callTarget w _ target
    | watcher index =>
      simp only [hear, handle, observe]
      split
      · exact .of_stack rfl
      · next watcher _ =>
        let shown : World := { w with watchers := w.watchers.modify index fun x =>
          { x with matcher := (watcher.matcher.observe event.name event.timestamp).2 } }
        have first : Piles w shown := .of_stack rfl
        refine first.trans ?_
        show Piles shown (shown.settleWatcher watcher event.name _)
        unfold settleWatcher
        split
        · split_ifs
          · exact .of_stack rfl
          · exact piles_callTarget shown _ _
        · exact .of_stack rfl
        · exact .of_stack rfl
  | number key value listener =>
    cases listener with
    | callback index => exact piles_runCallback w index _
    | threshold rule entity bounds =>
      simp only [hear, hearNumber]
      split_ifs
      · exact .of_desk (desk_fire w rule)
      · exact .of_stack rfl
  | text key value callback => exact piles_runCallback w callback _

/-! ## 2. Steps without a notice -/

/-- A command that **tells nothing** is only answered. -/
theorem piles_applyCommand (w : World) {frames : List Frame}
    (others : ∀ f ∈ frames, f.isRound = false) {stamp : Timestamp} {command : Command}
    (silent : command.notice? stamp = none) : Piles w (w.applyCommand frames command) := by
  cases command with
  | get key => exact piles_push w others
  | emit | setNumber | setText => cases silent

/-- So is an operation. -/
theorem piles_perform {op : Operation} {rest : List Frame} (stack : w.stack = .perform op :: rest)
    (silent : w.notice? = none) :
    Piles { w with stack := rest } (perform { w with stack := rest } op) := by
  have quiet := silent
  rw [notice?, stack] at quiet
  generalize { w with stack := rest } = v
  -- the engine puts nothing on the stack by itself
  have asked {act : World → World} (same : (act v).desk = v.desk) : Piles v (v.withEngine act) := by
    unfold withEngine
    split_ifs
    · exact .of_desk same
    · exact .of_stack rfl
  cases op with
  -- these tell of something, so they are not silent
  | emit | setNumber | setText => cases quiet
  -- a line begins a round if its command does
  | line text =>
    show Piles v (v.readLine text)
    unfold readLine
    dsimp only [lineNotice?] at quiet
    split
    · next command read =>
      rw [read] at quiet
      exact piles_applyCommand v (by simp [Frame.isRound]) quiet
    · exact .of_stack rfl
  | console bytes => exact piles_push v (by simp [Frame.isRound])
  | subscribe | subscribers | get | listenNumber | listenText | listeners | isCancelled =>
    exact .of_stack rfl
  | subscribeAgain | unsubscribe | unlisten | watchState | timerActive | run | describe =>
    simp only [perform]
    split <;> exact .of_stack rfl
  | watch label sequence withinMs script =>
    exact .of_stack (congrArg Prod.snd
      (desk_watchAs (v.addCallback label script) label sequence withinMs _))
  | timer label ms script =>
    exact .of_stack (congrArg Prod.snd (desk_timerAs (v.addCallback label script) label ms.toNat _))
  | watchDispose label =>
    simp only [perform]
    split
    · exact .of_desk (desk_disposeWatcher v _)
    · exact .of_stack rfl
  | watchDrop label =>
    simp only [perform]
    split
    · exact .of_desk (desk_disposeWatcher _ _)
    · exact .of_stack rfl
  | timerCancel label =>
    simp only [perform]
    split
    · exact .of_desk (desk_cancelTimer v _)
    · exact .of_stack rfl
  | timerDrop label =>
    simp only [perform]
    split
    · exact .of_desk (desk_cancelTimer _ _)
    · exact .of_stack rfl
  | cancel label => exact .of_desk (desk_cancelLabel v label)
  | register rule =>
    refine asked ?_
    cases rule with
    | none => rfl
    | some rule => exact desk_register v rule
  | load document => exact asked (desk_load v document)
  | unregister id => exact asked (desk_unregister v id)
  | trigger id =>
    refine asked ?_
    split
    · exact desk_fire v _
    · rfl
  | ruleIds => exact asked rfl
  | isRunning id => exact asked rfl
  | disposeAll => exact asked (desk_disposeEach { v with engine := v.engine.map fun _ => [] } _)
  | dropEngine => exact asked (desk_disposeEach { v with engine := none } _)

/-- **Reading lines** puts no round on the stack, where the line **notifies nobody**. -/
theorem piles_readLines {shown : List String} {lines : List (Option String)} {rest : List Frame}
    (stack : w.stack = .lines lines shown :: rest) (silent : w.notice? = none) :
    Piles { w with stack := rest } (readLines { w with stack := rest } shown lines) := by
  rw [notice?, stack] at silent
  generalize { w with stack := rest } = v
  unfold readLines
  split
  · exact .of_stack rfl
  · exact .of_stack rfl
  · dsimp only [lineNotice?] at silent
    split
    · next command read =>
      rw [read] at silent
      exact piles_applyCommand v (by simp [Frame.isRound]) silent
    · exact piles_push v (by simp [Frame.isRound])
    · exact ⟨[.lines _ _], rfl, by simp [Frame.isRound]⟩

/-- **Strides and service calls** put no round on the stack; what they ask for is done later. -/
theorem piles_execute (exec : Executor) (w : World) (id : Nat) : Piles w (w.execute exec id) := by
  unfold execute
  split
  · exact .of_stack rfl
  · next r _ =>
    dsimp only
    cases (r.progress.next r.cancelled).1 with
    | nothing | call | stop => exact ⟨[_], rfl, by simp [Frame.isRound]⟩
    | wait ms =>
      show Piles w (waitFor _ _ _)
      unfold waitFor
      split_ifs
      · exact ⟨[.execute _], rfl, by simp [Frame.isRound]⟩
      · exact .of_stack rfl
    | finish => exact .of_stack (congrArg Ledger.stack (ledger_finishRun (w.modifyRun id _) _))

/-- **A step of a service call** puts no round on the stack. -/
theorem piles_serve (w : World) (id : Nat) (call : Call) : Piles w (w.serve id call) := by
  unfold serve
  split
  · unfold endCall
    split
    · exact piles_push w (by simp [Frame.isRound])
    · exact ⟨[.execute _], rfl, by simp [Frame.isRound]⟩
    · split
      · exact .of_stack rfl
      · next r _ => exact .of_stack (congrArg Ledger.stack (ledger_panicRun w r))
  · next recorded _ _ =>
    cases recorded <;> exact piles_push w (by simp [Frame.isRound])
  · dsimp only
    split_ifs
    · exact piles_push w (by simp [Frame.isRound])
    · exact .of_stack rfl

/-- So do **turns and moves of the clock**. -/
theorem piles_resume (w : World) (task : Task) : Piles w (w.resume task) := by
  cases task with
  | run id =>
    show Piles w (w.resumeRun id)
    unfold resumeRun
    split
    · exact .of_stack rfl
    · split
      · exact piles_push w (by simp [Frame.isRound])
      · split_ifs
        · exact ⟨[.execute id], rfl, by simp [Frame.isRound]⟩
        · exact ⟨[.execute id], rfl, by simp [Frame.isRound]⟩
        · exact .of_stack rfl
      · split_ifs
        · exact ⟨[.serve id _], rfl, by simp [Frame.isRound]⟩
        · exact .of_stack rfl
  | timer index =>
    show Piles w (w.tick index)
    unfold tick
    split
    · exact .of_stack rfl
    · dsimp only
      split_ifs
      · exact .of_stack rfl
      -- the timer is set again before its target is called
      · next t _ _ =>
        let again : World := { w with timers := w.timers.modify index fun t' =>
          { t' with deadline := t.nextDeadline w.now } }
        have first : Piles w (again.push [.resume (.timer index)]) :=
          ⟨[.resume (.timer index)], rfl, by simp [Frame.isRound]⟩
        exact first.trans (piles_callTarget _ _ _)

/-- **Moving the clock on** puts no round on the stack. -/
theorem piles_advanceTo (w : World) (time : Nat) : Piles w (w.advanceTo time) := by
  unfold advanceTo
  split
  · split_ifs
    · refine ⟨[.drain, .advanceTo time], ?_, by simp [Frame.isRound]⟩
      rw [stack_push, stack_wakeDue]
    · exact .of_stack rfl
  · exact .of_stack rfl

/-- **Without a notice** no round comes on the stack. -/
theorem piles_step (exec : Executor) {frame : Frame} {rest : List Frame}
    (stack : w.stack = frame :: rest) (other : frame.isRound = false) (silent : w.notice? = none) :
    Piles { w with stack := rest } (w.step exec) := by
  rw [step, stack]
  cases frame with
  | perform op => exact piles_perform stack silent
  | respond | record => exact .of_stack rfl
  | deliver | tellNumber | tellText => cases other
  | lines lines shown => exact piles_readLines stack silent
  | execute id => exact piles_execute exec _ id
  | serve id call => exact piles_serve _ id call
  | resume task => exact piles_resume _ task
  | drain =>
    show Piles _ (drain _)
    unfold drain
    split
    · exact .of_stack rfl
    · exact ⟨[.resume _, .drain], rfl, by simp [Frame.isRound]⟩
  | advanceTo time => exact piles_advanceTo _ time
  | leap ms => exact .of_stack (stack_wakeDue { w with stack := rest, now := w.now + ms })

/-! ## 3. One step earlier -/

/-- A round lies **below what is none**. -/
theorem exists_append_of_isRound (frames : List Frame) {rest above base : List Frame} {left : Frame}
    (same : frames ++ rest = above ++ left :: base) (others : ∀ f ∈ frames, f.isRound = false)
    (round : left.isRound = true) : ∃ between, rest = between ++ left :: base := by
  induction frames generalizing above with
  | nil => exact ⟨above, same⟩
  | cons f frames ih =>
    cases above with
    | nil =>
      obtain ⟨rfl, -⟩ := List.cons_eq_cons.mp same
      rw [others f List.mem_cons_self] at round
      cases round
    | cons g above =>
      exact ih (List.cons_eq_cons.mp same).2 fun f member => others f (List.mem_cons_of_mem _ member)

/-- A round on the stack **was there before** the step, or made a call with it, or was begun by it. -/
theorem round_of_step (exec : Executor) {above base : List Frame} {left : Frame}
    (stack : (w.step exec).stack = above ++ left :: base) (round : left.isRound = true) :
    (∃ frame between, w.stack = frame :: between ++ left :: base)
      ∨ (∃ frame h, w.stack = frame :: base ∧ frame.isRound = true
        ∧ frame.hearings = h :: left.hearings)
      ∨ ∃ notice, w.notice? = some notice ∧ above = []
        ∧ left.hearings = notice.calls w.bus w.store := by
  cases stack' : w.stack with
  | nil =>
    rw [step_idle exec w stack', stack'] at stack
    cases List.append_eq_nil_iff.mp stack.symm |>.2
  | cons frame rest =>
    have older (there : ∃ between, rest = between ++ left :: base) :
        ∃ frame' between, frame :: rest = frame' :: between ++ left :: base := by
      obtain ⟨between, rfl⟩ := there
      exact ⟨frame, between, rfl⟩
    cases tells : w.notice? with
    | some notice =>
      obtain ⟨-, after, other, taken⟩ := step_eq_tell_below exec stack' tells
      obtain ⟨first, begun, -, calls⟩ := exists_stack_tell { w with stack := after :: rest } notice
      rw [taken, begun] at stack
      cases above with
      | nil =>
        obtain ⟨rfl, -⟩ := List.cons_eq_cons.mp stack
        exact .inr (.inr ⟨notice, rfl, rfl, calls⟩)
      | cons _ above =>
        refine .inl (older ?_)
        exact exists_append_of_isRound [after] (List.cons_eq_cons.mp stack).2
          (by simpa using other) round
    | none =>
      cases mine : frame.isRound with
      | false =>
        obtain ⟨frames, piled, others⟩ := piles_step exec stack' mine tells
        exact .inl (older (exists_append_of_isRound _ (piled.symm.trans stack) others round))
      | true =>
        cases calls : frame.hearings with
        | nil =>
          rw [step_of_no_hearings exec stack' mine calls] at stack
          exact .inl (older ⟨above, stack⟩)
        | cons h later =>
          -- the call comes on top of what is left of the round
          obtain ⟨left', round', calls', called⟩ := step_of_hearings exec stack' calls
          obtain ⟨frames, piled, others⟩ := piles_hear { w with stack := left' :: rest } h
          rw [called, piled] at stack
          obtain ⟨between, split⟩ := exists_append_of_isRound _ stack others round
          cases between with
          | nil =>
            obtain ⟨rfl, rfl⟩ := List.cons_eq_cons.mp split
            exact .inr (.inl ⟨frame, h, rfl, mine, by rw [calls, calls']⟩)
          | cons _ between => exact .inl (older ⟨between, (List.cons_eq_cons.mp split).2⟩)

/-- Nothing from outside is a round. -/
theorem round_of_receive {s : Stimulus} {above base : List Frame} {left : Frame}
    (stack : (w.receive s).stack = above ++ left :: base) (round : left.isRound = true) :
    ∃ between, w.stack = between ++ left :: base := by
  cases s with
  | operation op =>
    exact exists_append_of_isRound [.perform op] stack (by simp [Frame.isRound]) round
  | advance ms =>
    exact exists_append_of_isRound [.drain, .advanceTo (w.now + ms), .respond .done] stack
      (by simp [Frame.isRound]) round
  | jump ms =>
    exact exists_append_of_isRound [.drain, .leap ms, .drain, .respond .done] stack
      (by simp [Frame.isRound]) round

/-- While a round goes on, the calls that it makes are those that it makes **in one stretch after
another**. -/
theorem heard_append {depth : Nat} {past : List Move} (future : List Move)
    (goes_on : ∀ before after, past = before ++ after →
      depth < (w.after exec before).stack.length) :
    w.heard exec depth (past ++ future)
      = w.heard exec depth past ++ (w.after exec past).heard exec depth future := by
  induction past generalizing w with
  | nil => rfl
  | cons m past ih =>
    have deep : ¬ w.stack.length ≤ depth := Nat.not_le.mpr (goes_on [] (m :: past) rfl)
    have later := ih (w := w.move exec m) fun before after split =>
      goes_on (m :: before) after (congrArg (m :: ·) split)
    rw [List.cons_append, heard, if_neg deep, heard, if_neg deep, later, List.append_assoc]
    rfl

end World

/-! ## 4. Where rounds come from -/

/-- A round **in progress** after a history: what is left of it is this frame, above what else is to be
done. It was begun by a notice that was given in the history, and has made its calls ever since. -/
structure InProgress (exec : Executor) (w : World) (moves past during : List Move) (notice : Notice)
    (left : Frame) (base : List Frame) : Prop where
  /-- A notice was given at one of the moves. -/
  history : moves = past ++ .step :: during
  given : (w.after exec past).notice? = some notice
  /-- Its round was begun then. -/
  round : Round exec base ((w.after exec past).step exec)
    (notice.calls (w.after exec past).bus (w.after exec past).store)
  /-- The calls made and the calls left are those of the notice. -/
  calls : ((w.after exec past).step exec).heard exec base.length during ++ left.hearings
    = notice.calls (w.after exec past).bus (w.after exec past).store
  /-- It has been going on ever since. -/
  goes_on : ∀ before after, during = before ++ after →
    base.length < (((w.after exec past).step exec).after exec before).stack.length

namespace InProgress

variable {exec : Executor} {w : World} {moves past during : List Move} {notice : Notice}
  {left : Frame} {base : List Frame}

/-- The world after the history, seen from where the round began. -/
theorem after_eq (h : InProgress exec w moves past during notice left base) :
    w.after exec moves = ((w.after exec past).step exec).after exec during := by
  rw [h.history, World.after_append]
  rfl

/-- **One move more**: the round makes the call that is its next one, or none. -/
theorem snoc (h : InProgress exec w moves past during notice left base) {m : Move} {left' : Frame}
    (made : ((w.after exec moves).hearingAt base.length m).toList ++ left'.hearings = left.hearings)
    (still : base.length < (w.after exec (moves ++ [m])).stack.length) :
    InProgress exec w (moves ++ [m]) past (during ++ [m]) notice left' base := by
  have now := h.after_eq
  have begun : base.length < (w.after exec moves).stack.length :=
    now ▸ h.goes_on during [] (List.append_nil _).symm
  refine
    { history := by rw [h.history, List.append_assoc, List.cons_append]
      given := h.given
      round := h.round
      calls := ?_
      goes_on := fun before after split => ?_ }
  · rw [World.heard_append [m] h.goes_on, ← now, World.heard, if_neg (Nat.not_le.mpr begun),
      World.heard, List.append_nil, List.append_assoc, made]
    exact h.calls
  · rcases List.eq_nil_or_concat' after with rfl | ⟨after, last, rfl⟩
    · rw [List.append_nil] at split
      rw [← split, World.after_append, ← now, ← World.after_append]
      exact still
    · rw [← List.append_assoc] at split
      exact h.goes_on before after (List.append_inj_left' split rfl)

end InProgress

namespace World

variable {exec : Executor} {w : World}

/-- **Every round on the stack** was begun by a notice on the way, if there was none at the beginning. -/
theorem exists_inProgress (none : ∀ f ∈ w.stack, f.isRound = false) {moves : List Move}
    {above base : List Frame} {left : Frame}
    (stack : (w.after exec moves).stack = above ++ left :: base) (round : left.isRound = true) :
    ∃ past during notice, InProgress exec w moves past during notice left base := by
  induction moves using List.reverseRecOn generalizing above left with
  | nil =>
    have there : left ∈ w.stack := by
      rw [after_nil] at stack
      rw [stack]
      exact List.mem_append_right _ List.mem_cons_self
    rw [none left there] at round
    cases round
  | append_singleton moves m ih =>
    have last : w.after exec (moves ++ [m]) = (w.after exec moves).move exec m := after_append w _ _
    have still : base.length < (w.after exec (moves ++ [m])).stack.length := by
      rw [stack, List.length_append, List.length_cons]
      omega
    -- a round that was there before and makes no call now
    have stays {between : List Frame}
        (there : (w.after exec moves).stack = between ++ left :: base)
        (silent : (w.after exec moves).hearingAt base.length m = Option.none) :
        ∃ past during notice, InProgress exec w (moves ++ [m]) past during notice left base := by
      obtain ⟨past, during, notice, progress⟩ := ih there round
      exact ⟨past, during ++ [m], notice, progress.snoc (by rw [silent]; rfl) still⟩
    rw [last] at stack
    cases m with
    | receive s =>
      obtain ⟨between, there⟩ := round_of_receive stack round
      exact stays there rfl
    | step =>
      rcases round_of_step exec stack round with ⟨frame, between, there⟩ | ⟨frame, h, there, mine, calls⟩
        | ⟨notice, tells, rfl, calls⟩
      · refine stays there ?_
        rw [hearingAt, if_neg]
        rw [there]
        simp
        omega
      · obtain ⟨past, during, notice, progress⟩ :=
          ih (show (w.after exec moves).stack = [] ++ frame :: base from there) mine
        refine ⟨past, during ++ [.step], notice, progress.snoc ?_ still⟩
        rw [hearingAt, if_pos (by rw [there, List.length_cons]), hearing?, there]
        show frame.hearings.head?.toList ++ _ = _
        rw [calls]
        rfl
      · refine ⟨moves, [], notice, rfl, tells, ?_, calls, fun before after split => ?_⟩
        · exact calls ▸ round_of_stack exec round stack
        · obtain ⟨rfl, -⟩ := List.append_eq_nil_iff.mp split.symm
          rw [after_nil, show ((w.after exec moves).step exec).stack = left :: base from stack,
            List.length_cons]
          exact Nat.lt_succ_self _

end World

end RuleDispatch
