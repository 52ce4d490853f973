import RuleDispatch.Proofs.Disposal.Listing
import RuleDispatch.Proofs.Disposal.Rewiring
import RuleDispatch.Proofs.Runs.Extends

/-! # What one emission starts

Who hears an event is read off when it is emitted. While it is handed on, rules may be taken out and
put in; the handlers of a rule that is gone are still called, and those of a new one are not. All
the same the emission starts at most as many runs of the rules with some id as the rule that had this
id when it was emitted has triggers that hear its name.

* `World.suffix_move` — whatever is done is done on top of what is to be done.
* `World.deliveries` — the runs that the handlers of an emission start.
* `World.count_deliveries_le` — how many there are at most. -/

namespace RuleDispatch

/-- Whether a handler is a **watcher**. -/
def Handler.watches : Handler → Bool
  | .watcher _ => true
  | .target _ => false

namespace World

variable {exec : Executor} {w v : World}

/-- The run that the next step starts **by handing an event on**: whether a watcher starts it, and the
id of its rule. -/
def delivery? (w : World) : Option (Bool × String) :=
  match w.stack with
  | .deliver _ (handler :: _) :: _ =>
    w.accepted?.map fun index => (handler.watches, w.ruleIdAt index)
  | _ => none

/-- The run that a move starts for the emission **at some depth** of the stack. -/
def deliveredBy (depth : Nat) (w : World) : Move → Option (Bool × String)
  | .step => if w.stack.length = depth + 1 then w.delivery? else none
  | .receive _ => none

/-- The runs that the handlers of **one emission** start, as long as it is handed on; it lies above
so many other things to be done. -/
def deliveries (exec : Executor) (depth : Nat) : World → List Move → List (Bool × String)
  | _, [] => []
  | w, m :: moves =>
    if w.stack.length ≤ depth then []
    else (w.deliveredBy depth m).toList ++ deliveries exec depth (w.move exec m) moves

/-! ## 1. On top of the stack -/

/-- What **leaves the stack** only adds to it. -/
theorem suffix_of_eq (same : v.stack = w.stack) : w.stack <:+ v.stack :=
  same ▸ List.suffix_refl _

/-- **Meeting a demand** only adds to what is to be done. -/
theorem suffix_meet (w : World) (r : Run) (demand : Demand) :
    w.stack <:+ (w.meet exec r demand).stack := by
  cases demand with
  | nothing | call | stop => exact List.suffix_append _ _
  | wait ms =>
    show w.stack <:+ (w.waitFor r.id ms).stack
    unfold waitFor
    split_ifs
    · exact List.suffix_append _ _
    · exact List.suffix_refl _
  | finish => exact suffix_of_eq (congrArg Ledger.stack (ledger_finishRun w r))

/-- **A step of a service call** only adds to what is to be done. -/
theorem suffix_serve (w : World) (id : Nat) (call : Call) :
    w.stack <:+ (w.serve id call).stack := by
  unfold serve
  split
  · unfold endCall
    split
    · exact List.suffix_append _ _
    · exact List.suffix_append _ _
    · split
      · exact List.suffix_refl _
      · next r _ => exact suffix_of_eq (congrArg Ledger.stack (ledger_panicRun w r))
  · exact List.suffix_append _ _
  · dsimp only
    split_ifs
    · exact List.suffix_append _ _
    · exact List.suffix_refl _

/-- **Waking a run up** only adds to what is to be done. -/
theorem suffix_resumeRun (w : World) (id : Nat) : w.stack <:+ (w.resumeRun id).stack := by
  unfold resumeRun
  split
  · exact List.suffix_refl _
  · split
    · exact List.suffix_append _ _
    · split_ifs
      · exact List.suffix_append _ _
      · exact List.suffix_append _ _
      · exact List.suffix_refl _
    · split_ifs
      · exact List.suffix_append _ _
      · exact List.suffix_refl _

/-- What acts only adds to what is to be done. -/
theorem Acts.suffix {firing : Option Nat} (h : Acts w v firing) : w.stack <:+ v.stack := by
  obtain ⟨frames, -, stack⟩ := (extends_acts h).stack
  exact ⟨frames, stack.symm⟩

/-- **Waking what is due** leaves the stack. -/
theorem stack_wakeDue (w : World) : w.wakeDue.stack = w.stack :=
  congrArg Ledger.stack (ledger_wakeDue w)

/-- **Whatever is done** only adds to what is to be done. -/
theorem suffix_act (exec : Executor) (w : World) (frame : Frame) :
    w.stack <:+ (w.act exec frame).stack := by
  cases frame with
  | perform | respond | record | deliver | tellNumber | tellText | lines =>
    exact (acts_plain exec w rfl).suffix
  | execute id =>
    show w.stack <:+ (w.execute exec id).stack
    unfold execute
    split
    · exact List.suffix_refl _
    · next r _ => exact suffix_meet (w.modifyRun id _) _ (r.progress.next r.cancelled).1
  | serve id call => exact suffix_serve w id call
  | resume task =>
    cases task with
    | run id => exact suffix_resumeRun w id
    | timer index =>
      -- a timer may be due again, and is put back below what it calls
      obtain ⟨u, -, stack, -, -, acts⟩ := acts_tick w index
      have first : w.stack <:+ u.stack := by
        rcases stack with same | more
        · exact suffix_of_eq same
        · rw [more]
          exact List.suffix_cons _ _
      exact first.trans acts.suffix
  | drain =>
    show w.stack <:+ w.drain.stack
    unfold drain
    split
    · exact List.suffix_refl _
    · exact List.suffix_append _ _
  | advanceTo time =>
    show w.stack <:+ (w.advanceTo time).stack
    unfold advanceTo
    split
    · split_ifs
      · rw [stack_push, stack_wakeDue]
        exact List.suffix_append _ _
      · exact List.suffix_refl _
    · exact List.suffix_refl _
  | leap ms => exact suffix_of_eq (stack_wakeDue { w with now := w.now + ms })

/-- A move does **the innermost thing** at most. -/
theorem suffix_move (exec : Executor) (m : Move) {frame : Frame} {rest : List Frame}
    (stack : w.stack = frame :: rest) : rest <:+ (w.move exec m).stack := by
  cases m with
  | step =>
    show rest <:+ (w.step exec).stack
    rw [step, stack]
    exact suffix_act exec { w with stack := rest } frame
  | receive s =>
    have kept : w.stack <:+ (w.receive s).stack := by
      cases s <;> exact List.suffix_append _ _
    refine List.IsSuffix.trans ?_ kept
    rw [stack]
    exact List.suffix_cons _ _

/-- An emission **goes on** with the handlers that are left. -/
theorem suffix_deliver (exec : Executor) {event : Event} {handler : Handler}
    {handlers : List Handler} {base : List Frame}
    (stack : w.stack = .deliver event (handler :: handlers) :: base) :
    .deliver event handlers :: base <:+ (w.step exec).stack := by
  rw [step, stack]
  exact (acts_handle (push { w with stack := base } [.deliver event handlers]) event handler).suffix

/-! ## 2. What a handler starts -/

/-- A handler that proposes a rule for firing **is aimed at it**. -/
theorem aim?_of_handlerRule? {event : Event} {handler : Handler} {index : Nat}
    (h : w.handlerRule? event handler = some index) :
    w.wiring.aim? handler = some (handler.watches, index) := by
  cases handler with
  | target target =>
    have rule : target.rule? = some index := h
    rw [Wiring.aim?, rule]
    rfl
  | watcher place =>
    obtain ⟨watcher, there, fires⟩ := Option.bind_eq_some_iff.mp h
    have rule : watcher.target.rule? = some index := by
      unfold Watcher.rule? at fires
      split at fires
      · split_ifs at fires
        exact fires
      · cases fires
    have target : w.wiring.targets[place]? = some watcher.target := by
      rw [wiring, List.getElem?_map, there]
      rfl
    rw [Wiring.aim?, target, Option.bind_some, rule]
    rfl

/-- The rule whose firing is accepted is there and **not disposed of**. -/
theorem live_of_accepted? {index : Nat} (h : w.accepted? = some index) :
    w.firing? = some index ∧ ∃ r, w.registrations[index]? = some r ∧ r.disposed = false := by
  obtain ⟨firing, accepted⟩ := Option.filter_eq_some_iff.mp h
  cases registered : w.registrations[index]? with
  | none =>
    rw [registered] at accepted
    cases accepted
  | some r =>
    rw [registered, Option.any_some] at accepted
    rw [takes, Bool.and_eq_true, Bool.and_eq_true, Bool.not_eq_true'] at accepted
    exact ⟨firing, r, rfl, accepted.1.1⟩

/-- How many triggers of the rule that is registered under an id **hear a name**. -/
def hearing (w : World) (id name : String) (watching : Bool) : Nat :=
  (w.ruleIndex? id).elim 0 fun index => w.wiring.hearing name (watching, index)

/-- Whether a handler is **aimed at the rule** that is registered under an id. -/
def aimedAt (w : World) (id : String) (watching : Bool) (handler : Handler) : Bool :=
  (w.ruleIndex? id).any fun index => w.wiring.aim? handler = some (watching, index)

/-- Under a name there are **no more handlers** aimed at a rule than it has triggers that hear the
name. -/
theorem countP_aimedAt_le (sound : w.wiring.Sound) (id name : String) (watching : Bool) :
    (w.bus.handlers name).countP (w.aimedAt id watching) ≤ w.hearing id name watching := by
  unfold aimedAt hearing
  cases w.ruleIndex? id with
  | none => simp
  | some index => exact sound.aimed name (watching, index)

/-- The world **goes on from an emission**: rules and watchers stay in their places. -/
structure Since (w v : World) : Prop where
  grows : Grows w v
  targets : w.wiring.targets <+: v.wiring.targets

/-- The world **goes on from an emission** with every move. -/
theorem Since.move (h : Since w v) (sound : Sound v) (exec : Executor) (m : Move) :
    Since w (v.move exec m) :=
  ⟨h.grows.trans (sound.move exec m).grows, h.targets.trans (rewires_move exec v m).targets⟩

/-- A handler that heard of the emission starts runs **of the rule at which it was aimed** then. -/
theorem Since.aimedAt (h : Since w v) (listed : Listed w) (sound : w.wiring.Sound) {event : Event}
    {handler : Handler} {handlers : List Handler} {base : List Frame}
    (stack : v.stack = .deliver event (handler :: handlers) :: base)
    (member : handler ∈ w.bus.handlers event.name) {delivery : Bool × String}
    (delivers : v.delivery? = some delivery) : w.aimedAt delivery.2 delivery.1 handler = true := by
  rw [delivery?, stack] at delivers
  obtain ⟨index, accepted, rfl⟩ := Option.map_eq_some_iff.mp delivers
  obtain ⟨firing, r, registered, live⟩ := live_of_accepted? accepted
  have proposed : v.handlerRule? event handler = some index := by
    rw [firing?, stack] at firing
    exact firing
  have aim : w.wiring.aim? handler = some (handler.watches, index) := by
    rw [← sound.aim?_eq h.targets member]
    exact aim?_of_handlerRule? proposed
  -- something was aimed at the rule, so it was there, and not disposed of
  have aimed : 0 < w.wiring.hearing event.name (handler.watches, index) :=
    Nat.lt_of_lt_of_le (List.countP_pos_iff.mpr ⟨handler, member, decide_eq_true aim⟩)
      (sound.aimed event.name _)
  have there : (w.held? index).isSome = true := by
    rw [isSome_held?_iff]
    refine Nat.lt_of_not_le fun beyond => ?_
    have none : w.wiring.rules[index]? = none :=
      List.getElem?_eq_none (by rw [wiring, List.length_map]; exact beyond)
    rw [Wiring.hearing, none] at aimed
    exact Nat.lt_irrefl 0 aimed
  obtain ⟨held, entry⟩ := Option.isSome_iff_exists.mp there
  -- rules stay in their places, so the one that fires now is the one that was there then
  obtain ⟨r', entry', rule, stays⟩ := h.grows index held entry
  rw [held?_of_registration registered] at entry'
  obtain rfl := Option.some.inj entry'
  have name : v.ruleIdAt index = held.rule.id := by
    rw [ruleIdAt, registered, ← rule]
    rfl
  have before : held.disposed = false := by
    refine Bool.eq_false_iff.mpr fun disposed => ?_
    have := stays disposed
    rw [Registration.disposed_bare, live] at this
    cases this
  have index_eq : w.ruleIndex? held.rule.id = some index :=
    (listed _ _).mpr ⟨held, entry, rfl, before⟩
  simp only [World.aimedAt, name, index_eq, Option.any_some, aim, decide_true]

/-- It starts **one run at most**. -/
theorem Since.count_delivery_le (h : Since w v) (listed : Listed w) (sound : w.wiring.Sound)
    {event : Event} {handler : Handler} {handlers : List Handler} {base : List Frame}
    (stack : v.stack = .deliver event (handler :: handlers) :: base)
    (member : handler ∈ w.bus.handlers event.name) (delivery : Bool × String) :
    v.delivery?.toList.count delivery
      ≤ if w.aimedAt delivery.2 delivery.1 handler then 1 else 0 := by
  cases delivers : v.delivery? with
  | none => exact Nat.zero_le _
  | some other =>
    by_cases same : other = delivery
    · subst same
      refine Nat.le_of_eq ?_
      rw [h.aimedAt listed sound stack member delivers, if_pos rfl, Option.toList_some,
        List.count_singleton_self]
    · have none : [other].count delivery = 0 := by simp [same]
      rw [Option.toList_some, none]
      exact Nat.zero_le _

/-! ## 3. One emission -/

/-- An emission that is over **delivers to nobody**. -/
theorem deliveries_of_le {depth : Nat} (closed : w.stack.length ≤ depth) (moves : List Move) :
    w.deliveries exec depth moves = [] := by
  cases moves with
  | nil => rfl
  | cons m moves => rw [deliveries, if_pos closed]

/-- While an emission is handed on, the runs that it starts are **at most as many as the handlers
left** that were aimed at the rule when it was emitted. -/
theorem Since.count_deliveries_le (h : Since w v) (listed : Listed w) (wired : w.wiring.Sound)
    (sound : Sound v) {event : Event} {handlers : List Handler} {base : List Frame}
    (heard : ∀ handler ∈ handlers, handler ∈ w.bus.handlers event.name)
    (below : .deliver event handlers :: base <:+ v.stack) (delivery : Bool × String)
    (moves : List Move) :
    (v.deliveries exec base.length moves).count delivery
      ≤ handlers.countP (w.aimedAt delivery.2 delivery.1) := by
  induction moves generalizing v handlers with
  | nil => exact Nat.zero_le _
  | cons m moves ih =>
    have later := h.move sound exec m
    have sound' := sound.of_moved (sound.move exec m)
    obtain ⟨above, stack⟩ := below
    rw [deliveries]
    split_ifs
    · exact Nat.zero_le _
    · rw [List.count_append]
      cases above with
      | cons frame above =>
        -- something else is done first
        have none : v.deliveredBy base.length m = none := by
          cases m with
          | receive => rfl
          | step =>
            rw [deliveredBy, if_neg]
            rw [← stack]
            simp
            omega
        have stack' : v.stack = frame :: (above ++ .deliver event handlers :: base) := stack.symm
        rw [none, Option.toList_none, List.count_nil, Nat.zero_add]
        exact ih later sound' heard
          ((List.suffix_append above _).trans (suffix_move exec m stack'))
      | nil =>
        -- the emission itself goes on, with the next handler if there is one
        have stack' : v.stack = .deliver event handlers :: base := stack.symm
        cases m with
        | receive s =>
          have kept : v.stack <:+ (v.receive s).stack := by
            cases s <;> exact List.suffix_append _ _
          rw [deliveredBy, Option.toList_none, List.count_nil, Nat.zero_add]
          exact ih later sound' heard (stack' ▸ kept)
        | step =>
          rw [deliveredBy, if_pos (by rw [stack', List.length_cons])]
          cases handlers with
          | nil =>
            -- the last handler was called, and the emission is closed
            have closed : (v.step exec).stack = base := by
              rw [step, stack']
              rfl
            have none : v.delivery? = none := by rw [delivery?, stack']
            have nothing : (v.move exec .step).deliveries exec base.length moves = [] :=
              deliveries_of_le (Nat.le_of_eq (congrArg List.length closed)) moves
            rw [none, nothing]
            exact Nat.zero_le _
          | cons handler handlers =>
            -- this handler starts at most one run, the others as many as they are
            have rest := ih later sound'
              (fun other member => heard other (List.mem_cons_of_mem _ member))
              (suffix_deliver exec stack')
            have first := h.count_delivery_le listed wired stack'
              (heard handler List.mem_cons_self) delivery
            rw [List.countP_cons]
            omega

/-- **One emission** starts at most as many runs of the rules with some id as the rule registered
under this id has triggers that hear its name. -/
theorem count_deliveries_le (sound : Sound w) (listed : Listed w) (wired : w.wiring.Sound)
    {event : Event} {base : List Frame}
    (stack : w.stack = .deliver event (w.bus.handlers event.name) :: base)
    (moves : List Move) (id : String) (watching : Bool) :
    (w.deliveries exec base.length moves).count (watching, id)
      ≤ w.hearing id event.name watching := by
  have start : Since w w := ⟨Grows.refl w, List.prefix_refl _⟩
  refine Nat.le_trans ?_ (countP_aimedAt_le wired id event.name watching)
  exact start.count_deliveries_le listed wired sound (fun _ member => member)
    (stack ▸ List.suffix_refl _) (watching, id) moves

end World

end RuleDispatch
