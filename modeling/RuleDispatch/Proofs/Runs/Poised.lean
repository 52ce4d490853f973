import RuleDispatch.Proofs.Runs.Extends

/-! # Whose turn it is

While things come from outside only when nothing is being done, the stack has layers: what is done
for an operation lies above the turn that a task has, that above the drain which gives turns, and
below are moves of the clock, which come only when no task is ready. So nothing that is ready is ever
passed over by the clock, and no run has two turns at once.

* `Layers`, `Clocked` — the layers of the stack, and a stack on which the clock comes next.
* `World.Poised` — every run has its turn, is ready for it, or waits for a moment to come.
* `World.Poised.step`, `World.Poised.receive` — so it stays. -/

namespace RuleDispatch

/-- Whether a frame is **the turn of a task**. -/
def Frame.isTurn : Frame → Bool
  | .execute _ | .serve _ _ | .resume _ => true
  | _ => false

/-- What is plain is no turn of a task. -/
theorem Frame.isTurn_of_isPlain {f : Frame} (h : f.isPlain = true) : f.isTurn = false := by
  cases f <;> simp_all [isPlain, isTurn]

/-- A stack on which **the clock comes next**. -/
inductive Clocked : List Frame → Prop where
  | advancing (time : Nat) : Clocked [.advanceTo time, .respond .done]
  | leaping (ms : Nat) : Clocked [.leap ms, .drain, .respond .done]

/-- The **layers** of any other stack. -/
inductive Layers : List Frame → Prop where
  | idle : Layers []
  /-- A drain, in a move of the clock. -/
  | drain {rest : List Frame} (clock : Clocked rest ∨ rest = [.respond .done]) :
      Layers (.drain :: rest)
  /-- The turn of a task that a drain gave. -/
  | turn {frame : Frame} {rest : List Frame} (isTurn : frame.isTurn = true)
      (below : Layers (.drain :: rest)) : Layers (frame :: .drain :: rest)
  /-- What is done for an operation. A run that is woken up goes on before that. -/
  | plain {frame : Frame} {rest : List Frame} (isPlain : frame.isPlain = true)
      (below : Layers rest) (first : ∀ id, rest.head? ≠ some (.resume (.run id))) :
      Layers (frame :: rest)

/-- The clock is no run's turn. -/
theorem Clocked.run?_eq_none {stack : List Frame} (h : Clocked stack) :
    ∀ f ∈ stack, f.run? = none := by
  cases h <;> simp [Frame.run?]

namespace Layers

variable {frame : Frame} {rest : List Frame}

/-- What lies below something plain. -/
theorem of_isPlain (h : Layers (frame :: rest)) (plain : frame.isPlain = true) :
    Layers rest ∧ ∀ id, rest.head? ≠ some (.resume (.run id)) := by
  cases h with
  | drain => cases plain
  | turn isTurn => rw [Frame.isTurn_of_isPlain plain] at isTurn; cases isTurn
  | plain _ below first => exact ⟨below, first⟩

/-- What lies below a turn. -/
theorem of_isTurn (h : Layers (frame :: rest)) (turn : frame.isTurn = true) :
    ∃ clock, rest = .drain :: clock ∧ Layers rest := by
  cases h with
  | drain => cases turn
  | turn _ below => exact ⟨_, rfl, below⟩
  | plain isPlain => rw [Frame.isTurn_of_isPlain isPlain] at turn; cases turn

/-- What lies below a drain. -/
theorem of_drain (h : Layers (.drain :: rest)) : Clocked rest ∨ rest = [.respond .done] := by
  cases h with
  | drain clock => exact clock
  | turn isTurn => cases isTurn
  | plain isPlain => cases isPlain

/-- **More that is plain** may come on top. -/
theorem append (h : Layers rest) (first : ∀ id, rest.head? ≠ some (.resume (.run id)))
    {frames : List Frame} (plain : ∀ f ∈ frames, f.isPlain = true) : Layers (frames ++ rest) := by
  induction frames with
  | nil => exact h
  | cons f fs ih =>
    refine .plain (plain f List.mem_cons_self)
      (ih fun g member => plain g (List.mem_cons_of_mem _ member)) fun id => ?_
    cases fs with
    | nil => exact first id
    | cons g gs =>
      rintro ⟨rfl⟩
      cases plain _ (List.mem_cons_of_mem f List.mem_cons_self)

/-- A drain is no run's turn, nor is what is below it. -/
theorem run?_of_drain (h : Layers (.drain :: rest)) :
    ∀ f ∈ (.drain :: rest : List Frame), f.run? = none := by
  intro f member
  rcases List.mem_cons.mp member with rfl | below
  · rfl
  · rcases h.of_drain with clock | rfl
    · exact clock.run?_eq_none f below
    · rw [List.mem_singleton.mp below]
      rfl

/-- Unless a run is woken up next, **none is**. -/
theorem not_mem_resume (h : Layers rest) (first : ∀ id, rest.head? ≠ some (.resume (.run id)))
    (id : Nat) : .resume (.run id) ∉ rest := by
  induction h with
  | idle => simp
  | drain clock =>
    intro member
    cases run?_of_drain (.drain clock) _ member
  | turn isTurn below =>
    intro member
    rcases List.mem_cons.mp member with rfl | there
    · exact first id rfl
    · cases below.run?_of_drain _ there
  | plain isPlain _ first' ih =>
    intro member
    rcases List.mem_cons.mp member with rfl | there
    · cases isPlain
    · exact ih first' there

end Layers

namespace World

/-- Every run **has its turn, is ready for it, or waits** for a moment to come, and the clock does
not move before all turns were had. -/
structure Poised (w : World) : Prop where
  layers : Layers w.stack ∨ (Clocked w.stack ∧ w.ready = [])
  nodup : w.ready.Nodup
  /-- Who is ready is there. -/
  ready : ∀ id, .run id ∈ w.ready → ∃ r ∈ w.runs, r.id = id
  /-- Who has its turn is there and not ready for another; it does not wait, unless it is just woken
  up. -/
  turn : ∀ f ∈ w.stack, ∀ id, f.run? = some id → .run id ∉ w.ready
    ∧ ∃ r ∈ w.runs, r.id = id ∧ (f = .resume (.run id) ∨ r.phase = .ready)
  /-- Nobody is passed over. -/
  attended : ∀ r ∈ w.runs, .run r.id ∈ w.ready ∨ (∃ f ∈ w.stack, f.run? = some r.id)
    ∨ ∃ d, r.deadline? = some d ∧ w.now < d
  /-- The clock does not go back. -/
  forward : ∀ time, .advanceTo time ∈ w.stack → w.now ≤ time

/-- A world in which nothing happened yet is poised. -/
theorem poised_empty (wallClock : Timestamp) : Poised (empty wallClock) where
  layers := .inl .idle
  nodup := .nil
  ready := fun _ member => by cases member
  turn := fun _ member => by cases member
  attended := fun _ member => by cases member
  forward := fun _ member => by cases member

variable {w w' : World}

/-- Where every run waits for its turn or has it, **all numbers in use** were given out. -/
theorem Poised.bounded (h : Poised w) (numbered : Numbered w) : Bounded w where
  runs := numbered.bounded
  ready id member := by
    obtain ⟨r, there, rfl⟩ := h.ready id member
    exact numbered.bounded r there

/-! ## 1. Operations, emissions, writes and ticks -/

/-- What **goes on from a poised world** without any run taking its turn is poised. -/
theorem Poised.extends (h : Poised w) (layers : Layers w.stack)
    (first : ∀ id, w.stack.head? ≠ some (.resume (.run id))) (numbered : Numbered w)
    (numbered' : Numbered w') (ext : Extends w w') : Poised w' := by
  obtain ⟨frames, plain, stack⟩ := ext.stack
  have below (f : Frame) (member : f ∈ w'.stack) (id : Nat) (run : f.run? = some id) :
      f ∈ w.stack := by
    rw [stack] at member
    rcases List.mem_append.mp member with new | old
    · rw [Frame.run?_of_isPlain (plain f new)] at run
      cases run
    · exact old
  refine
    { layers := .inl (by rw [stack]; exact layers.append first plain)
      nodup := ext.nodup (h.bounded numbered) h.nodup
      ready := fun id member => ?_
      turn := fun f member id run => ?_
      attended := fun r' member => ?_
      forward := fun time member => ?_ }
  · -- who is ready was ready before, or was woken
    rcases ext.woken _ member with old | ⟨r, there, same, -⟩
    · obtain ⟨r, there, rfl⟩ := h.ready id old
      obtain ⟨_, later⟩ := ext.kept r there
      exact ⟨_, later, rfl⟩
    · injection same with same
      exact ⟨r, there, same.symm⟩
  · have old := below f member id run
    obtain ⟨idle, r, there, rfl, phase⟩ := h.turn f old id run
    have acting : r.phase = .ready := by
      refine phase.resolve_left ?_
      rintro rfl
      exact layers.not_mem_resume first _ old
    obtain ⟨_, later⟩ := ext.kept r there
    refine ⟨fun queued => ?_, _, later, rfl, .inr acting⟩
    -- only who is new or waits is woken, and who has its turn is neither
    rcases ext.woken _ queued with before | ⟨r', there', same, new | waits⟩
    · exact idle before
    · injection same with same
      exact absurd (numbered.bounded r there) (by omega)
    · injection same with same
      rw [numbered'.eq_of_id_eq there' later same.symm] at waits
      exact waits acting
  · rcases ext.origin r' member with ⟨r, there, _, rfl⟩ | ⟨-, -, -, queued⟩
    · rcases h.attended r there with queued | ⟨f, there', run⟩ | ⟨d, waits, future⟩
      · exact .inl (ext.ready _ queued)
      · exact .inr (.inl ⟨f, stack ▸ List.mem_append_right _ there', run⟩)
      · exact .inr (.inr ⟨d, waits, ext.now ▸ future⟩)
    · exact .inl queued
  · rw [stack] at member
    rw [ext.now]
    rcases List.mem_append.mp member with new | old
    · cases plain _ new
    · exact h.forward time old

/-- A world stays poised when **only other things are to be done**, the turns of runs as before. -/
theorem Poised.restack (h : Poised w) {stack : List Frame}
    (same : w'.ledger = { w.ledger with stack })
    (layers : Layers stack ∨ (Clocked stack ∧ w.ready = []))
    (turns : ∀ f : Frame, f.run? ≠ none → (f ∈ stack ↔ f ∈ w.stack))
    (forward : ∀ time, .advanceTo time ∈ stack → w.now ≤ time) : Poised w' := by
  have stack' : w'.stack = stack := congrArg Ledger.stack same
  have runs : w'.runs = w.runs := congrArg Ledger.runs same
  have ready : w'.ready = w.ready := congrArg Ledger.ready same
  have now : w'.now = w.now := congrArg Ledger.now same
  have mine {f : Frame} {id : Nat} (run : f.run? = some id) : f ∈ stack ↔ f ∈ w.stack :=
    turns f (by simp [run])
  refine
    { layers := by rw [stack', ready]; exact layers
      nodup := ready ▸ h.nodup
      ready := by rw [ready, runs]; exact h.ready
      -- the turns of runs are on the new stack as on the old one
      turn := fun f member id run => ?_
      attended := fun r member => ?_
      forward := by rw [stack', now]; exact forward }
  · rw [ready, runs]
    rw [stack'] at member
    exact h.turn f ((mine run).mp member) id run
  · rw [runs] at member
    rw [ready, now, stack']
    rcases h.attended r member with queued | ⟨f, there, run⟩ | waits
    · exact .inl queued
    · exact .inr (.inl ⟨f, (mine run).mpr there, run⟩)
    · exact .inr (.inr waits)

/-- A world stays poised when something that is no run's turn is **taken off the stack**. -/
theorem Poised.below (h : Poised w) {frame : Frame} {rest : List Frame}
    (stack : w.stack = frame :: rest) (none : frame.run? = none)
    (layers : Layers rest ∨ (Clocked rest ∧ w.ready = [])) :
    Poised { w with stack := rest } := by
  refine h.restack rfl layers (fun f run => ?_) fun time member => ?_
  · rw [stack, List.mem_cons]
    refine ⟨.inr, fun member => member.resolve_left ?_⟩
    rintro rfl
    exact run none
  · exact h.forward time (stack ▸ List.mem_cons_of_mem _ member)

/-- A stack has layers unless **the clock comes next**. -/
theorem Poised.layers_of_stack (h : Poised w) {frame : Frame} {rest : List Frame}
    (stack : w.stack = frame :: rest) (advances : ∀ time, frame ≠ .advanceTo time)
    (leaps : ∀ ms, frame ≠ .leap ms) : Layers (frame :: rest) := by
  rcases h.layers with layers | ⟨clock, -⟩
  · rwa [stack] at layers
  · rw [stack] at clock
    cases clock with
    | advancing time => exact absurd rfl (advances time)
    | leaping ms => exact absurd rfl (leaps ms)

/-- What lies below something plain has its layers. -/
theorem Poised.layers_of_isPlain (h : Poised w) {frame : Frame} {rest : List Frame}
    (stack : w.stack = frame :: rest) (plain : frame.isPlain = true) :
    Layers rest ∧ ∀ id, rest.head? ≠ some (.resume (.run id)) :=
  (h.layers_of_stack stack (by rintro _ rfl; cases plain) (by rintro _ rfl; cases plain)).of_isPlain
    plain

/-- Below the turn of a run lies **the drain that gave it**. -/
theorem Poised.layers_below_turn (h : Poised w) {frame : Frame} {rest : List Frame} {id : Nat}
    (stack : w.stack = frame :: rest) (run : frame.run? = some id) :
    ∃ clock, rest = .drain :: clock ∧ Layers rest := by
  have isTurn : frame.isTurn = true := by
    cases frame <;> first | rfl | cases run
  exact (h.layers_of_stack stack (by rintro _ rfl; cases run) (by rintro _ rfl; cases run)).of_isTurn
    isTurn

/-- Something plain done keeps the world poised. -/
theorem Poised.step_plain (h : Poised w) (exec : Executor) {frame : Frame} {rest : List Frame}
    (stack : w.stack = frame :: rest) (plain : frame.isPlain = true) (numbered : Numbered w)
    (numbered' : Numbered (w.step exec)) : Poised (w.step exec) := by
  obtain ⟨layers, first⟩ := h.layers_of_isPlain stack plain
  have taken : w.step exec = act { w with stack := rest } exec frame := by rw [step, stack]
  have ext := extends_acts (acts_plain exec { w with stack := rest } plain)
  rw [taken] at numbered' ⊢
  exact (h.below stack (Frame.run?_of_isPlain plain) (.inl layers)).extends layers first
    ⟨numbered.ascending, numbered.bounded, numbered.owned⟩ numbered' ext

end World

/-! ## 2. Turns -/

/-- What a **turn** may come to: the run is over, has its turn still, or waits for a moment to
come. -/
inductive TurnEnds (now : Nat) (r : Run) : Option Run × List Frame → Prop where
  | closed : TurnEnds now r (none, [])
  | goes {later : Run} (frames : List Frame) {turn : Frame} (same : later.id = r.id)
      (acting : later.phase = .ready) (plain : ∀ f ∈ frames, f.isPlain = true)
      (isTurn : turn.isTurn = true) (mine : turn.run? = some r.id)
      (awake : ∀ id, turn ≠ .resume (.run id)) : TurnEnds now r (some later, frames ++ [turn])
  | waits {later : Run} {deadline : Nat} (same : later.id = r.id)
      (waits : later.deadline? = some deadline) (future : now < deadline) :
      TurnEnds now r (some later, [])

namespace Run

variable {now : Nat} {r : Run}

/-- A run that goes on with its actions. -/
theorem turnEnds_execute (later : Run) (same : later.id = r.id) (acting : later.phase = .ready) :
    TurnEnds now r (some later, [.execute r.id]) :=
  .goes [] same acting (by simp) rfl rfl (by simp)

/-- A run that goes on with a service call. -/
theorem turnEnds_serve (later : Run) (call : Call) (same : later.id = r.id)
    (acting : later.phase = .ready) : TurnEnds now r (some later, [.serve r.id call]) :=
  .goes [] same acting (by simp) rfl rfl (by simp)

/-- A sleep that is not empty ends **later**. -/
theorem lt_sleep {ms : Nat} (h : ms ≠ 0) : now < now + min ms World.longestSleep := by
  have : 0 < World.longestSleep := by decide
  omega

/-- **A stride** ends the turn of a run, or leaves it its turn. -/
theorem turnEnds_stride (exec : Executor) (calls : Nat) (acting : r.phase = .ready) :
    TurnEnds now r (r.stride exec now calls) := by
  unfold stride
  dsimp only
  cases (r.progress.next r.cancelled).1 with
  | nothing => exact turnEnds_execute _ rfl acting
  | stop => exact turnEnds_execute _ rfl acting
  | call service data => exact turnEnds_serve _ _ rfl acting
  | wait ms =>
    dsimp only
    split_ifs with empty
    · exact turnEnds_execute _ rfl acting
    · exact .waits rfl rfl (lt_sleep empty)
  | finish => exact .closed

/-- **A step of a service call** does, too. -/
theorem turnEnds_served (call : Call) (acting : r.phase = .ready) :
    TurnEnds now r (r.served now call) := by
  obtain ⟨service, effects, result⟩ := call
  unfold served
  match effects with
  | [] =>
    dsimp only
    split_ifs
    · exact .closed
    · exact turnEnds_execute r rfl acting
  | .act op recorded :: rest =>
    refine .goes (.perform op :: if recorded then [.record] else []) rfl acting ?_ rfl rfl
      (by simp)
    cases recorded <;> simp [Frame.isPlain]
  | .pause ms :: rest =>
    dsimp only
    split_ifs with empty
    · exact turnEnds_serve r _ rfl acting
    · exact .waits rfl rfl (lt_sleep empty)

/-- A run that wakes up **has its turn**, or goes on waiting. -/
theorem turnEnds_resumed : TurnEnds now r (r.resumed now) := by
  unfold resumed
  cases phase : r.phase with
  | ready => exact turnEnds_execute r rfl phase
  | waiting deadline ms =>
    dsimp only
    split_ifs with due
    · exact turnEnds_execute _ rfl rfl
    · exact turnEnds_execute _ rfl rfl
    · exact .waits rfl (by rw [deadline?, phase]) (Nat.not_le.mp due)
  | calling deadline call =>
    dsimp only
    split_ifs with due
    · exact turnEnds_serve _ _ rfl rfl
    · exact .waits rfl (by rw [deadline?, phase]) (Nat.not_le.mp due)

/-- **Every turn** comes to one of these. -/
theorem turnEnds (exec : Executor) (calls : Nat) {frame : Frame} (mine : frame.run? = some r.id)
    (acting : frame = .resume (.run r.id) ∨ r.phase = .ready) :
    TurnEnds now r (r.turn exec now calls frame) := by
  cases frame with
  | execute id => exact turnEnds_stride exec calls (acting.resolve_left (by rintro ⟨⟩))
  | serve id call => exact turnEnds_served call (acting.resolve_left (by rintro ⟨⟩))
  | resume task => exact turnEnds_resumed
  | perform | respond | record | deliver | tellNumber | tellText | lines | drain | advanceTo
  | leap => cases mine

end Run

namespace World

variable {w w' : World}

/-- **A turn** keeps the world poised. -/
theorem Poised.turned (h : Poised w) {frame : Frame} {clock : List Frame} {r : Run}
    (stack : w.stack = frame :: .drain :: clock) (below : Layers (.drain :: clock))
    (mine : frame.run? = some r.id) (member : r ∈ w.runs) {result : Option Run × List Frame}
    (turned : Turned w w' r.id (.drain :: clock) result) (ends : TurnEnds w.now r result) :
    Poised w' := by
  obtain ⟨runs, stack', ready, now, nextRun⟩ := turned
  have drain := below.run?_of_drain
  -- what lies below the turn matters only in that it has layers and is no run's turn
  generalize rest_eq : (.drain :: clock : List Frame) = rest at stack below stack' drain
  have idle : Task.run r.id ∉ w.ready :=
    (h.turn frame (stack ▸ List.mem_cons_self) r.id mine).1
  -- the others stay as they are
  have others (s : Run) (there : s ∈ w.runs) (other : s.id ≠ r.id) : s ∈ w'.runs :=
    runs ▸ mem_replaced.mpr (.inl ⟨there, other⟩)
  have queued (id : Nat) (there : Task.run id ∈ w'.ready) : ∃ s ∈ w'.runs, s.id = id := by
    rw [ready] at there
    obtain ⟨s, found, rfl⟩ := h.ready id there
    refine ⟨s, others s found fun same => ?_, rfl⟩
    rw [same] at there
    exact idle there
  have waits (s : Run) (there : s ∈ w.runs) (other : s.id ≠ r.id) :
      Task.run s.id ∈ w'.ready ∨ (∃ f ∈ w'.stack, f.run? = some s.id)
        ∨ ∃ d, s.deadline? = some d ∧ w'.now < d := by
    rw [ready, now]
    rcases h.attended s there with queued | ⟨f, found, run⟩ | waits
    · exact .inl queued
    · rw [stack] at found
      rcases List.mem_cons.mp found with rfl | found
      · rw [mine] at run
        exact absurd (Option.some.inj run).symm other
      · rw [drain f found] at run
        cases run
    · exact .inr (.inr waits)
  have forward (frames : List Frame) (time : Nat) (none : .advanceTo time ∉ frames)
      (there : .advanceTo time ∈ frames ++ rest) : w'.now ≤ time := by
    rw [now]
    refine h.forward time (stack ▸ List.mem_cons_of_mem _ ?_)
    exact (List.mem_append.mp there).resolve_left none
  cases ends with
  | closed =>
    refine
      { layers := .inl (by rw [stack']; exact below)
        nodup := ready ▸ h.nodup
        ready := queued
        turn := fun f there id run => ?_
        attended := fun s there => ?_
        forward := fun time there => forward [] time (by simp) (stack' ▸ there) }
    · rw [stack'] at there
      rw [drain f there] at run
      cases run
    · rw [runs] at there
      rcases mem_replaced.mp there with ⟨old, other⟩ | ⟨same, -⟩
      · exact waits s old other
      · cases same
  | @goes later frames f same acting plain isTurn turnOf awake =>
    have there' : later ∈ w'.runs := runs ▸ mem_replaced.mpr (.inr ⟨rfl, r, member, rfl⟩)
    have all : w'.stack = frames ++ (f :: rest) := by
      rw [stack', List.append_assoc]
      rfl
    refine
      { layers := .inl ?_
        nodup := ready ▸ h.nodup
        ready := queued
        turn := fun g there id run => ?_
        attended := fun s there => ?_
        forward := fun time there => ?_ }
    · rw [all]
      subst rest_eq
      refine (Layers.turn isTurn below).append (fun id => ?_) plain
      rw [List.head?_cons, Ne, Option.some.injEq]
      exact awake id
    · -- the one turn on the stack is the one that the run keeps
      rw [all] at there
      rcases List.mem_append.mp there with new | there
      · rw [Frame.run?_of_isPlain (plain g new)] at run
        cases run
      · rcases List.mem_cons.mp there with rfl | there
        · rw [turnOf] at run
          obtain rfl := Option.some.inj run
          exact ⟨ready ▸ idle, later, there', same, .inr acting⟩
        · rw [drain g there] at run
          cases run
    · rw [runs] at there
      rcases mem_replaced.mp there with ⟨old, other⟩ | ⟨this, -⟩
      · exact waits s old other
      · obtain rfl := Option.some.inj this
        refine .inr (.inl ⟨f, ?_, same ▸ turnOf⟩)
        rw [all]
        exact List.mem_append_right _ List.mem_cons_self
    · rw [all, List.append_cons] at there
      refine forward (frames ++ [f]) time (fun this => ?_) there
      rcases List.mem_append.mp this with new | last
      · cases plain _ new
      · rw [← List.mem_singleton.mp last] at isTurn
        cases isTurn
  | @waits later d same deadline future =>
    refine
      { layers := .inl (by rw [stack']; exact below)
        nodup := ready ▸ h.nodup
        ready := queued
        turn := fun f there id run => ?_
        attended := fun s there => ?_
        forward := fun time there => forward [] time (by simp) (stack' ▸ there) }
    · rw [stack'] at there
      rw [drain f there] at run
      cases run
    · rw [runs] at there
      rcases mem_replaced.mp there with ⟨old, other⟩ | ⟨this, -⟩
      · exact waits s old other
      · obtain rfl := Option.some.inj this
        exact .inr (.inr ⟨d, deadline, now ▸ future⟩)

/-- A turn of a run done keeps the world poised. -/
theorem Poised.step_turn (h : Poised w) (exec : Executor) {frame : Frame} {rest : List Frame}
    {id : Nat} (stack : w.stack = frame :: rest) (run : frame.run? = some id)
    (numbered : Numbered w) : Poised (w.step exec) := by
  obtain ⟨clock, rfl, below⟩ := h.layers_below_turn stack run
  obtain ⟨-, r, member, rfl, phase⟩ := h.turn frame (stack ▸ List.mem_cons_self) id run
  exact h.turned stack below run member (turned_step exec numbered stack run member)
    (Run.turnEnds exec w.calls run phase)

/-- A tick keeps the world poised. -/
theorem Poised.step_tick (h : Poised w) (exec : Executor) {index : Nat} {rest : List Frame}
    (stack : w.stack = .resume (.timer index) :: rest) (numbered : Numbered w)
    (numbered' : Numbered (w.step exec)) : Poised (w.step exec) := by
  obtain ⟨clock, rfl, below⟩ := (h.layers_of_stack stack nofun nofun).of_isTurn rfl
  have taken : w.step exec = tick { w with stack := .drain :: clock } index := by
    rw [step, stack]
    rfl
  have popped : Poised { w with stack := .drain :: clock } := h.below stack rfl (.inl below)
  obtain ⟨u, same, place, -, -, acts⟩ := acts_tick { w with stack := .drain :: clock } index
  rw [taken] at numbered' ⊢
  have numberedly : Numbered u :=
    (Refit.steady (w := { w with stack := .drain :: clock })
      ⟨numbered.ascending, numbered.bounded, numbered.owned⟩ (.of_ledger same)).numbered
  have forward : ∀ time, .advanceTo time ∈ u.stack → w.now ≤ time := by
    intro time member
    refine popped.forward time ?_
    rcases place with place | place
    · exact place ▸ member
    · rw [place] at member
      exact (List.mem_cons.mp member).resolve_left (by rintro ⟨⟩)
  rcases place with place | place
  · -- nothing lies above the drain
    have layers : Layers u.stack := place ▸ below
    refine Poised.extends ?_ layers (by simp [place]) numberedly numbered' (extends_acts acts)
    exact popped.restack same (.inl layers) (fun f _ => by rw [place]) forward
  · -- the timer's next turn lies above the drain
    have layers : Layers u.stack := place ▸ .turn rfl below
    refine Poised.extends ?_ layers (by simp [place]) numberedly numbered' (extends_acts acts)
    refine popped.restack same (.inl layers) (fun f run => ?_) forward
    rw [place, List.mem_cons]
    refine ⟨fun member => member.resolve_left ?_, .inr⟩
    rintro rfl
    exact run rfl

/-! ## 3. Drains and the clock -/

/-- A drain with no task ready is over. -/
theorem step_drain_of_nil (exec : Executor) {rest : List Frame} (stack : w.stack = .drain :: rest)
    (queue : w.ready = []) : w.step exec = { w with stack := rest } := by
  rw [step, stack]
  show drain { w with stack := rest } = _
  unfold drain
  split
  · rfl
  · next ready => rw [show w.ready = _ from ready] at queue; cases queue

/-- A drain gives the **first task** its turn. -/
theorem step_drain_of_cons (exec : Executor) {rest : List Frame} {task : Task} {tasks : List Task}
    (stack : w.stack = .drain :: rest) (queue : w.ready = task :: tasks) :
    w.step exec = { w with ready := tasks, stack := .resume task :: .drain :: rest } := by
  rw [step, stack]
  show drain { w with stack := rest } = _
  unfold drain
  split
  · next ready => rw [show w.ready = _ from ready] at queue; cases queue
  · next ready =>
    rw [show w.ready = _ from ready] at queue
    obtain ⟨rfl, rfl⟩ := List.cons.inj queue
    rfl

/-- **Giving a turn** keeps the world poised. -/
theorem Poised.step_drain (h : Poised w) (exec : Executor) {rest : List Frame}
    (stack : w.stack = .drain :: rest) : Poised (w.step exec) := by
  have layers : Layers (.drain :: rest) := h.layers_of_stack stack nofun nofun
  cases queue : w.ready with
  | nil =>
    rw [step_drain_of_nil exec stack queue]
    refine h.below stack rfl ?_
    rcases layers.of_drain with clock | rfl
    · exact .inr ⟨clock, queue⟩
    · exact .inl (.plain rfl .idle (by simp))
  | cons task tasks =>
    rw [step_drain_of_cons exec stack queue]
    have nodup := h.nodup
    rw [queue, List.nodup_cons] at nodup
    have others (f : Frame) (member : f ∈ (.resume task :: .drain :: rest : List Frame)) (id : Nat)
        (run : f.run? = some id) : f = .resume (.run id) ∧ task = .run id := by
      rcases List.mem_cons.mp member with rfl | member
      · cases task with
        | run other => obtain rfl := Option.some.inj run; exact ⟨rfl, rfl⟩
        | timer index => cases run
      · rw [layers.run?_of_drain f member] at run
        cases run
    refine
      { layers := .inl (.turn rfl layers)
        nodup := nodup.2
        ready := fun id member => h.ready id (queue ▸ List.mem_cons_of_mem _ member)
        turn := fun f member id run => ?_
        attended := fun r member => ?_
        forward := fun time member => ?_ }
    · obtain ⟨rfl, rfl⟩ := others f member id run
      obtain ⟨r, there, same⟩ := h.ready id (queue ▸ List.mem_cons_self)
      exact ⟨nodup.1, r, there, same, .inl rfl⟩
    · -- the first one that was ready has its turn now
      rcases h.attended r member with queued | ⟨f, there, run⟩ | waits
      · rw [queue] at queued
        rcases List.mem_cons.mp queued with rfl | later
        · exact .inr (.inl ⟨_, List.mem_cons_self, rfl⟩)
        · exact .inl later
      · rw [stack] at there
        rw [layers.run?_of_drain f there] at run
        cases run
      · exact .inr (.inr waits)
    · refine h.forward time (stack ▸ ?_)
      exact (List.mem_cons.mp member).resolve_left (by rintro ⟨⟩)

/-- Who is ready after tasks were woken. -/
theorem mem_ready_foldl_wake {tasks : List Task} {task : Task} :
    task ∈ (tasks.foldl wake w).ready ↔ task ∈ w.ready ∨ task ∈ tasks := by
  induction tasks generalizing w with
  | nil => simp
  | cons first rest ih =>
    have woken : task ∈ (w.wake first).ready ↔ task ∈ w.ready ∨ task = first := by
      unfold wake
      split
      · next queued => exact ⟨.inl, fun member => member.elim id fun same => same ▸ queued⟩
      · simp
    rw [List.foldl_cons, ih, woken, List.mem_cons, or_assoc]

/-- Tasks that are woken are **ready once each**. -/
theorem nodup_foldl_wake {tasks : List Task} (h : w.ready.Nodup) :
    (tasks.foldl wake w).ready.Nodup := by
  induction tasks generalizing w with
  | nil => exact h
  | cons first rest ih =>
    refine ih ?_
    unfold wake
    split
    · exact h
    · next absent =>
      refine List.nodup_append.mpr ⟨h, List.nodup_singleton _, fun task old other new => ?_⟩
      rw [List.mem_singleton.mp new]
      rintro rfl
      exact absent old

/-- The runs **whose moment has come**. -/
theorem run_mem_due {id : Nat} :
    .run id ∈ w.due ↔ ∃ r ∈ w.runs, r.id = id ∧ ∃ d, r.deadline? = some d ∧ d ≤ w.now := by
  simp only [due, appointments, List.mem_map, List.mem_mergeSort, List.mem_filter,
    List.mem_append, List.mem_filterMap, decide_eq_true_iff]
  constructor
  · rintro ⟨⟨d, task⟩, ⟨(⟨r, member, found⟩ | ⟨⟨t, index⟩, -, found⟩), come⟩, rfl⟩
    · obtain ⟨d', deadline, pair⟩ := Option.map_eq_some_iff.mp found
      obtain ⟨rfl, same⟩ := Prod.mk.inj pair
      exact ⟨r, member, Task.run.inj same, d', deadline, come⟩
    · split at found
      · cases (Prod.mk.inj (Option.some.inj found)).2
      · cases found
  · rintro ⟨r, member, rfl, d, deadline, come⟩
    exact ⟨(d, .run r.id), ⟨.inl ⟨r, member, by rw [deadline]; rfl⟩, come⟩, rfl⟩

/-- It does not matter for waking **what is to be done**. -/
theorem wakeDue_push (w : World) (frames : List Frame) :
    (w.push frames).wakeDue = w.wakeDue.push frames := by
  have each (tasks : List Task) (v : World) :
      tasks.foldl wake (v.push frames) = (tasks.foldl wake v).push frames := by
    induction tasks generalizing v with
    | nil => rfl
    | cons task rest ih =>
      have first : (v.push frames).wake task = (v.wake task).push frames := by
        by_cases queued : task ∈ v.ready <;> simp [wake, push, queued]
      rw [List.foldl_cons, List.foldl_cons, first, ih]
  exact each w.due w

/-- No run waits for a moment **before the next appointment**. -/
theorem nextAppointment?_le {r : Run} (member : r ∈ w.runs) {d : Nat}
    (deadline : r.deadline? = some d) : ∃ next, w.nextAppointment? = some next ∧ next ≤ d := by
  have there : d ∈ w.appointments.map (·.1) := by
    refine List.mem_map.mpr ⟨(d, .run r.id), List.mem_append_left _ ?_, rfl⟩
    exact List.mem_filterMap.mpr ⟨r, member, by rw [deadline]; rfl⟩
  unfold nextAppointment?
  cases least : (w.appointments.map (·.1)).min? with
  | none =>
    rw [List.min?_eq_none_iff.mp least] at there
    cases there
  | some next => exact ⟨next, rfl, (List.min?_eq_some_iff.mp least).2 d there⟩

/-- **The clock moved**, and all runs woken whose moment has come by then. -/
theorem Poised.moved (h : Poised w) (clock : Clocked w.stack) (queue : w.ready = []) {later : World}
    {now : Nat} {stack : List Frame} (same : later.ledger = { w.ledger with now, stack })
    (layers : Layers stack) (idle : ∀ f ∈ stack, f.run? = none)
    (forward : ∀ time, .advanceTo time ∈ stack → now ≤ time) : Poised later.wakeDue := by
  have ledger := ledger_wakeDue later
  rw [same] at ledger
  have stack' : later.wakeDue.stack = stack := congrArg Ledger.stack ledger
  have runs : later.wakeDue.runs = w.runs := congrArg Ledger.runs ledger
  have now' : later.wakeDue.now = now := congrArg Ledger.now ledger
  have lates : later.ready = [] ∧ later.runs = w.runs ∧ later.now = now :=
    ⟨(congrArg Ledger.ready same).trans queue, congrArg Ledger.runs same, congrArg Ledger.now same⟩
  have woken (id : Nat) : .run id ∈ later.wakeDue.ready
      ↔ ∃ r ∈ w.runs, r.id = id ∧ ∃ d, r.deadline? = some d ∧ d ≤ now := by
    rw [wakeDue, mem_ready_foldl_wake, run_mem_due, lates.1, lates.2.1, lates.2.2]
    simp
  refine
    { layers := .inl (stack' ▸ layers)
      nodup := nodup_foldl_wake (by rw [lates.1]; exact .nil)
      ready := fun id member => ?_
      turn := fun f member id run => ?_
      attended := fun r member => ?_
      forward := by rw [stack', now']; exact forward }
  · obtain ⟨r, there, same, -⟩ := (woken id).mp member
    exact ⟨r, runs ▸ there, same⟩
  · rw [stack'] at member
    rw [idle f member] at run
    cases run
  · rw [runs] at member
    rw [now']
    -- the run waited for a moment, which has come by now or has not
    rcases h.attended r member with queued | ⟨f, there, run⟩ | ⟨d, deadline, -⟩
    · rw [queue] at queued
      cases queued
    · rw [clock.run?_eq_none f there] at run
      cases run
    · rcases Nat.lt_or_ge now d with future | come
      · exact .inr (.inr ⟨d, deadline, future⟩)
      · exact .inl ((woken r.id).mpr ⟨r, member, rfl, d, deadline, come⟩)

/-- While the clock comes next, every run waits for a moment **still to come**. -/
theorem Poised.waits (h : Poised w) (clock : Clocked w.stack) (queue : w.ready = []) {r : Run}
    (member : r ∈ w.runs) : ∃ d, r.deadline? = some d ∧ w.now < d := by
  rcases h.attended r member with queued | ⟨f, there, run⟩ | waits
  · rw [queue] at queued
    cases queued
  · rw [clock.run?_eq_none f there] at run
    cases run
  · exact waits

/-- Up to some moment there is **an appointment, or none**. -/
theorem appointment_or_none (w : World) (time : Nat) :
    (∃ next, w.nextAppointment? = some next ∧ next ≤ time)
      ∨ ∀ next, w.nextAppointment? = some next → time < next := by
  cases w.nextAppointment? with
  | none => exact .inr fun _ none => by cases none
  | some first =>
    rcases Nat.lt_or_ge time first with beyond | before
    · exact .inr fun next same => Option.some.inj same ▸ beyond
    · exact .inl ⟨first, rfl, before⟩

/-- Time passes up to **the next appointment**, where those who wait for it are woken. -/
theorem step_advance_of_le (exec : Executor) {time next : Nat} {rest : List Frame}
    (stack : w.stack = .advanceTo time :: rest) (appointment : w.nextAppointment? = some next)
    (before : next ≤ time) :
    w.step exec = wakeDue { w with
      now := max w.now next, stack := .drain :: .advanceTo time :: rest } := by
  rw [step, stack]
  show advanceTo { w with stack := rest } time = _
  have same : nextAppointment? { w with stack := rest } = some next := appointment
  unfold advanceTo
  rw [same]
  dsimp only
  rw [if_pos before]
  exact (wakeDue_push { w with now := max w.now next, stack := rest } [.drain, .advanceTo time]).symm

/-- Time passes **all the way** when there is no appointment on it. -/
theorem step_advance_of_lt (exec : Executor) {time : Nat} {rest : List Frame}
    (stack : w.stack = .advanceTo time :: rest)
    (none : ∀ next, w.nextAppointment? = some next → time < next) :
    w.step exec = { w with now := time, stack := rest } := by
  rw [step, stack]
  show advanceTo { w with stack := rest } time = _
  unfold advanceTo
  split
  · next next appointment => exact if_neg (Nat.not_le.mpr (none next appointment))
  · rfl

/-- A jump passes all appointments on it, and wakes those who waited for them. -/
theorem step_leap (exec : Executor) {ms : Nat} {rest : List Frame}
    (stack : w.stack = .leap ms :: rest) :
    w.step exec = wakeDue { w with now := w.now + ms, stack := rest } := by
  rw [step, stack]
  rfl

/-- **Time passing** keeps the world poised. -/
theorem Poised.step_clock (h : Poised w) (exec : Executor) (clock : Clocked w.stack)
    (queue : w.ready = []) : Poised (w.step exec) := by
  generalize stack : w.stack = all at clock
  have clock' : Clocked w.stack := stack ▸ clock
  cases clock with
  | advancing time =>
    have reached : w.now ≤ time := h.forward time (by simp [stack])
    rcases w.appointment_or_none time with ⟨next, appointment, before⟩ | none
    · rw [step_advance_of_le exec stack appointment before]
      refine h.moved clock' queue rfl (.drain (.inl (.advancing time))) (by simp [Frame.run?]) fun other member => ?_
      obtain rfl : other = time := by simpa using member
      exact Nat.max_le.mpr ⟨reached, before⟩
    · -- every run waits for a moment after that
      rw [step_advance_of_lt exec stack none]
      refine
        { layers := .inl (.plain rfl .idle (by simp))
          nodup := h.nodup
          ready := h.ready
          turn := fun f member id run => ?_
          attended := fun r member => ?_
          forward := by simp }
      · obtain rfl : f = .respond .done := by simpa using member
        cases run
      · obtain ⟨d, deadline, -⟩ := h.waits clock' queue member
        obtain ⟨next, appointment, before⟩ := nextAppointment?_le member deadline
        exact .inr (.inr ⟨d, deadline, Nat.lt_of_lt_of_le (none next appointment) before⟩)
  | leaping ms =>
    rw [step_leap exec stack]
    exact h.moved clock' queue rfl (.drain (.inr rfl)) (by simp [Frame.run?]) (by simp)

/-! ## 4. Histories -/

/-- A stack that begins with no move of the clock has **layers**. -/
theorem Poised.clocked_or_layers (h : Poised w) {frame : Frame} {rest : List Frame}
    (stack : w.stack = frame :: rest) :
    (Clocked w.stack ∧ w.ready = []) ∨ frame.isPlain = true ∨ (∃ id, frame.run? = some id)
      ∨ (∃ index, frame = .resume (.timer index)) ∨ frame = .drain := by
  rcases h.layers with layers | clock
  · refine .inr ?_
    rw [stack] at layers
    cases layers with
    | drain => exact .inr (.inr (.inr rfl))
    | turn isTurn below =>
      cases frame with
      | execute id => exact .inr (.inl ⟨id, rfl⟩)
      | serve id call => exact .inr (.inl ⟨id, rfl⟩)
      | resume task =>
        cases task with
        | run id => exact .inr (.inl ⟨id, rfl⟩)
        | timer index => exact .inr (.inr (.inl ⟨index, rfl⟩))
      | perform | respond | record | deliver | tellNumber | tellText | lines | drain | advanceTo
      | leap => cases isTurn
    | plain isPlain => exact .inl isPlain
  · exact .inl clock

/-- **Every step** keeps the world poised. -/
theorem Poised.step (h : Poised w) (sound : Sound w) (exec : Executor) : Poised (w.step exec) := by
  have numbered' := (sound.move exec .step).numbered
  cases stack : w.stack with
  | nil =>
    rw [step_idle exec w stack]
    exact h
  | cons frame rest =>
    rcases h.clocked_or_layers stack with ⟨clock, queue⟩ | plain | ⟨id, run⟩ | ⟨index, rfl⟩ | rfl
    · exact h.step_clock exec clock queue
    · exact h.step_plain exec stack plain sound.toNumbered numbered'
    · exact h.step_turn exec stack run sound.toNumbered
    · exact h.step_tick exec stack sound.toNumbered numbered'
    · exact h.step_drain exec stack

/-- Something from outside taken up **while nothing is being done** keeps the world poised. -/
theorem Poised.receive (h : Poised w) (idle : w.isIdle = true) (s : Stimulus) :
    Poised (w.receive s) := by
  have stack : w.stack = [] := List.isEmpty_iff.mp idle
  have none (f : Frame) (frames : List Frame) (all : ∀ g ∈ frames, g.run? = none)
      (run : f.run? ≠ none) : f ∈ frames ↔ f ∈ w.stack := by
    rw [stack]
    exact ⟨fun member => absurd (all f member) run, fun member => by cases member⟩
  have pushed (frames : List Frame) :
      (w.push frames).ledger = { w.ledger with stack := frames } := by
    rw [ledger_push, show w.ledger.stack = [] from stack, List.append_nil]
  cases s with
  | operation op =>
    exact h.restack (pushed [.perform op]) (.inl (.plain rfl .idle (by simp)))
      (fun f => none f _ (by simp [Frame.run?])) (by simp)
  | advance ms =>
    refine h.restack (pushed [.drain, .advanceTo (w.now + ms), .respond .done])
      (.inl (.drain (.inl (.advancing _)))) (fun f => none f _ (by simp [Frame.run?]))
      fun time member => ?_
    obtain rfl : time = w.now + ms := by simpa using member
    exact Nat.le_add_right _ _
  | jump ms =>
    exact h.restack (pushed [.drain, .leap ms, .drain, .respond .done])
      (.inl (.drain (.inl (.leaping _)))) (fun f => none f _ (by simp [Frame.run?])) (by simp)

/-- A move of an **orderly history** keeps the world poised. -/
theorem Poised.move (h : Poised w) (sound : Sound w) (exec : Executor) {m : Move}
    {moves : List Move} (orderly : Orderly exec w (m :: moves)) :
    Poised (w.move exec m) ∧ Orderly exec (w.move exec m) moves := by
  cases m with
  | step => exact ⟨h.step sound exec, orderly⟩
  | receive s => exact ⟨h.receive orderly.1 s, orderly.2⟩

/-- **Orderly histories** keep the world poised. -/
theorem Poised.after (h : Poised w) (sound : Sound w) {exec : Executor} {moves : List Move}
    (orderly : Orderly exec w moves) : Poised (w.after exec moves) := by
  induction moves generalizing w with
  | nil => exact h
  | cons m moves ih =>
    obtain ⟨poised, later⟩ := h.move sound exec orderly
    exact ih poised (sound.of_moved (sound.move exec m)) later

end World

end RuleDispatch
