import RuleDispatch.Proofs.Console.Lines
import RuleDispatch.Proofs.Failures.Twins
import RuleDispatch.Proofs.Backdrops.Steps

/-! # Console input, line by line

Everything that a command leads to is done before the next line is read, and none of it looks at what is
left to be read. So console input is what its lines are, one after another: input can be typed in two
parts, it breaks off at the first line that is no text, and lines that are no commands leave nothing but a
note.

* `World.LeadsTo`, `World.EndsIn` — steps from one world to another, until nothing is left to be done.
* `World.Obeys` — what lines ask for, done one after another.
* `World.Obeys.typed` — console input does what its lines ask for.
* `World.input_goes_line_by_line` — the properties of console input. -/

namespace RuleDispatch.World

open Console

variable {exec : Executor} {w w' u v : World} {s : Backdrop}

/-! ## 1. Until nothing is left to be done -/

/-- Some **steps lead** from one world to another. -/
def LeadsTo (exec : Executor) (w w' : World) : Prop :=
  ∃ steps, w.after exec (List.replicate steps .step) = w'

/-- No step leads from a world **to itself**. -/
theorem LeadsTo.refl (w : World) : LeadsTo exec w w := ⟨0, rfl⟩

/-- A step and what the steps after it lead to make **one more step**. -/
theorem LeadsTo.step (later : LeadsTo exec (w.step exec) w') : LeadsTo exec w w' := by
  obtain ⟨steps, same⟩ := later
  exact ⟨steps + 1, same⟩

/-- Steps can be taken **one after the other**. -/
theorem LeadsTo.trans (first : LeadsTo exec w u) (later : LeadsTo exec u w') : LeadsTo exec w w' := by
  obtain ⟨steps, rfl⟩ := first
  obtain ⟨more, rfl⟩ := later
  refine ⟨steps + more, ?_⟩
  rw [List.replicate_add, after_append]

/-- The world in which **nothing is left to be done** any more. -/
def EndsIn (exec : Executor) (w w' : World) : Prop :=
  LeadsTo exec w w' ∧ w'.isIdle = true

/-- While nothing is being done, **the stack is empty**. -/
theorem stack_of_isIdle (idle : w.isIdle = true) : w.stack = [] :=
  List.isEmpty_iff.mp idle

/-- While nothing is being done, what is added is **all there is to be done**. -/
theorem push_of_isIdle (idle : w.isIdle = true) (frames : List Frame) :
    w.push frames = { w with stack := frames } := by
  rw [push, stack_of_isIdle idle, List.append_nil]

/-- Once nothing is left to be done, **nothing happens** any more. -/
theorem after_of_isIdle (idle : w.isIdle = true) (steps : Nat) :
    w.after exec (List.replicate steps .step) = w := by
  induction steps with
  | zero => rfl
  | succ steps ih =>
    rw [List.replicate_succ, after_cons, move, step_idle exec w (stack_of_isIdle idle)]
    exact ih

/-- There is **one world** to which everything comes in the end. -/
theorem EndsIn.unique (first : EndsIn exec w u) (other : EndsIn exec w v) : u = v := by
  obtain ⟨⟨steps, rfl⟩, idle⟩ := first
  obtain ⟨⟨more, rfl⟩, idle'⟩ := other
  rw [← after_of_isIdle idle more, ← after_of_isIdle idle' steps, ← after_append, ← after_append,
    List.replicate_append_replicate, List.replicate_append_replicate, Nat.add_comm]

/-- Plain things to be done **come to their end**. -/
theorem exists_endsIn (exec : Executor) (plain : ∀ f ∈ w.stack, f.isPlain = true) :
    ∃ w', EndsIn exec w w' := by
  obtain ⟨steps, done⟩ := exists_done exec w w.stack [] plain (List.append_nil _).symm
  exact ⟨_, ⟨steps, rfl⟩, List.isEmpty_iff.mpr done⟩

/-- What comes of plain things to be done **is plain**. -/
theorem isPlain_step (exec : Executor) {frame : Frame} {rest : List Frame}
    (stack : w.stack = frame :: rest) (plain : ∀ f ∈ w.stack, f.isPlain = true) :
    ∀ f ∈ (w.step exec).stack, f.isPlain = true := by
  rw [stack] at plain
  obtain ⟨frames, pushed, new, -⟩ :=
    lightens_act exec { w with stack := rest } (plain frame List.mem_cons_self)
  have taken : (w.step exec).stack = frames ++ rest := by
    rw [← pushed, step, stack]
  intro f member
  rw [taken] at member
  rcases List.mem_append.mp member with begun | before
  · exact new f begun
  · exact plain f (List.mem_cons_of_mem _ before)

/-- Plain things to be done **lead to the same against another backdrop**, if no run looks at it and the
answer given before is not recorded. -/
theorem EndsIn.exists_against (endsIn : EndsIn exec w w') (plain : ∀ f ∈ w.stack, f.isPlain = true)
    (spares : ∀ id, s.Spares id) (heeds : s.answer = none ∨ Unheeding w.stack) :
    ∃ t, (t = s ∨ t = s.answered) ∧ LeadsTo exec (w.against s) (w'.against t) := by
  obtain ⟨⟨steps, rfl⟩, idle⟩ := endsIn
  induction steps generalizing w s with
  | zero => exact ⟨s, .inl rfl, .refl _⟩
  | succ steps ih =>
    cases stack : w.stack with
    | nil =>
      rw [after_of_isIdle (List.isEmpty_iff.mpr stack)]
      exact ⟨s, .inl rfl, .refl _⟩
    | cons frame rest =>
      have first : frame.isPlain = true := plain frame (stack ▸ List.mem_cons_self)
      have plain' := isPlain_step exec stack plain
      rcases sameAgainst_step s exec exec stack first (spares _) heeds with same | ⟨same, unheeding⟩
      · obtain ⟨t, kind, later⟩ := ih plain' (fun id => (spares id).answered) (.inl rfl) idle
        exact ⟨t, .inr (kind.elim id id), .step (same ▸ later)⟩
      · obtain ⟨t, kind, later⟩ := ih plain' spares (.inr unheeding) idle
        exact ⟨t, kind, .step (same ▸ later)⟩

/-! ## 2. What lines ask for, done -/

/-- What lines ask for, **done one after another**, with what is shown on the way: a line that is ignored is
noted, and all that a command leads to is done before the next line. -/
inductive Obeys (exec : Executor) : World → List Doing → World → List String → Prop
  /-- There is no further line. -/
  | done (w : World) : Obeys exec w [] w []
  /-- A line that is ignored is noted. -/
  | ignore {w w' : World} {rest : List Doing} {shown : List String} {line reason : String}
      (later : Obeys exec (w.note (.lineIgnored line reason)) rest w' shown) :
      Obeys exec w (.ignore line reason :: rest) w' shown
  /-- A command is carried out to its end, and what it shows comes first. -/
  | obey {w u w' : World} {rest : List Doing} {shown : List String} {command : Command}
      (does : EndsIn exec (w.applyCommand [] command) u) (later : Obeys exec u rest w' shown) :
      Obeys exec w (.obey command :: rest) w' ((w.outputOf command).toList ++ shown)

variable {doing more : List Doing} {shown shown' : List String}

/-- What a command begins is **plain**, so no run takes a stride before it is over. -/
theorem isPlain_applyCommand (idle : w.isIdle = true) (command : Command) :
    ∀ f ∈ (w.applyCommand [] command).stack, f.isPlain = true := by
  obtain ⟨begun, stack, plain, -⟩ := exists_applyCommand w [] command
  intro f member
  rw [stack, stack_of_isIdle idle, List.append_nil, List.append_nil] at member
  exact (plain f member).1

/-- Once lines are obeyed, **nothing is being done** again. -/
theorem Obeys.isIdle (obeys : Obeys exec w doing w' shown) (idle : w.isIdle = true) :
    w'.isIdle = true := by
  induction obeys with
  | done w => exact idle
  | ignore later ih => exact ih idle
  | obey does later ih => exact ih does.2

/-- What lines ask for **can be done**. -/
theorem exists_obeys (exec : Executor) (doing : List Doing) (idle : w.isIdle = true) :
    ∃ w' shown, Obeys exec w doing w' shown := by
  induction doing generalizing w with
  | nil => exact ⟨w, [], .done w⟩
  | cons first rest ih =>
    cases first with
    | ignore line reason =>
      obtain ⟨w', shown, later⟩ := ih (w := w.note (.lineIgnored line reason)) idle
      exact ⟨w', shown, .ignore later⟩
    | obey command =>
      obtain ⟨u, does⟩ := exists_endsIn exec (isPlain_applyCommand idle command)
      obtain ⟨w', shown, later⟩ := ih does.2
      exact ⟨w', _, .obey does later⟩

/-- What lines ask for is done **in one way**. -/
theorem Obeys.unique (first : Obeys exec w doing u shown) (other : Obeys exec w doing v shown') :
    u = v ∧ shown = shown' := by
  induction first generalizing v shown' with
  | done w =>
    cases other
    exact ⟨rfl, rfl⟩
  | ignore later ih =>
    cases other with
    | ignore later' => exact ih later'
  | obey does later ih =>
    cases other with
    | obey does' later' =>
      obtain rfl := does.unique does'
      obtain ⟨rfl, rfl⟩ := ih later'
      exact ⟨rfl, rfl⟩

/-- What some lines ask for and then others is what they ask for **in one go**. -/
theorem Obeys.append (first : Obeys exec w doing u shown) (later : Obeys exec u more w' shown') :
    Obeys exec w (doing ++ more) w' (shown ++ shown') := by
  induction first with
  | done w => exact later
  | ignore _ ih => exact .ignore (ih later)
  | obey does _ ih =>
    rw [List.append_assoc]
    exact .obey does (ih later)

/-- What was **recorded and answered before** does not matter to what lines ask for. -/
theorem Obeys.exists_against (obeys : Obeys exec w doing w' shown) (idle : w.isIdle = true)
    (spares : ∀ id, s.Spares id) (nothing : s.after = []) :
    ∃ t, (t = s ∨ t = s.answered) ∧ Obeys exec (w.against s) doing (w'.against t) shown := by
  induction obeys generalizing s with
  | done w => exact ⟨s, .inl rfl, .done _⟩
  | @ignore w w' rest shown line reason later ih =>
    obtain ⟨t, kind, later'⟩ := ih idle spares nothing
    exact ⟨t, kind, .ignore later'⟩
  | @obey w u w' rest shown command does later ih =>
    -- nothing recorded looks at an answer, since a command gives none
    have heeds : Unheeding (w.applyCommand [] command).stack := by
      apply unheeding_applyCommand
      rw [List.nil_append, stack_of_isIdle idle]
      trivial
    obtain ⟨t, kind, led⟩ := does.exists_against (isPlain_applyCommand idle command) spares (.inr heeds)
    have kept : t.after = [] ∧ ∀ id, t.Spares id := by
      rcases kind with rfl | rfl
      · exact ⟨nothing, spares⟩
      · exact ⟨nothing, fun id => (spares id).answered⟩
    have ended : (u.against t).isIdle = true := by
      refine List.isEmpty_iff.mpr ?_
      rw [stack_against, stack_of_isIdle does.2, kept.1, List.append_nil]
    obtain ⟨t', kind', later'⟩ := ih does.2 kept.2 kept.1
    refine ⟨t', ?_, .obey ⟨against_applyCommand s w [] command ▸ led, ended⟩ later'⟩
    rcases kind with rfl | rfl
    · exact kind'
    · exact .inr (kind'.elim id id)

/-! ## 3. Console input -/

/-- Console input **over**: it is closed, or it broke off at a line that is no text. -/
def close (w : World) (shown : List String) (broken : Bool) : World :=
  if broken then w.respond (.console shown true)
  else (w.note .consoleClosed).respond (.console shown false)

/-- What is left to be read **does not matter** to what a command leads to. -/
theorem EndsIn.leadsTo_below {frame : Frame} {command : Command} (idle : w.isIdle = true)
    (does : EndsIn exec (w.applyCommand [] command) u) :
    LeadsTo exec (w.applyCommand [frame] command) { u with stack := [frame] } := by
  let s : Backdrop := { after := [frame] }
  have spares (id : Nat) : s.Spares id := ⟨fun _ => rfl, rfl⟩
  obtain ⟨t, kind, led⟩ := does.exists_against (isPlain_applyCommand idle command) spares (.inl rfl)
  obtain rfl : t = s := kind.elim id id
  have below : u.against s = { u with stack := [frame] } := by
    rw [against_of_spares s u spares, stack_of_isIdle does.2, Nat.zero_add, List.append_nil]
    rfl
  have pushed : (w.applyCommand [] command).against s = w.applyCommand [frame] command := by
    have stack := stack_of_isIdle idle
    rw [against_of_spares s _ spares]
    cases command <;>
      simp [applyCommand, emit, writeNumber, writeText, push, stack, s]
  rwa [below, pushed] at led

/-- A step of console input **reads the next line**. -/
theorem step_lines (idle : w.isIdle = true) (lines : List (Option String)) (before : List String) :
    ({ w with stack := [.lines lines before] } : World).step exec = w.readLines before lines := by
  have bare : ({ w with stack := [] } : World) = w := by rw [← stack_of_isIdle idle]
  show ({ w with stack := [] } : World).readLines before lines = _
  rw [bare]

/-- **The lines of the console** do what they ask for. -/
theorem Obeys.leadsTo_close {lines : List (Option String)} (obeys : Obeys exec w (doings lines) w' shown)
    (idle : w.isIdle = true) (before : List String) :
    LeadsTo exec { w with stack := [.lines lines before] }
      (w'.close (before ++ shown) (breaksOff lines)) := by
  induction lines generalizing w before shown with
  | nil =>
    cases obeys
    rw [List.append_nil]
    refine .step ?_
    rw [step_lines idle]
    exact .refl _
  | cons line rest ih =>
    refine .step ?_
    rw [step_lines idle]
    cases line with
    | none =>
      cases obeys
      rw [List.append_nil]
      exact .refl _
    | some line =>
      rw [doings, doing?] at obeys
      unfold readLines
      cases read : Command.read line with
      | ok command =>
        simp only [read] at obeys ⊢
        cases obeys with
        | obey does later =>
          refine (does.leadsTo_below idle).trans ?_
          -- the output of a line is shown behind that of the lines before it
          rw [← List.append_assoc]
          exact ih later does.2 _
      | error e =>
        cases e with
        | empty =>
          simp only [read] at obeys ⊢
          rw [push_of_isIdle idle]
          exact ih obeys idle before
        | unknown | missing | badPayload =>
          simp only [read] at obeys ⊢
          rw [push_of_isIdle (w := w.note _) idle]
          cases obeys with
          | ignore later => exact ih later idle before

/-- What comes of **console input that is typed** while nothing is being done. -/
def Typed (exec : Executor) (w : World) (bytes : List UInt8) (w' : World) : Prop :=
  EndsIn exec (w.receive (.operation (.console bytes))) w'

/-- **Console input does what its lines ask for**, and is closed or breaks off. -/
theorem Obeys.typed {bytes : List UInt8} (obeys : Obeys exec w (doings (Console.readLines bytes)) w' shown)
    (idle : w.isIdle = true) : Typed exec w bytes (w'.close shown (breaksOff (Console.readLines bytes))) := by
  have begun : (w.receive (.operation (.console bytes))).step exec
      = { w with stack := [.lines (Console.readLines bytes) []] } := by
    rw [← push_of_isIdle idle]
    rfl
  have closed := obeys.leadsTo_close idle []
  have ends : (w'.close shown (breaksOff (Console.readLines bytes))).isIdle = true := by
    have idle' := obeys.isIdle idle
    unfold close
    split_ifs <;> exact idle'
  exact ⟨.step (begun ▸ closed), ends⟩

/-! ## 4. Input in two parts, broken input, and input typed in another way -/

/-- What there is **apart from what was recorded and answered**. -/
def effects (w : World) : World :=
  { w with log := [], answer := .done }

/-- What was recorded, **the lines that were ignored apart**. -/
def heeded (w : World) : List (Nat × Entry) :=
  w.log.filter fun
    | (_, .note (.lineIgnored _ _)) => false
    | _ => true

/-- Two parts of console input **make one**: all of it leaves what the second part leaves after the first,
and the same was recorded, shown and answered but for the note between them. -/
structure Joins (first second whole : World) : Prop where
  /-- Nothing else is different in the end. -/
  effects : whole.effects = second.effects
  /-- It was noted once that the console closed, and not in between. -/
  log : ∃ before later, first.log = (first.now, .note .consoleClosed) :: before
    ∧ second.log = later ++ first.log ∧ whole.log = later ++ before
  /-- The lines of the second part are shown after those of the first. -/
  answer : ∃ shown shown' broken, first.answer = .console shown false
    ∧ second.answer = .console shown' broken ∧ whole.answer = .console (shown ++ shown') broken

/-- Console input **breaks off**: it leaves what its sound part leaves, which is closed instead. -/
structure BreaksOffAfter (sound whole : World) : Prop where
  /-- Nothing else is different in the end. -/
  effects : whole.effects = sound.effects
  /-- It is not noted that the console closed. -/
  log : sound.log = (sound.now, .note .consoleClosed) :: whole.log
  /-- What was shown by then is shown, and that the input broke off. -/
  answer : ∃ shown, sound.answer = .console shown false ∧ whole.answer = .console shown true

/-- Console input **does the same**, lines that are ignored apart. -/
structure DoesTheSame (w w' : World) : Prop where
  /-- Nothing else is different in the end. -/
  effects : w'.effects = w.effects
  /-- The same was recorded, lines that were ignored apart. -/
  log : w'.heeded = w.heeded
  /-- The same was shown. -/
  answer : w'.answer = w.answer

/-- Closing the input has **no effects**. -/
theorem effects_close (w : World) (shown : List String) (broken : Bool) :
    (w.close shown broken).effects = w.effects := by
  unfold close
  split_ifs <;> rfl

/-- Closing the input **answers what was shown**, and whether it broke off. -/
theorem answer_close (w : World) (shown : List String) (broken : Bool) :
    (w.close shown broken).answer = .console shown broken := by
  unfold close
  split_ifs with h
  · rw [h]
    rfl
  · rw [eq_false_of_ne_true h]
    rfl

/-- Closing the input is noted **unless it broke off**. -/
theorem log_close (w : World) (shown : List String) (broken : Bool) :
    (w.close shown broken).log
      = (if broken then [] else [(w.now, .note .consoleClosed)]) ++ w.log := by
  unfold close
  split_ifs <;> rfl

/-- What was recorded and answered before is **added in front of** what is new. -/
theorem effects_against (w : World) (older : List (Nat × Entry)) (answer : Option Answer) :
    (w.against { older, answer }).effects = w.effects
      ∧ (w.against { older, answer }).log = w.log ++ older := by
  rw [against_of_spares _ w fun id => ⟨fun _ => rfl, rfl⟩]
  refine ⟨?_, rfl⟩
  simp only [effects, Nat.zero_add, List.append_nil]

/-- A world is what it is **apart from what was recorded and answered**, with that put back. -/
theorem against_effects (w : World) :
    w.effects.against { older := w.log, answer := some w.answer } = w := by
  rw [against_of_spares _ _ fun id => ⟨fun _ => rfl, rfl⟩]
  simp only [effects, Nat.zero_add, List.append_nil, List.nil_append]
  rfl

/-- Two worlds that differ in **what was recorded and answered** do the same for the same lines. -/
theorem exists_obeys_alike (exec : Executor) (doing : List Doing) (idle : u.isIdle = true)
    (same : v.effects = u.effects) : ∃ y shown newer u' v', Obeys exec u doing u' shown
      ∧ Obeys exec v doing v' shown ∧ u'.effects = y ∧ v'.effects = y
      ∧ u'.log = newer ++ u.log ∧ v'.log = newer ++ v.log := by
  obtain ⟨y, shown, obeys⟩ := exists_obeys exec doing (w := u.effects) idle
  have done (w : World) (same : w.effects = u.effects) : ∃ w', Obeys exec w doing w' shown
      ∧ w'.effects = y.effects ∧ w'.log = y.log ++ w.log := by
    let s : Backdrop := { older := w.log, answer := some w.answer }
    obtain ⟨t, kind, obeys'⟩ := obeys.exists_against (s := s) idle (fun id => ⟨fun _ => rfl, rfl⟩) rfl
    rw [← same, against_effects w] at obeys'
    rcases kind with rfl | rfl
    · exact ⟨_, obeys', effects_against y w.log (some w.answer)⟩
    · exact ⟨_, obeys', effects_against y w.log none⟩
  obtain ⟨u', first, effects, log⟩ := done u rfl
  obtain ⟨v', second, effects', log'⟩ := done v same
  exact ⟨y.effects, shown, y.log, u', v', first, second, effects, effects', log, log'⟩

/-- What comes of **two parts** of console input, one after the other, comes of both together. -/
theorem exists_joins (exec : Executor) (idle : w.isIdle = true) {a : List UInt8} (complete : Complete a)
    (all : IsText a) (b : List UInt8) : ∃ first second whole, Typed exec w a first
      ∧ Typed exec first b second ∧ Typed exec w (a ++ b) whole ∧ Joins first second whole := by
  obtain ⟨u, shown, obeys⟩ := exists_obeys exec (doings (Console.readLines a)) idle
  have idle' := obeys.isIdle idle
  -- the second part is done in the world that the first part left, with its closing note and without it
  have closed : (u.close shown false).effects = u.effects := effects_close u shown false
  obtain ⟨y, shown', newer, v, v', later, later', left, left', log, log'⟩ :=
    exists_obeys_alike exec (doings (Console.readLines b)) idle' closed
  have unbroken := breaksOff_eq_false all
  have together := obeys.append later
  rw [← doings_append all, ← readLines_append complete] at together
  have broken : breaksOff (Console.readLines (a ++ b)) = breaksOff (Console.readLines b) := by
    rw [readLines_append complete, breaksOff, List.any_append]
    exact congrArg (· || _) unbroken
  have now : v.now = v'.now := by
    show v.effects.now = v'.effects.now
    rw [left, left']
  refine ⟨u.close shown false, v'.close shown' (breaksOff (Console.readLines b)),
    v.close (shown ++ shown') (breaksOff (Console.readLines b)), ?_, later'.typed idle', ?_, ?_, ?_, ?_⟩
  · rw [← unbroken]
    exact obeys.typed idle
  · rw [← broken]
    exact together.typed idle
  · rw [effects_close, effects_close, left, left']
  · let closing := if breaksOff (Console.readLines b) then [] else [(v.now, Entry.note .consoleClosed)]
    refine ⟨u.log, closing ++ newer, log_close u shown false, ?_, ?_⟩
    · rw [log_close, log', ← now, List.append_assoc]
    · rw [log_close, log, List.append_assoc]
  · exact ⟨shown, shown', breaksOff (Console.readLines b), answer_close .., answer_close ..,
      answer_close ..⟩

/-- Console input **breaks off** at the first line that is no text. -/
theorem exists_breaksOffAfter (exec : Executor) (idle : w.isIdle = true) {p r : List UInt8}
    (complete : Complete p) (all : IsText p) (broken : (Console.readLines r).head? = some none) :
    ∃ sound whole, Typed exec w p sound ∧ Typed exec w (p ++ r) whole ∧ BreaksOffAfter sound whole := by
  obtain ⟨u, shown, obeys⟩ := exists_obeys exec (doings (Console.readLines p)) idle
  have unbroken := breaksOff_eq_false all
  have breaks : breaksOff (Console.readLines (p ++ r)) = true := by
    obtain ⟨rest, first⟩ := List.head?_eq_some_iff.mp broken
    rw [readLines_append complete, breaksOff, List.any_append, first]
    exact Bool.or_true _
  have whole := obeys
  rw [← doings_append_none all broken, ← readLines_append complete] at whole
  refine ⟨u.close shown false, u.close shown true, ?_, ?_, ?_, ?_, ?_⟩
  · rw [← unbroken]
    exact obeys.typed idle
  · rw [← breaks]
    exact whole.typed idle
  · rw [effects_close, effects_close]
  · rfl
  · exact ⟨shown, rfl, rfl⟩

/-- What lines ask for leaves **nothing but notes** of the lines that are ignored. -/
theorem Obeys.exists_commands (obeys : Obeys exec w doing w' shown) (same : v.unlogged = w.unlogged)
    (log : v.heeded = w.heeded) : ∃ v', Obeys exec v ((doing.filterMap Doing.command?).map .obey) v' shown
      ∧ v'.unlogged = w'.unlogged ∧ v'.heeded = w'.heeded := by
  induction obeys generalizing v with
  | done w => exact ⟨v, .done v, same, log⟩
  | ignore later ih => exact ih same log
  | @obey w u w' rest shown command does later ih =>
    obtain ⟨⟨steps, rfl⟩, idle⟩ := does
    -- the two worlds differ in their logs only, and stay so while the command is done
    have relogged : v = { w with log := v.log } := by
      show ({ v.unlogged with log := v.log } : World) = _
      rw [same]
      rfl
    have begun : (v.applyCommand [] command).unlogged = (w.applyCommand [] command).unlogged
        ∧ (v.applyCommand [] command).log = v.log ∧ (w.applyCommand [] command).log = w.log
        ∧ v.outputOf command = w.outputOf command := by
      rw [relogged]
      cases command <;> exact ⟨rfl, rfl, rfl, rfl⟩
    obtain ⟨begun, new, new', output⟩ := begun
    obtain ⟨same', since, log', log''⟩ :=
      after_of_unlogged_eq begun (fun calls _ => rfl) (List.replicate steps .step)
    obtain ⟨v', later', same'', heeded⟩ := ih same' <| by
      unfold World.heeded at log ⊢
      rw [log', log'', new, new', List.filter_append, List.filter_append, log]
    refine ⟨v', ?_, same'', heeded⟩
    rw [← output]
    refine .obey ⟨⟨steps, rfl⟩, ?_⟩ later'
    show (World.after exec (v.applyCommand [] command) (List.replicate steps .step)).unlogged.isIdle = true
    rw [same']
    exact idle

/-- Console input that asks for the same commands **does the same**. -/
theorem exists_doesTheSame (exec : Executor) (idle : w.isIdle = true) {a b : List UInt8}
    (alike : AskAlike (Console.readLines a) (Console.readLines b)) :
    ∃ w' w'', Typed exec w a w' ∧ Typed exec w b w'' ∧ DoesTheSame w' w'' := by
  obtain ⟨u, shown, obeys⟩ := exists_obeys exec (doings (Console.readLines a)) idle
  obtain ⟨v, shown', obeys'⟩ := exists_obeys exec (doings (Console.readLines b)) idle
  obtain ⟨x, bare, same, heeded⟩ := obeys.exists_commands rfl rfl
  obtain ⟨x', bare', same', heeded'⟩ := obeys'.exists_commands rfl rfl
  -- without the notes both do one and the same
  rw [← commands, alike.1] at bare
  obtain ⟨rfl, rfl⟩ := bare.unique bare'
  have unlogged : v.unlogged = u.unlogged := same'.symm.trans same
  have now : v.now = u.now := by
    show v.unlogged.now = u.unlogged.now
    rw [unlogged]
  refine ⟨_, _, obeys.typed idle, obeys'.typed idle, ?_, ?_, ?_⟩
  · rw [effects_close, effects_close]
    show v.unlogged.effects = u.unlogged.effects
    rw [unlogged]
  · rw [← alike.2]
    unfold World.heeded at heeded heeded' ⊢
    rw [log_close, log_close, List.filter_append, List.filter_append, ← heeded, ← heeded', now]
  · rw [answer_close, answer_close, alike.2]

/-- **Console input goes line by line, and bad lines are inert.** What comes of input that is typed while
nothing is being done is determined. Input whose lines are all text, and that ends where a line does, can be
typed ahead of other input or together with it. Input with a line that is no text breaks off there, whatever
follows it. And lines that are no commands can be taken out, and lines can end in another way. -/
theorem input_goes_line_by_line (exec : Executor) (w : World) (idle : w.isIdle = true) :
    (∀ bytes, ∃! w', Typed exec w bytes w')
      ∧ (∀ a b, Complete a → IsText a → ∀ first second whole, Typed exec w a first →
          Typed exec first b second → Typed exec w (a ++ b) whole → Joins first second whole)
      ∧ (∀ a, Complete a → ¬ IsText a → ∃ p r, a = p ++ r ∧ Complete p ∧ IsText p
          ∧ (Console.readLines r).head? = some none
          ∧ ∀ b sound whole, Typed exec w p sound → Typed exec w (a ++ b) whole →
              BreaksOffAfter sound whole)
      ∧ ∀ a b, Retyped a b → ∀ w' w'', Typed exec w a w' → Typed exec w b w'' →
          DoesTheSame w' w'' := by
  refine ⟨fun bytes => ?_, fun a b complete all first second whole one other both => ?_,
    fun a complete broken => ?_, fun a b retyped w' w'' one other => ?_⟩
  -- the lines are obeyed in order, which leaves one outcome
  · obtain ⟨u, shown, obeys⟩ := exists_obeys exec (doings (Console.readLines bytes)) idle
    exact ⟨_, obeys.typed idle, fun v typed => typed.unique (obeys.typed idle)⟩
  · obtain ⟨first', second', whole', one', other', both', joins⟩ := exists_joins exec idle complete all b
    obtain rfl := one.unique one'
    obtain rfl := other.unique other'
    obtain rfl := both.unique both'
    exact joins
  · obtain ⟨p, r, rfl, complete', all, complete'', first⟩ := exists_broken complete broken
    refine ⟨p, r, rfl, complete', all, first, fun b sound whole one both => ?_⟩
    have first' : (Console.readLines (r ++ b)).head? = some none := by
      rw [readLines_append complete'', List.head?_append, first]
      rfl
    obtain ⟨sound', whole', one', both', breaks⟩ := exists_breaksOffAfter exec idle complete' all first'
    obtain rfl := one.unique one'
    rw [List.append_assoc] at both
    obtain rfl := both.unique both'
    exact breaks
  · obtain ⟨u, v, one', other', same⟩ := exists_doesTheSame exec idle (askAlike_of_retyped retyped)
    obtain rfl := one.unique one'
    obtain rfl := other.unique other'
    exact same

/-- The **bytes of a text**. -/
def bytesOf (text : String) : List UInt8 :=
  text.toUTF8.data.toList

/-- Input that **sets a lamp** and asks for it. -/
def lampInput : List UInt8 :=
  bytesOf "set lamp 1\nget lamp\n"

set_option maxRecDepth 2000 in
/-- **Input in a hall** whose lamp is listened to. The lamp is set and asked for, and then its state is, which the
listener has written: in one go the same is shown as in two. With bytes that are no text in between, the input
breaks off after the lamp. A line that is no command can stand between the two, and a line can end with a
carriage return. -/
theorem input_goes_line_by_line_hall :
    hall.isIdle = true
      ∧ (∃! w', Typed noEffects hall lampInput w')
      ∧ (Complete lampInput ∧ IsText lampInput ∧ ∃ first second whole, Typed noEffects hall lampInput first
        ∧ Typed noEffects first (bytesOf "get state\n") second
        ∧ Typed noEffects hall (lampInput ++ bytesOf "get state\n") whole ∧ Joins first second whole
        ∧ whole.answer
          = .console ["lamp: numeric=1 string=\"\"", "state: numeric=0 string=\"on\""] false)
      ∧ (Complete (lampInput ++ [255, 10]) ∧ ¬ IsText (lampInput ++ [255, 10])
        ∧ ∃ p r sound whole, lampInput ++ [255, 10] = p ++ r ∧ Complete p ∧ IsText p
          ∧ (Console.readLines r).head? = some none ∧ Typed noEffects hall p sound
          ∧ Typed noEffects hall (lampInput ++ [255, 10] ++ bytesOf "get state\n") whole
          ∧ BreaksOffAfter sound whole ∧ whole.answer = .console ["lamp: numeric=1 string=\"\""] true)
      ∧ ∃ noisy w' w'', noisy = bytesOf "set lamp 1\r\nswitch lamp\nget lamp\n" ∧ Retyped noisy lampInput
        ∧ Typed noEffects hall noisy w' ∧ Typed noEffects hall lampInput w'' ∧ DoesTheSame w' w''
        ∧ w''.log.length < w'.log.length := by
  have idle : hall.isIdle = true := rfl
  have ends : lampInput.getLast? = some lineFeed := by decide +kernel
  have ends' : (lampInput ++ [255, 10]).getLast? = some lineFeed := by decide +kernel
  have complete : Complete lampInput := fun b last => (Option.some.inj (ends.symm.trans last)).symm
  have complete' : Complete (lampInput ++ [255, 10]) := fun b last =>
    (Option.some.inj (ends'.symm.trans last)).symm
  have all : IsText lampInput := by decide +kernel
  have broken : ¬ IsText (lampInput ++ [255, 10]) := by decide +kernel
  obtain ⟨one, joins, breaks, same⟩ := input_goes_line_by_line noEffects hall idle
  have played (w : World) (bytes : List UInt8)
      (ends : (w.after noEffects (Move.played (.operation (.console bytes)) 20)).isIdle = true) :
      Typed noEffects w bytes (w.after noEffects (Move.played (.operation (.console bytes)) 20)) :=
    ⟨⟨20, rfl⟩, ends⟩
  refine ⟨idle, one _, ⟨complete, all, ?_⟩, ⟨complete', broken, ?_⟩, ?_⟩
  · have first := played hall lampInput (by decide +kernel)
    have second := played (hall.after noEffects (Move.played (.operation (.console lampInput)) 20))
      (bytesOf "get state\n") (by decide +kernel)
    have whole := played hall (lampInput ++ bytesOf "get state\n") (by decide +kernel)
    exact ⟨_, _, _, first, second, whole, joins _ _ complete all _ _ _ first second whole, rfl⟩
  · obtain ⟨p, r, split, complete, all, head, off⟩ := breaks _ complete' broken
    obtain ⟨sound, first, -⟩ := one p
    have whole := played hall (lampInput ++ [255, 10] ++ bytesOf "get state\n") (by decide +kernel)
    exact ⟨p, r, sound, _, split, complete, all, head, first, whole, off _ _ _ first whole, rfl⟩
  · have retyped : Retyped (bytesOf "set lamp 1\r\nswitch lamp\nget lamp\n") lampInput := by
      have dropped := @Retype.drop (bytesOf "set lamp 1\r\n") (bytesOf "switch lamp") (bytesOf "get lamp\n")
        "switch lamp" (fun b last => (Option.some.inj last).symm) (by decide +kernel) (by decide +kernel)
        fun command => nofun
      have ended := @Retype.ending [] (bytesOf "set lamp 1") (bytesOf "get lamp\n") (fun b last => nomatch last)
        (by decide +kernel)
      exact .trans _ _ _ (.rel _ _ dropped) (.symm _ _ (.rel _ _ ended))
    have noisy := played hall (bytesOf "set lamp 1\r\nswitch lamp\nget lamp\n") (by decide +kernel)
    have quiet := played hall lampInput (by decide +kernel)
    exact ⟨_, _, _, rfl, retyped, noisy, quiet, same _ _ retyped _ _ noisy quiet, by decide +kernel⟩

end RuleDispatch.World
