import RuleDispatch.Proofs.Dispatch.Calls

/-! # What is begun comes to its end

Callbacks do anything they like when they are called: they emit, write, subscribe further callbacks and
take others out. Each of them does so on its first calls only, and says beforehand what that is. So what
is begun, an emission or a write with all that follows from it, is done after so many steps if nothing
else is asked for.

* `Operation.weight`, `Frame.weight` — how much there is to be carried out at most.
* `World.burden` — that, and then how many calls are still to be made.
* `World.Lightens` — one thing done makes the burden lighter.
* `World.exists_done` — what is begun comes to its end. -/

namespace RuleDispatch

/-! ## 1. How much there is to be done -/

mutual

/-- **How much** an operation can lead to: itself, what its callback does on all of its calls, and the
lines of its input. -/
def Operation.weight : Operation → Nat
  | .subscribe _ _ script | .listenNumber _ script | .listenText _ script | .watch _ _ _ script
  | .timer _ _ script => 1 + Operation.scriptWeight script
  | .console bytes => 1 + (Console.readLines bytes).length
  | .subscribeAgain _ _ _ | .unsubscribe _ _ | .emit _ _ _ | .subscribers _ | .setNumber _ _
  | .setText _ _ | .get _ | .unlisten _ | .listeners | .watchDispose _ | .watchState _
  | .watchDrop _ | .timerCancel _ | .timerActive _ | .timerDrop _ | .run _ _ | .cancel _
  | .isCancelled _ | .line _ | .describe _ | .register _ | .load _ | .unregister _ | .trigger _
  | .ruleIds | .isRunning _ | .disposeAll | .dropEngine => 1

/-- How much a script can lead to; a call counts by itself, too. -/
def Operation.scriptWeight : Script Operation → Nat
  | ⟨operations, times⟩ => times * (1 + Operation.weightAll operations)

/-- How much several operations can lead to. -/
def Operation.weightAll : List Operation → Nat
  | [] => 0
  | op :: rest => op.weight + Operation.weightAll rest

end

/-- Every operation **weighs something**. -/
theorem Operation.weight_pos (op : Operation) : 0 < op.weight := by
  cases op <;> simp only [weight] <;> omega

/-- What is left of a script after a call weighs less, by the call and **what it does**. -/
theorem Script.weight_call (script : Script Operation) (more : 0 < script.times) :
    Operation.scriptWeight script.call.2 + (1 + Operation.weightAll script.call.1)
      = Operation.scriptWeight script := by
  obtain ⟨operations, times⟩ := script
  obtain ⟨times, rfl⟩ := Nat.exists_eq_succ_of_ne_zero (Nat.ne_of_gt more)
  simp only [call, Operation.scriptWeight, Nat.succ_mul]

/-- A script that is used up **stays as it is** and does nothing. -/
theorem Script.call_of_used_up {Op : Type} {script : Script Op} (none : script.times = 0) :
    script.call = ([], script) := by
  rw [call, none]

namespace Frame

/-- How much a frame can lead to, what its calls do apart. -/
def weight : Frame → Nat
  | .perform op => op.weight
  | .lines rest _ => rest.length
  | .respond _ | .record | .deliver _ _ | .tellNumber _ _ _ | .tellText _ _ _ | .execute _
  | .serve _ _ | .resume _ | .drain | .advanceTo _ | .leap _ => 0

/-- How many steps a frame takes by itself: one for each of its calls, and one for itself. -/
def width : Frame → Nat
  | .deliver _ handlers => 1 + handlers.length
  | .tellNumber _ _ listeners => 1 + listeners.length
  | .tellText _ _ listeners => 1 + listeners.length
  | .perform _ | .respond _ | .record | .lines _ _ | .execute _ | .serve _ _ | .resume _ | .drain
  | .advanceTo _ | .leap _ => 1

/-- What is left of a frame after **one of its calls**: plain, weightless and narrower. -/
structure Sheds (frame left : Frame) : Prop where
  plain : left.isPlain = true
  weightless : left.weight = 0
  narrower : left.width < frame.width

end Frame

namespace World

variable {w w' : World}

/-- The **burden**: how much all callbacks and the frames on top can lead to, and then how many steps
these frames take by themselves. -/
def burden (w : World) (frames : List Frame) : Nat × Nat :=
  ((w.callbacks.map fun c => Operation.scriptWeight c.script).sum + (frames.map Frame.weight).sum,
    (frames.map Frame.width).sum)

/-- One frame is done and **the burden is lighter**: there is less to be carried out, or as much and
fewer steps to take. -/
def Lightens (w w' : World) (frame : Frame) : Prop :=
  ∃ frames, w'.stack = frames ++ w.stack ∧ (∀ f ∈ frames, f.isPlain = true)
    ∧ Prod.Lex (· < ·) (· < ·) (w'.burden frames) (w.burden [frame])

/-! ## 2. What leaves the callbacks and the stack alone -/

/-- The **callbacks**, and what is to be done. -/
def desk (w : World) : List Callback × List Frame :=
  (w.callbacks, w.stack)

/-- **Waking a task** leaves the desk. -/
@[simp] theorem desk_wake (w : World) (task : Task) : (w.wake task).desk = w.desk := by
  unfold wake
  split <;> rfl

/-- **Cancelling a run** leaves the desk. -/
@[simp] theorem desk_cancelRun (w : World) (id : Nat) : (w.cancelRun id).desk = w.desk := by
  unfold cancelRun
  dsimp only
  split
  · exact desk_wake _ _
  · rfl

/-- **Cancelling a labelled run** leaves the desk. -/
theorem desk_cancelLabel (w : World) (label : String) : (w.cancelLabel label).desk = w.desk := by
  have each (v : World) (runs : List Run) :
      (runs.foldl (fun w r => w.cancelRun r.id) v).desk = v.desk := by
    induction runs generalizing v with
    | nil => rfl
    | cons r rest ih => rw [List.foldl_cons, ih, desk_cancelRun]
  exact each { w with labels := { w.labels with cancelled := label :: w.labels.cancelled } } _

/-- **Firing a rule** leaves the desk. -/
@[simp] theorem desk_fire (w : World) (index : Nat) : (w.fire index).desk = w.desk := by
  have callbacks := (fire_keeps w index).2.1
  have stack : (w.fire index).stack = w.stack := by
    show (w.fire index).ledger.stack = w.ledger.stack
    rw [ledger_fire_eq, Ledger.stack_fired]
  exact Prod.ext callbacks stack

/-- **Putting in a timer** leaves the desk. -/
@[simp] theorem desk_addTimer (w : World) (interval : Nat) (target : Target) :
    (w.addTimer interval target).desk = w.desk := by
  unfold addTimer
  split <;> rfl

/-- **Cancelling a timer** leaves the desk. -/
@[simp] theorem desk_cancelTimer (w : World) (index : Nat) : (w.cancelTimer index).desk = w.desk := by
  unfold cancelTimer
  split <;> rfl

/-- **A timer with a label** leaves the desk. -/
theorem desk_timerAs (w : World) (label : String) (interval : Nat) (target : Target) :
    (w.timerAs label interval target).desk = w.desk := by
  have added := desk_addTimer w interval target
  unfold timerAs
  dsimp only
  split
  · exact (desk_cancelTimer _ _).trans added
  · exact added

/-- **Disposing of a watcher** leaves the desk. -/
@[simp] theorem desk_disposeWatcher (w : World) (place : Nat) :
    (w.disposeWatcher place).desk = w.desk := by
  unfold disposeWatcher
  split <;> rfl

/-- **A watcher with a label** leaves the desk. -/
theorem desk_watchAs (w : World) (label : String) (sequence : List String) (withinMs : UInt64)
    (target : Target) : (w.watchAs label sequence withinMs target).desk = w.desk := by
  unfold watchAs
  dsimp only
  split
  · exact desk_disposeWatcher _ _
  · rfl

/-- **Taking a subscription back** leaves the desk. -/
@[simp] theorem desk_retract (w : World) (s : Subscription) : (w.retract s).desk = w.desk := by
  cases s with
  | event | threshold => rfl
  | timer index => exact desk_cancelTimer w index
  | pattern place => exact desk_disposeWatcher w place

/-- What leaves the desk alone for one thing leaves it alone **for several**. -/
theorem desk_foldl {α : Type} (act : World → α → World) (each : ∀ w a, (act w a).desk = w.desk)
    (w : World) (as : List α) : (as.foldl act w).desk = w.desk := by
  induction as generalizing w with
  | nil => rfl
  | cons a rest ih => rw [List.foldl_cons, ih, each]

/-- **Disposing of a rule** leaves the desk. -/
@[simp] theorem desk_dispose (w : World) (index : Nat) : (w.dispose index).desk = w.desk := by
  unfold dispose
  split
  · rfl
  · dsimp only
    split
    · rfl
    · exact desk_foldl retract desk_retract (w.modifyRegistration index _) _

/-- **Unregistering a rule** leaves the desk. -/
@[simp] theorem desk_unregister (w : World) (id : String) : (w.unregister id).desk = w.desk := by
  unfold unregister
  split
  · rfl
  · exact desk_dispose _ _

/-- **Wiring triggers** leaves the desk. -/
@[simp] theorem desk_wireAll (w : World) (index : Nat) (rule : String) (triggers : List Trigger) :
    (w.wireAll index rule triggers).1.desk = w.desk := by
  induction triggers generalizing w with
  | nil => rfl
  | cons trigger rest ih =>
    refine (ih (w.wire index rule trigger).1).trans ?_
    cases trigger with
    | schedule intervalMs => exact desk_addTimer w _ _
    | event | threshold | pattern | unknown => rfl

/-- **Enrolling a rule** leaves the desk. -/
@[simp] theorem desk_enrol (w : World) (rule : Rule) : (w.enrol rule).desk = w.desk :=
  desk_wireAll { w with registrations := w.registrations ++ [({ rule } : Registration)] } _ _ _

/-- **Registering a rule** leaves the desk. -/
@[simp] theorem desk_register (w : World) (rule : Rule) : (w.register rule).desk = w.desk := by
  have first := desk_unregister w rule.id
  unfold register
  dsimp only
  split_ifs
  · exact (desk_enrol _ rule).trans first
  · exact (desk_enrol _ rule).trans first
  · exact first
  · exact first

/-- **Loading a document** leaves the desk. -/
theorem desk_load (w : World) (document : String) : (w.load document).desk = w.desk := by
  unfold load
  split
  · rfl
  · next batch _ =>
    have told := desk_foldl (fun w (s : Skipped) => w.record (.skipped s)) (fun _ _ => rfl) w
      batch.skipped
    exact (desk_foldl register desk_register _ batch.rules).trans told

/-- **Disposing of rules** leaves the desk. -/
theorem desk_disposeEach (w : World) (rules : Keyed Nat) : (w.disposeEach rules).desk = w.desk :=
  desk_foldl (fun w (entry : String × Nat) => w.dispose entry.2)
    (fun w entry => desk_dispose w entry.2) w rules

/-! ## 3. Each thing done makes the burden lighter -/

/-- How much **all callbacks** can lead to. -/
def scripted (w : World) : Nat :=
  (w.callbacks.map fun c => Operation.scriptWeight c.script).sum

/-- There is **less to be carried out**. -/
theorem Lightens.of_lt {frame : Frame} (frames : List Frame) (stack : w'.stack = frames ++ w.stack)
    (plain : ∀ f ∈ frames, f.isPlain = true)
    (less : w'.scripted + (frames.map Frame.weight).sum < w.scripted + frame.weight) :
    Lightens w w' frame :=
  ⟨frames, stack, plain, .left _ _ (by simpa [burden, scripted] using less)⟩

/-- There is no more to be carried out, and there are **fewer steps to take**. -/
theorem Lightens.of_le {frame : Frame} (frames : List Frame) (stack : w'.stack = frames ++ w.stack)
    (plain : ∀ f ∈ frames, f.isPlain = true)
    (as_much : w'.scripted + (frames.map Frame.weight).sum ≤ w.scripted + frame.weight)
    (fewer : (frames.map Frame.width).sum < frame.width) : Lightens w w' frame := by
  rcases Nat.lt_or_eq_of_le as_much with less | same
  · exact .of_lt frames stack plain less
  · refine ⟨frames, stack, plain, Prod.lex_iff.mpr (.inr ⟨?_, ?_⟩)⟩
    · simpa [burden, scripted] using same
    · simpa [burden] using fewer

/-- Carrying an operation out makes the burden lighter if **nothing comes of it**. -/
theorem Lightens.of_desk (op : Operation) (same : w'.desk = w.desk) :
    Lightens w w' (.perform op) := by
  have callbacks : w'.callbacks = w.callbacks := congrArg Prod.fst same
  refine .of_lt [] (congrArg Prod.snd same) (by simp) ?_
  have pos := op.weight_pos
  simp only [scripted, callbacks, Frame.weight, List.map_nil, List.sum_nil]
  omega

/-- Several plain things that weigh nothing may come of it, too. -/
theorem Lightens.of_push (op : Operation) (frames : List Frame)
    (plain : ∀ f ∈ frames, f.isPlain = true) (callbacks : w'.callbacks = w.callbacks)
    (stack : w'.stack = frames ++ w.stack) (weightless : (frames.map Frame.weight).sum < op.weight) :
    Lightens w w' (.perform op) := by
  refine .of_lt frames stack plain ?_
  simp only [scripted, callbacks, Frame.weight]
  omega

/-- A **callback added** weighs less than the operation that adds it. -/
theorem Lightens.of_added {op : Operation} (label : String) {script : Script Operation}
    (weight : op.weight = 1 + Operation.scriptWeight script)
    (same : w'.desk = (w.addCallback label script).desk) : Lightens w w' (.perform op) := by
  have callbacks : w'.callbacks = w.callbacks ++ [⟨label, script⟩] := congrArg Prod.fst same
  refine .of_lt [] (congrArg Prod.snd same) (by simp) ?_
  simp only [scripted, callbacks, Frame.weight, weight, List.map_append, List.sum_append,
    List.map_cons, List.map_nil, List.sum_cons, List.sum_nil]
  omega

/-- A command of the console begins at most one emission or write, which **weighs nothing**. -/
theorem exists_applyCommand (w : World) (frames : List Frame) (command : Command) :
    ∃ begun, (w.applyCommand frames command).stack = begun ++ frames ++ w.stack
      ∧ (∀ f ∈ begun, f.isPlain = true ∧ f.weight = 0)
      ∧ (w.applyCommand frames command).callbacks = w.callbacks := by
  cases command with
  | emit name data => exact ⟨[.deliver _ _], rfl, by simp [Frame.isPlain, Frame.weight], rfl⟩
  | setNumber key value => exact ⟨[.tellNumber _ _ _], rfl, by simp [Frame.isPlain, Frame.weight], rfl⟩
  | setText key value => exact ⟨[.tellText _ _ _], rfl, by simp [Frame.isPlain, Frame.weight], rfl⟩
  | get key => exact ⟨[], rfl, by simp, rfl⟩

/-- Frames without weight **weigh nothing together**. -/
theorem sum_weight_eq_zero {frames : List Frame} (h : ∀ f ∈ frames, f.isPlain = true ∧ f.weight = 0) :
    (frames.map Frame.weight).sum = 0 :=
  List.sum_eq_zero fun n member => by
    obtain ⟨f, there, rfl⟩ := List.mem_map.mp member
    exact (h f there).2

/-- **Reading a line** makes the burden lighter: a command weighs less than its line. -/
theorem lightens_readLine (w : World) (text : String) :
    Lightens w (w.readLine text) (.perform (.line text)) := by
  unfold readLine
  split
  · next command _ =>
    obtain ⟨begun, stack, weightless, callbacks⟩ :=
      exists_applyCommand w [.respond (.shown (w.outputOf command))] command
    refine .of_push _ (begun ++ [.respond (.shown (w.outputOf command))]) ?_ callbacks stack ?_
    · intro f member
      rcases List.mem_append.mp member with new | last
      · exact (weightless f new).1
      · rw [List.mem_singleton.mp last]
        rfl
    · simp [sum_weight_eq_zero weightless, Frame.weight, Operation.weight]
  · exact .of_desk _ rfl

/-- **Every operation** weighs more than what comes of it. -/
theorem lightens_perform (w : World) (op : Operation) : Lightens w (w.perform op) (.perform op) := by
  have engine {act : World → World} (same : (act w).desk = w.desk) (op : Operation) :
      Lightens w (w.withEngine act) (.perform op) := by
    unfold withEngine
    split_ifs
    · exact .of_desk op same
    · exact .of_desk op rfl
  cases op with
  -- the script moves from the operation to the new callback, so the operation itself is taken off
  | subscribe label name script => exact .of_added label rfl rfl
  | listenNumber label script => exact .of_added label rfl rfl
  | listenText label script => exact .of_added label rfl rfl
  | watch label sequence withinMs script =>
    exact .of_added label rfl (desk_watchAs (w.addCallback label script) label sequence withinMs _)
  | timer label ms script =>
    exact .of_added label rfl (desk_timerAs (w.addCallback label script) label ms.toNat _)
  -- a round weighs nothing: what its calls do is weighed in the scripts of the callbacks
  | emit name time data =>
    exact .of_push _ [.deliver _ _, .respond .done] (by simp [Frame.isPlain]) rfl rfl
      (by simp [Frame.weight, Operation.weight])
  | setNumber key value =>
    exact .of_push _ [.tellNumber _ _ _, .respond .done] (by simp [Frame.isPlain]) rfl rfl
      (by simp [Frame.weight, Operation.weight])
  | setText key value =>
    exact .of_push _ [.tellText _ _ _, .respond .done] (by simp [Frame.isPlain]) rfl rfl
      (by simp [Frame.weight, Operation.weight])
  | line text => exact lightens_readLine w text
  | console bytes =>
    exact .of_push _ [.lines _ _] (by simp [Frame.isPlain]) rfl rfl
      (by simp [Frame.weight, Operation.weight])
  | subscribers | get | listeners | isCancelled => exact .of_desk _ rfl
  | subscribeAgain label source name =>
    simp only [perform]
    split <;> exact .of_desk _ rfl
  | unsubscribe label other =>
    simp only [perform]
    split <;> exact .of_desk _ rfl
  | unlisten label =>
    simp only [perform]
    split <;> exact .of_desk _ rfl
  | watchDispose label =>
    simp only [perform]
    split
    · exact .of_desk _ (desk_disposeWatcher w _)
    · exact .of_desk _ rfl
  | watchState label =>
    simp only [perform]
    split <;> exact .of_desk _ rfl
  | watchDrop label =>
    simp only [perform]
    split
    · exact .of_desk _ (desk_disposeWatcher _ _)
    · exact .of_desk _ rfl
  | timerCancel label =>
    simp only [perform]
    split
    · exact .of_desk _ (desk_cancelTimer w _)
    · exact .of_desk _ rfl
  | timerActive label =>
    simp only [perform]
    split <;> exact .of_desk _ rfl
  | timerDrop label =>
    simp only [perform]
    split
    · exact .of_desk _ (desk_cancelTimer _ _)
    · exact .of_desk _ rfl
  | run label actions =>
    simp only [perform]
    split <;> exact .of_desk _ rfl
  | cancel label => exact .of_desk _ (desk_cancelLabel w label)
  | describe part =>
    simp only [perform]
    split <;> exact .of_desk _ rfl
  | register rule =>
    refine engine ?_ _
    cases rule with
    | none => rfl
    | some rule => exact desk_register w rule
  | load document => exact engine (desk_load w document) _
  | unregister id => exact engine (desk_unregister w id) _
  | trigger id =>
    refine engine ?_ _
    split
    · exact desk_fire w _
    · rfl
  | ruleIds => exact engine rfl _
  | isRunning id => exact engine rfl _
  | disposeAll => exact engine (desk_disposeEach { w with engine := w.engine.map fun _ => [] } _) _
  | dropEngine => exact engine (desk_disposeEach { w with engine := none } _) _

/-- A list in which **one thing is changed** weighs as much with the old one as with the new one. -/
theorem sum_map_modify {α : Type} (weight : α → Nat) (f : α → α) {things : List α} {index : Nat}
    {a : α} (found : things[index]? = some a) :
    ((things.modify index f).map weight).sum + weight a
      = (things.map weight).sum + weight (f a) := by
  obtain ⟨inside, rfl⟩ := List.getElem?_eq_some_iff.mp found
  obtain ⟨before, b, after, split, length, modified⟩ := List.exists_of_modify f inside
  subst split
  subst length
  simp only [modified, List.getElem_append_right (Nat.le_refl _), Nat.sub_self,
    List.getElem_cons_zero, List.map_append, List.map_cons, List.sum_append, List.sum_cons]
  omega

/-- What a script does weighs **as much as its operations**. -/
theorem sum_weight_scriptFrames (ops : List Operation) :
    ((scriptFrames ops).map Frame.weight).sum = Operation.weightAll ops := by
  induction ops with
  | nil => rfl
  | cons op rest ih =>
    simp only [scriptFrames, List.flatMap_cons, List.map_append, List.sum_append] at ih ⊢
    rw [ih]
    simp [Frame.weight, Operation.weightAll]

/-- A call that leaves the callbacks and the stack alone makes the burden lighter **by itself**. -/
theorem Lightens.of_call {frame left : Frame} (sheds : frame.Sheds left)
    (same : w'.desk = (w.push [left]).desk) : Lightens w w' frame := by
  have callbacks : w'.callbacks = w.callbacks := congrArg Prod.fst same
  have stack : w'.stack = left :: w.stack := congrArg Prod.snd same
  refine .of_le [left] stack (by simpa using sheds.plain) ?_ (by simpa using sheds.narrower)
  simp [scripted, callbacks, sheds.weightless]

/-- A **callback that is called** does what it does once less. -/
theorem lightens_runCallback {frame left : Frame} (sheds : frame.Sheds left) (w : World)
    (index : Nat) (entry : String → Entry) :
    Lightens w ((w.push [left]).runCallback index entry) frame := by
  unfold runCallback
  split
  · exact .of_call sheds rfl
  · next c held =>
    have found : w.callbacks[index]? = some c := held
    have sum := sum_map_modify (fun c : Callback => Operation.scriptWeight c.script)
      (fun held => { held with script := c.script.call.2 }) found
    -- a script that is used up weighs what it did, but the frame has a call less to make
    by_cases used_up : c.script.times = 0
    · rw [Script.call_of_used_up used_up] at sum ⊢
      refine .of_le [left] rfl (by simpa using sheds.plain) ?_ (by simpa using sheds.narrower)
      simp only [scripted, push, record, List.map_cons, List.map_nil, List.sum_cons, List.sum_nil,
        sheds.weightless] at sum ⊢
      omega
    -- what the call does comes off the weight of the script, and one more for the call
    · have call := Script.weight_call c.script (Nat.pos_of_ne_zero used_up)
      refine .of_lt (scriptFrames c.script.call.1 ++ [left]) (by simp [push]) ?_ ?_
      · intro f member
        rcases List.mem_append.mp member with op | last
        · exact isPlain_scriptFrames _ f op
        · rw [List.mem_singleton.mp last]
          exact sheds.plain
      · rw [List.map_append, List.sum_append, sum_weight_scriptFrames]
        simp only [scripted, push, record, List.map_cons, List.map_nil, List.sum_cons, List.sum_nil,
          sheds.weightless] at sum ⊢
        omega

/-- **Calling a target** makes the burden lighter: its frame has one call less to make. -/
theorem lightens_callTarget {frame left : Frame} (sheds : frame.Sheds left) (w : World)
    (entry : String → Entry) (target : Target) :
    Lightens w ((w.push [left]).callTarget entry target) frame := by
  cases target with
  | callback index => exact lightens_runCallback sheds w index entry
  | rule index => exact .of_call sheds (desk_fire _ index)

/-- **Delivering an event** makes the burden lighter. -/
theorem lightens_handle {frame left : Frame} (sheds : frame.Sheds left) (w : World) (event : Event)
    (handler : Handler) : Lightens w ((w.push [left]).handle event handler) frame := by
  cases handler with
  | target target => exact lightens_callTarget sheds w _ target
  | watcher place =>
    simp only [handle, observe]
    split
    · exact .of_call sheds rfl
    · next x _ =>
      let shown : World := { w with watchers := w.watchers.modify place fun held =>
        { held with matcher := (x.matcher.observe event.name event.timestamp).2 } }
      show Lightens w ((shown.push [left]).settleWatcher x event.name _) frame
      unfold settleWatcher
      split
      · split_ifs
        · exact .of_call sheds rfl
        · exact lightens_callTarget sheds shown _ x.target
      · exact .of_call sheds rfl
      · exact .of_call sheds rfl

/-- **Telling a listener of a number** makes the burden lighter. -/
theorem lightens_hearNumber {frame left : Frame} (sheds : frame.Sheds left) (w : World)
    (key : String) (value : Float) (listener : NumberListener) :
    Lightens w ((w.push [left]).hearNumber key value listener) frame := by
  cases listener with
  | callback index => exact lightens_runCallback sheds w index _
  | threshold rule entity bounds =>
    unfold hearNumber
    dsimp only
    split_ifs
    · exact .of_call sheds (desk_fire _ rule)
    · exact .of_call sheds rfl

/-- **Reading lines** makes the burden lighter: there is one less to read. -/
theorem lightens_readLines (w : World) (shown : List String) (lines : List (Option String)) :
    Lightens w (w.readLines shown lines) (.lines lines shown) := by
  unfold readLines
  split
  · exact .of_le [] rfl (by simp) (Nat.le_refl _) (by simp [Frame.width])
  · exact .of_lt [] rfl (by simp) (by simp [scripted, respond, Frame.weight])
  · next text rest =>
    -- a line is taken off, whatever comes of it
    have more (w' : World) (callbacks : w'.callbacks = w.callbacks) (shown' : List String)
        (stack : w'.stack = .lines rest shown' :: w.stack) :
        Lightens w w' (.lines (some text :: rest) shown) := by
      refine .of_lt [.lines rest shown'] stack (by simp [Frame.isPlain]) ?_
      simp [scripted, callbacks, Frame.weight]
    split
    · next command _ =>
      let left : Frame := .lines rest (shown ++ (w.outputOf command).toList)
      obtain ⟨begun, stack, weightless, callbacks⟩ := exists_applyCommand w [left] command
      refine .of_lt (begun ++ [left]) stack ?_ ?_
      · intro f member
        rcases List.mem_append.mp member with new | last
        · exact (weightless f new).1
        · rw [List.mem_singleton.mp last]
          rfl
      · rw [List.map_append, List.sum_append, sum_weight_eq_zero weightless]
        simp [scripted, callbacks, left, Frame.weight]
    · exact more _ rfl shown rfl
    · exact more _ rfl shown rfl

/-- **Every plain thing done** makes the burden lighter. -/
theorem lightens_act (exec : Executor) (w : World) {frame : Frame} (plain : frame.isPlain = true) :
    Lightens w (w.act exec frame) frame := by
  -- a frame that only goes takes its width along
  have spent (same : (w.act exec frame).desk = w.desk) : Lightens w (w.act exec frame) frame := by
    have callbacks : (w.act exec frame).callbacks = w.callbacks := congrArg Prod.fst same
    refine .of_le [] (congrArg Prod.snd same) (by simp) (by simp [scripted, callbacks]) ?_
    cases frame <;> simp [Frame.width]
  cases frame with
  | perform op => exact lightens_perform w op
  | respond answer => exact spent rfl
  | record => exact spent rfl
  | lines rest shown => exact lightens_readLines w shown rest
  | deliver event handlers =>
    cases handlers with
    | nil => exact spent rfl
    | cons handler rest =>
      exact lightens_handle ⟨rfl, rfl, by simp [Frame.width]⟩ w event handler
  | tellNumber key value listeners =>
    cases listeners with
    | nil => exact spent rfl
    | cons listener rest =>
      exact lightens_hearNumber ⟨rfl, rfl, by simp [Frame.width]⟩ w key value listener
  | tellText key value listeners =>
    cases listeners with
    | nil => exact spent rfl
    | cons listener rest =>
      exact lightens_runCallback ⟨rfl, rfl, by simp [Frame.width]⟩ w listener _
  | execute | serve | resume | drain | advanceTo | leap => cases plain

/-! ## 4. What is begun comes to its end -/

/-- The burden is lighter **together with other things**, too. -/
theorem burden_append_lt {frame : Frame} {frames : List Frame}
    (lighter : Prod.Lex (· < ·) (· < ·) (w'.burden frames) (w.burden [frame]))
    (others : List Frame) :
    Prod.Lex (· < ·) (· < ·) (w'.burden (frames ++ others)) (w.burden (frame :: others)) := by
  simp only [burden, Prod.lex_iff, List.map_append, List.sum_append, List.map_cons, List.sum_cons,
    List.map_nil, List.sum_nil] at lighter ⊢
  omega

/-- **What is begun comes to its end**: plain things on top of others are done after so many steps,
together with all that comes of them, and what each of these steps keeps is kept until then. -/
theorem exists_done_of_kept (exec : Executor) {P : World → Prop}
    (kept : ∀ w frame rest, w.stack = frame :: rest → frame.isPlain = true → P w → P (w.step exec))
    (w : World) (above base : List Frame) (plain : ∀ f ∈ above, f.isPlain = true)
    (stack : w.stack = above ++ base) (holds : P w) :
    ∃ steps, (w.after exec (List.replicate steps .step)).stack = base
      ∧ P (w.after exec (List.replicate steps .step)) := by
  match above with
  | [] => exact ⟨0, stack, holds⟩
  | frame :: above =>
    -- the frame is done, and the burden of what is on top of the base is lighter
    let below : World := { w with stack := above ++ base }
    have first : frame.isPlain = true := plain frame List.mem_cons_self
    have taken : w.step exec = below.act exec frame := by rw [step, stack]; rfl
    obtain ⟨frames, pushed, new, lighter⟩ := lightens_act exec below first
    have stack' : (w.step exec).stack = (frames ++ above) ++ base := by
      rw [taken, pushed, List.append_assoc]
    have plain' : ∀ f ∈ frames ++ above, f.isPlain = true := by
      intro f member
      rcases List.mem_append.mp member with first | later
      · exact new f first
      · exact plain f (List.mem_cons_of_mem _ later)
    obtain ⟨steps, done⟩ := exists_done_of_kept exec kept (w.step exec) (frames ++ above) base plain'
      stack' (kept w frame (above ++ base) stack first holds)
    exact ⟨steps + 1, by rw [List.replicate_succ]; exact done⟩
termination_by w.burden above
decreasing_by
  rw [taken]
  exact burden_append_lt lighter above

/-- What lies on top of the stack **is done after some steps**, if it is plain. -/
theorem exists_done (exec : Executor) (w : World) (above base : List Frame)
    (plain : ∀ f ∈ above, f.isPlain = true) (stack : w.stack = above ++ base) :
    ∃ steps, (w.after exec (List.replicate steps .step)).stack = base := by
  obtain ⟨steps, done, -⟩ :=
    exists_done_of_kept exec (P := fun _ => True) (fun _ _ _ _ _ _ => trivial) w above base plain stack
      trivial
  exact ⟨steps, done⟩

end World

end RuleDispatch
