import RuleDispatch.Proofs.Dispatch.Rounds
import RuleDispatch.Proofs.Relevance.Akin

/-! # Operations of two worlds that are akin

An operation carried out in worlds that are akin leaves them alike. A value that is disregarded may be
written; it is told to the same listeners. An event may come with another payload, if its moment is stamped
alike in both worlds.

* `under_setNumber_of_disregarded`, `under_setNumber_of_kept` — a write, in the guise.
* `World.Akin.emit`, `World.Akin.writeNumber` — emissions and writes.
* `World.Akin.readLine`, `World.Akin.readLines` — the console.
* `World.Akin.perform` — one operation. -/

namespace RuleDispatch

/-- A table that a key is put in, **without some keys**. -/
theorem Keyed.filter_put {α : Type} (keeps : String → Bool) (key : String) (value : α)
    (table : Keyed α) :
    (put key value table).filter (fun entry => keeps entry.1)
      = if keeps key then put key value (table.filter fun entry => keeps entry.1)
        else table.filter fun entry => keeps entry.1 := by
  induction table with
  | nil => by_cases kept : keeps key = true <;> simp [put, kept]
  | cons entry rest ih =>
    obtain ⟨name, held⟩ := entry
    by_cases same : key = name
    · subst same
      by_cases kept : keeps key = true <;> simp [put, kept]
    · by_cases kept : keeps key = true <;> by_cases kept' : keeps name = true <;>
        simp [put, same, kept, kept', ih]

namespace World

variable {c : Disregard} {stamp stamp' : Timestamp → Timestamp} {w w' : World}

/-! ## 1. Emissions and writes -/

/-- A number that is disregarded **does not show** when it is written. -/
theorem under_setNumber_of_disregarded (stamp : Timestamp → Timestamp) (w : World) {key : String}
    (disregarded : c.values (.number key) = true) (value : Float) :
    ({ w with store := w.store.setNumber key value } : World).under (c.guise stamp)
      = w.under (c.guise stamp) := by
  have numbers : (c.guise stamp).numbers (Keyed.put key value w.store.numbers)
      = (c.guise stamp).numbers w.store.numbers := by
    refine (Keyed.filter_put (fun key => !c.values (.number key)) key value w.store.numbers).trans ?_
    rw [disregarded]
    rfl
  simp only [under, Store.setNumber, numbers]

/-- A text that is disregarded does not show either. -/
theorem under_setText_of_disregarded (stamp : Timestamp → Timestamp) (w : World) {key : String}
    (disregarded : c.values (.text key) = true) (value : String) :
    ({ w with store := w.store.setText key value } : World).under (c.guise stamp)
      = w.under (c.guise stamp) := by
  have texts : (c.guise stamp).texts (Keyed.put key value w.store.texts)
      = (c.guise stamp).texts w.store.texts := by
    refine (Keyed.filter_put (fun key => !c.values (.text key)) key value w.store.texts).trans ?_
    rw [disregarded]
    rfl
  simp only [under, Store.setText, texts]

/-- A number that is kept **shows** when it is written. -/
theorem under_setNumber_of_kept (stamp : Timestamp → Timestamp) (w : World) {key : String}
    (kept : c.values (.number key) = false) (value : Float) :
    ({ w with store := w.store.setNumber key value } : World).under (c.guise stamp)
      = { w.under (c.guise stamp) with
          store := (w.under (c.guise stamp)).store.setNumber key value } := by
  have numbers : (c.guise stamp).numbers (Keyed.put key value w.store.numbers)
      = Keyed.put key value ((c.guise stamp).numbers w.store.numbers) := by
    refine (Keyed.filter_put (fun key => !c.values (.number key)) key value w.store.numbers).trans ?_
    rw [kept]
    rfl
  simp only [under, Store.setNumber, numbers]

/-- A text that is kept shows, too. -/
theorem under_setText_of_kept (stamp : Timestamp → Timestamp) (w : World) {key : String}
    (kept : c.values (.text key) = false) (value : String) :
    ({ w with store := w.store.setText key value } : World).under (c.guise stamp)
      = { w.under (c.guise stamp) with
          store := (w.under (c.guise stamp)).store.setText key value } := by
  have texts : (c.guise stamp).texts (Keyed.put key value w.store.texts)
      = Keyed.put key value ((c.guise stamp).texts w.store.texts) := by
    refine (Keyed.filter_put (fun key => !c.values (.text key)) key value w.store.texts).trans ?_
    rw [kept]
    rfl
  simp only [under, Store.setText, texts]

/-- The world with its **labels changed**. -/
def relabelled (w : World) (change : Labels → Labels) : World :=
  { w with labels := change w.labels }

namespace Akin

/-- **An event emitted** is handed to the same handlers. -/
theorem emit (h : Akin c stamp stamp' w w') (name : String) {time time' : Timestamp}
    (stamped : stamp time = stamp' time') (data data' : Json) :
    Akin c stamp stamp' (w.emit ⟨name, time, data⟩) (w'.emit ⟨name, time', data'⟩) := by
  refine h.push ?_
  show [Frame.deliver ⟨name, stamp time, .null⟩ (w.bus.handlers name)]
    = [Frame.deliver ⟨name, stamp' time', .null⟩ (w'.bus.handlers name)]
  rw [stamped, h.bus]

/-- **A number written**, whether it is disregarded or not, is told to the same listeners. -/
theorem writeNumber (h : Akin c stamp stamp' w w') (key : String) (value : Float) :
    Akin c stamp stamp' (w.writeNumber key value) (w'.writeNumber key value) := by
  -- what is disregarded does not show at all, what is not is written in both worlds
  have stored : Akin c stamp stamp' { w with store := w.store.setNumber key value }
      { w' with store := w'.store.setNumber key value } := by
    unfold Akin
    cases disregarded : c.values (.number key) with
    | true =>
      rw [under_setNumber_of_disregarded stamp w disregarded,
        under_setNumber_of_disregarded stamp' w' disregarded, h]
    | false =>
      rw [under_setNumber_of_kept stamp w disregarded, under_setNumber_of_kept stamp' w' disregarded, h]
  refine stored.push ?_
  show [Frame.tellNumber key value w.store.hearNumbers] = [Frame.tellNumber key value w'.store.hearNumbers]
  rw [h.hearNumbers]

/-- **A text written**, whether it is disregarded or not, is told to the same listeners. -/
theorem writeText (h : Akin c stamp stamp' w w') (key value : String) :
    Akin c stamp stamp' (w.writeText key value) (w'.writeText key value) := by
  have stored : Akin c stamp stamp' { w with store := w.store.setText key value }
      { w' with store := w'.store.setText key value } := by
    unfold Akin
    cases disregarded : c.values (.text key) with
    | true =>
      rw [under_setText_of_disregarded stamp w disregarded,
        under_setText_of_disregarded stamp' w' disregarded, h]
    | false =>
      rw [under_setText_of_kept stamp w disregarded, under_setText_of_kept stamp' w' disregarded, h]
  refine stored.push ?_
  show [Frame.tellText key value w.store.hearTexts] = [Frame.tellText key value w'.store.hearTexts]
  rw [h.hearTexts]

/-! ## 2. The console -/

/-- **A command carried out**, the same in both worlds or two emissions of one name. -/
theorem applyCommand (h : Akin c stamp stamp' w w') {frames frames' : List Frame}
    (same : frames.map (·.under (c.guise stamp)) = frames'.map (·.under (c.guise stamp')))
    {command command' : Command}
    (commands : command = command' ∨ ∃ name data data', command = .emit name data
      ∧ command' = .emit name data')
    (stamped : ∀ name data, command = .emit name data → stamp w.wallClock = stamp' w'.wallClock) :
    Akin c stamp stamp' (w.applyCommand frames command) (w'.applyCommand frames' command') := by
  have pushed : Akin c stamp stamp' (w.push frames) (w'.push frames') := h.push same
  rcases commands with rfl | ⟨name, data, data', rfl, rfl⟩
  · cases command with
    | emit name data => exact pushed.emit name (stamped name data rfl) data data
    | setNumber key value => exact pushed.writeNumber key value
    | setText key value => exact pushed.writeText key value
    | get key => exact pushed
  · exact pushed.emit name (stamped name data rfl) data data'

/-- Whichever answer is set, it is **the same in the guise**. -/
theorem answers (answer answer' : Answer) :
    [Frame.respond answer].map (·.under (c.guise stamp))
      = [Frame.respond answer'].map (·.under (c.guise stamp')) := by
  have done (stamp : Timestamp → Timestamp) (answer : Answer) :
      [Frame.respond answer].map (·.under (c.guise stamp)) = [.respond .done] := rfl
  rw [done, done]

/-- **A line of the console.** -/
theorem readLine (h : Akin c stamp stamp' w w') {line line' : String} (same : c.SameLine line line')
    (stamped : ∀ name data data', Command.read line = .ok (.emit name data) →
      Command.read line' = .ok (.emit name data') → stamp w.wallClock = stamp' w'.wallClock) :
    Akin c stamp stamp' (w.readLine line) (w'.readLine line') := by
  cases same with
  | one =>
    unfold World.readLine
    cases read : Command.read line with
    | ok command =>
      exact h.applyCommand (answers _ _) (.inl rfl) fun name data emits =>
        stamped name data data (emits ▸ read) (emits ▸ read)
    | error e => exact h
  | emission contents read read' =>
    unfold World.readLine
    rw [read, read']
    exact h.applyCommand (answers _ _) (.inr ⟨_, _, _, rfl, rfl⟩) fun _ _ _ => stamped _ _ _ read read'

/-- **The lines of the console** that are left. -/
theorem readLines (h : Akin c stamp stamp' w w') (shown shown' : List String)
    {lines lines' : List (Option String)} (same : lines.map c.line = lines'.map c.line)
    (stamped : ∀ line line' rest rest' name data data', lines = some line :: rest →
      lines' = some line' :: rest' → Command.read line = .ok (.emit name data) →
      Command.read line' = .ok (.emit name data') → stamp w.wallClock = stamp' w'.wallClock) :
    Akin c stamp stamp' (w.readLines shown lines) (w'.readLines shown' lines') := by
  cases lines with
  | nil =>
    obtain rfl := List.map_eq_nil_iff.mp same.symm
    exact h.record rfl
  | cons line rest =>
    obtain ⟨line', rest', rfl, first, later⟩ := List.map_eq_cons_iff.mp same.symm
    -- of the lines that are left only their gist is the same
    have left (shown shown' : List String) :
        [Frame.lines rest shown].map (·.under (c.guise stamp))
          = [Frame.lines rest' shown'].map (·.under (c.guise stamp')) := by
      show [Frame.lines (rest.map c.line) []] = [Frame.lines (rest'.map c.line) []]
      rw [later]
    rcases Disregard.sameLine_of_line first.symm with ⟨rfl, rfl⟩ | ⟨text, text', rfl, rfl, akin⟩
    · exact h
    · have stamps := fun name data data' => stamped text text' rest rest' name data data' rfl rfl
      cases akin with
      | one =>
        unfold World.readLines
        dsimp only
        cases read : Command.read text with
        | ok command =>
          exact h.applyCommand (left _ _) (.inl rfl) fun name data emits =>
            stamps name data data (emits ▸ read) (emits ▸ read)
        | error e =>
          cases e with
          | empty => exact h.push (left _ _)
          | unknown | missing | badPayload => exact (h.record rfl).push (left _ _)
      | emission contents read read' =>
        unfold World.readLines
        dsimp only
        -- both lines emit the event, with payloads that may differ
        rw [read, read']
        exact h.applyCommand (left _ _) (.inr ⟨_, _, _, rfl, rfl⟩) fun _ _ _ => stamps _ _ _ read read'

/-! ## 3. Operations -/

/-- **Labels changed** in the same way. -/
theorem relabelled (h : Akin c stamp stamp' w w') (change : Labels → Labels) :
    Akin c stamp stamp' (w.relabelled change) (w'.relabelled change) :=
  h.map (f := (·.relabelled change)) fun _ _ => rfl

/-- **A new callback** that does the same gets the same place. -/
theorem addCallback (h : Akin c stamp stamp' w w') (label : String) {s s' : Script Operation}
    (same : c.script s = c.script s') :
    Akin c stamp stamp' (w.addCallback label s) (w'.addCallback label s') := by
  have added (stamp : Timestamp → Timestamp) (u : World) (s : Script Operation) :
      (u.addCallback label s).under (c.guise stamp)
        = { u.under (c.guise stamp) with
            callbacks := (u.under (c.guise stamp)).callbacks ++ [⟨label, c.script s⟩] } := by
    simp only [World.addCallback, under, List.map_append]
    rfl
  rw [Akin, added, added, h, same]

/-- **A label** stands for the same handle. -/
theorem lookup (h : Akin c stamp stamp' w w') {α : Type} (table : Labels → Keyed α) (label : String) :
    (table w'.labels).lookup label = (table w.labels).lookup label := by
  rw [h.labels]

/-- Akin worlds have **as many callbacks**. -/
theorem length_callbacks (h : Akin c stamp stamp' w w') : w.callbacks.length = w'.callbacks.length := by
  have same := h.read fun u => u.callbacks.length
  simpa only [under, List.length_map] using same

/-- **A subscription with a label** keeps worlds akin. -/
theorem subscribeAs (h : Akin c stamp stamp' w w') (label name : String) (handler : Handler) :
    Akin c stamp stamp' (w.subscribeAs label name handler) (w'.subscribeAs label name handler) :=
  h.map (f := (·.subscribeAs label name handler)) fun _ _ => rfl

/-- **A watcher with a label** keeps worlds akin. -/
theorem watchAs (h : Akin c stamp stamp' w w') (label : String) (sequence : List String)
    (withinMs : UInt64) (target : Target) :
    Akin c stamp stamp' (w.watchAs label sequence withinMs target)
      (w'.watchAs label sequence withinMs target) :=
  h.map (under_watchAs · · label sequence withinMs target)

/-- **A new run.** -/
theorem spawn (h : Akin c stamp stamp' w w') (owner : Owner) (actions : List Action)
    (cancelled : Bool) :
    Akin c stamp stamp' (w.spawn owner actions cancelled) (w'.spawn owner actions cancelled) := by
  rw [Akin, under_spawn _ w owner actions cancelled (c.spares_guise stamp _),
    under_spawn _ w' owner actions cancelled (c.spares_guise stamp' _), h]

/-- **A timer under a label**, whatever was answered. -/
theorem timerAs (h : Akin c stamp stamp' w w') (label : String) (interval : Nat) (target : Target) :
    Akin c stamp stamp' (w.timerAs label interval target) (w'.timerAs label interval target) := by
  have added : Akin c stamp stamp' (w.addTimer interval target) (w'.addTimer interval target) :=
    h.map (under_addTimer · · interval target)
  have place : w.timers.length = w'.timers.length := congrArg List.length h.timers
  have labelled := added.relabelled fun labels =>
    { labels with timers := labels.timers.put label w.timers.length }
  unfold World.timerAs
  dsimp only
  rw [h.lookup Labels.timers label, ← place]
  cases w.labels.timers.lookup label with
  | none => exact labelled
  | some index => exact labelled.map (under_cancelTimer · · index)

/-- **What the engine is asked for** keeps worlds akin, if it does so when the engine is there. -/
theorem withEngine (h : Akin c stamp stamp' w w') {act : World → World}
    (same : Akin c stamp stamp' (act w) (act w')) :
    Akin c stamp stamp' (w.withEngine act) (w'.withEngine act) := by
  unfold World.withEngine
  rw [← h.engine]
  split_ifs
  · exact same
  · exact h

/-- **Loading a document** keeps worlds akin. -/
theorem load (h : Akin c stamp stamp' w w') (document : String) :
    Akin c stamp stamp' (w.load document) (w'.load document) := by
  unfold World.load
  cases Batch.read document with
  | error fault => exact h
  | ok batch =>
    have skipped : Akin c stamp stamp' (batch.skipped.foldl (fun w s => w.record (.skipped s)) w)
        (batch.skipped.foldl (fun w s => w.record (.skipped s)) w') :=
      h.map (under_foldl_skipped · · batch.skipped)
    exact skipped.map (under_registerAll · · batch.rules)

/-- **An operation** that has nothing to disregard in it. -/
theorem perform_of_isRigid (h : Akin c stamp stamp' w w') (unread : c.Unread w) {op : Operation}
    (rigid : op.isRigid = true) : Akin c stamp stamp' (w.perform op) (w'.perform op) := by
  unfold World.perform
  cases op with
  -- these hold names, payloads or scripts that may be disregarded
  | emit | line | console | subscribe | listenNumber | listenText | watch | timer => cases rigid
  | subscribers | get | listeners | isCancelled => exact h
  | subscribeAgain label source name =>
    dsimp only
    rw [h.lookup Labels.subscriptions source]
    cases w.labels.subscriptions.lookup source with
    | none => exact h
    | some entry => exact h.subscribeAs label name entry.2.2
  | unsubscribe label other =>
    dsimp only
    rw [h.lookup Labels.subscriptions label]
    cases w.labels.subscriptions.lookup label with
    | none => exact h
    | some entry =>
      exact h.map (f := fun u => { u with bus := u.bus.unsubscribe (other.getD entry.1) entry.2.1 })
        fun _ _ => rfl
  | setNumber key value =>
    -- the answer waits below the round of those who listen
    have first : Akin c stamp stamp' (w.push [.respond .done]) (w'.push [.respond .done]) :=
      h.push (answers _ _)
    exact first.writeNumber key value
  | setText key value =>
    have first : Akin c stamp stamp' (w.push [.respond .done]) (w'.push [.respond .done]) :=
      h.push (answers _ _)
    exact first.writeText key value
  | unlisten label =>
    dsimp only
    rw [h.lookup Labels.listeners label]
    cases w.labels.listeners.lookup label with
    | none => exact h
    | some id => exact h.map (f := fun u => { u with store := u.store.unlisten id }) fun _ _ => rfl
  | watchDispose label =>
    dsimp only
    rw [h.lookup Labels.watchers label]
    cases w.labels.watchers.lookup label with
    | none => exact h
    | some index => exact h.map (under_disposeWatcher · · index)
  | watchState label =>
    dsimp only
    rw [h.lookup Labels.watchers label]
    cases w.labels.watchers.lookup label <;> exact h
  | watchDrop label =>
    have forgotten := h.relabelled fun labels => { labels with watchers := labels.watchers.remove label }
    dsimp only
    rw [h.lookup Labels.watchers label]
    cases w.labels.watchers.lookup label with
    | none => exact h
    | some index => exact forgotten.map (under_disposeWatcher · · index)
  | timerCancel label =>
    dsimp only
    rw [h.lookup Labels.timers label]
    cases w.labels.timers.lookup label with
    | none => exact h
    | some index => exact h.map (under_cancelTimer · · index)
  | timerActive label =>
    dsimp only
    rw [h.lookup Labels.timers label]
    cases w.labels.timers.lookup label <;> exact h
  | timerDrop label =>
    have forgotten := h.relabelled fun labels => { labels with timers := labels.timers.remove label }
    dsimp only
    rw [h.lookup Labels.timers label]
    cases w.labels.timers.lookup label with
    | none => exact h
    | some index => exact forgotten.map (under_cancelTimer · · index)
  | run label actions =>
    cases actions with
    | none => exact h
    | some actions =>
      have cancelled : w.labelCancelled label = w'.labelCancelled label := h.read (·.labelCancelled label)
      dsimp only
      rw [cancelled]
      exact h.spawn (.label label) actions _
  | cancel label => exact h.map (under_cancelLabel · · label)
  | describe part =>
    dsimp only
    cases w.describe part <;> cases w'.describe part <;> exact h
  | register rule =>
    refine h.withEngine ?_
    cases rule with
    | none => exact h
    | some rule => exact h.map (under_register · · rule)
  | load document => exact h.withEngine (h.load document)
  | unregister id =>
    refine h.withEngine ?_
    exact h.map (under_unregister · · id)
  | trigger id =>
    refine h.withEngine ?_
    have same : w.ruleIndex? id = w'.ruleIndex? id := h.read (·.ruleIndex? id)
    rw [← same]
    cases w.ruleIndex? id with
    | none => exact h
    | some index => exact h.fire unread index
  | ruleIds | isRunning =>
    refine h.withEngine ?_
    exact h
  | disposeAll =>
    refine h.withEngine ?_
    exact h.map under_disposeAll
  | dropEngine =>
    refine h.withEngine ?_
    exact h.map under_dropEngine

/-- **An operation**, the same in both worlds; an event that is emitted is stamped in the one and in the
other. -/
theorem perform (h : Akin c stamp stamp' w w') (unread : c.Unread w) {op op' : Operation}
    (same : c.SameOp op op')
    (emits : ∀ name time data time' data', op = .emit name time data → op' = .emit name time' data' →
      stamp (time.getD (.ofMillis w.now)) = stamp' (time'.getD (.ofMillis w'.now)))
    (reads : ∀ line line' name data data', op = .line line → op' = .line line' →
      Command.read line = .ok (.emit name data) → Command.read line' = .ok (.emit name data') →
      stamp w.wallClock = stamp' w'.wallClock) :
    Akin c stamp stamp' (w.perform op) (w'.perform op') := by
  cases same with
  | rigid rigid => exact h.perform_of_isRigid unread rigid
  | emit name =>
    have first : Akin c stamp stamp' (w.push [.respond .done]) (w'.push [.respond .done]) :=
      h.push (answers _ _)
    exact first.emit name (emits name _ _ _ _ rfl rfl) _ _
  | line same => exact h.readLine same fun name data data' => reads _ _ name data data' rfl rfl
  | console same =>
    refine h.push ?_
    show [Frame.lines (List.map c.line _) []] = [Frame.lines (List.map c.line _) []]
    rw [same]
  | subscribe label name same =>
    unfold World.perform
    dsimp only
    rw [h.length_callbacks]
    exact (h.addCallback label same).subscribeAs label name _
  | listenNumber label same =>
    have id : w.store.nextId = w'.store.nextId := h.read fun u => u.store.nextId
    unfold World.perform
    dsimp only
    rw [h.length_callbacks, id]
    have added := (h.addCallback label same).map
      (f := fun u => { u with store := u.store.listenNumber (.callback w'.callbacks.length) })
      fun _ _ => rfl
    exact added.relabelled fun labels =>
      { labels with listeners := labels.listeners.put label w'.store.nextId }
  | listenText label same =>
    have id : w.store.nextId = w'.store.nextId := h.read fun u => u.store.nextId
    unfold World.perform
    dsimp only
    rw [h.length_callbacks, id]
    have added := (h.addCallback label same).map
      (f := fun u => { u with store := u.store.listenText w'.callbacks.length }) fun _ _ => rfl
    exact added.relabelled fun labels =>
      { labels with listeners := labels.listeners.put label w'.store.nextId }
  | watch label sequence withinMs same =>
    unfold World.perform
    dsimp only
    rw [h.length_callbacks]
    exact (h.addCallback label same).watchAs label sequence withinMs _
  | timer label ms same =>
    unfold World.perform
    dsimp only
    rw [h.length_callbacks]
    exact (h.addCallback label same).timerAs label ms.toNat _

end Akin

end World

end RuleDispatch
