import RuleDispatch.Proofs.Dispatch.Rounds

/-! # Emissions and the bus

An emission calls those who are subscribed to its name at the moment it begins: each subscription once,
in the order in which they were made, whatever the handlers do to the bus in the meantime. What they do
is done to the bus at once, in the order in which it is done, and is heard of from the next emission on,
be it one that a handler begins.

* `World.emission_calls_snapshot` — whom one emission calls, at any point of any history.
* `World.nested_emission_calls` — the same of an emission inside another. -/

namespace RuleDispatch

namespace World

/-- **One emission, at any point of any history**. The bus is that of the beginning with every
subscription made and taken back on the way, in order; the emission calls exactly those that are
subscribed to its name by then, each once and in order, with the event; and the bus afterwards, as long
as the emission goes on and later, is this one with what is made and taken back from then on. -/
theorem emission_calls_snapshot (exec : Executor) (w : World) (past : List Move) (event : Event)
    (emits : (w.after exec past).notice? = some (.event event)) :
    let bus := (w.editsDone exec past).foldl Bus.edit w.bus
    let begun := (w.after exec past).step exec
    (w.after exec past).bus = bus
      ∧ (∃ base, Round exec base begun
          ((bus.subscribers.filter (·.name = event.name)).map fun s => .event event s.handler))
      ∧ ∀ during, (begun.after exec during).bus
          = (begun.editsDone exec during).foldl Bus.edit bus := by
  intro bus begun
  have now : (w.after exec past).bus = bus := (edited_after exec w past).bus
  obtain ⟨base, round⟩ := round_of_notice exec emits
  refine ⟨now, ⟨base, ?_⟩, fun during => ?_⟩
  · have calls : (Notice.event event).calls (w.after exec past).bus (w.after exec past).store
        = (bus.subscribers.filter (·.name = event.name)).map fun s => .event event s.handler := by
      rw [Notice.calls, now, Bus.handlers, List.map_map]
      rfl
    exact calls ▸ round
  · -- to give the notice is no edit
    have still : begun.bus = (w.after exec past).bus := by
      have step := edited_step exec (w.after exec past)
      rw [edits_of_notice emits] at step
      exact step.bus
    rw [(edited_after exec begun during).bus, still, now]

/-- A handler that takes another one back, subscribes a third one and emits the event once more. -/
def rearranging : List Operation :=
  [.unsubscribe "second" none, .subscribe "third" "ping" ⟨[], 0⟩, .emit "ping" (some .first) .null]

/-- Both handlers are called that were subscribed when the event was emitted, though the first one
takes the second one back; the emission inside calls the first and the third one. -/
theorem nested_emission_calls :
    let past := Move.played (.operation (.subscribe "first" "ping" ⟨rearranging, 1⟩)) 1
      ++ Move.played (.operation (.subscribe "second" "ping" ⟨[], 0⟩)) 1
      ++ [.receive (.operation (.emit "ping" (some .first) .null))]
    let during := List.replicate 6 .step
    let w := World.empty .first
    let ping : Event := ⟨"ping", .first, .null⟩
    (∃ base, Round noEffects base ((w.after noEffects past).step noEffects)
        [.event ping (.target (.callback 0)), .event ping (.target (.callback 1))])
      ∧ ∃ base, Round noEffects base ((w.after noEffects (past ++ during)).step noEffects)
        [.event ping (.target (.callback 0)), .event ping (.target (.callback 2))] := by
  intro past during w ping
  have outer := emission_calls_snapshot noEffects w past ping rfl
  have inner := emission_calls_snapshot noEffects w (past ++ during) ping rfl
  have before : ((w.editsDone noEffects past).foldl Bus.edit w.bus).subscribers
      = [⟨"ping", 0, .target (.callback 0)⟩, ⟨"ping", 1, .target (.callback 1)⟩] := rfl
  have later : ((w.editsDone noEffects (past ++ during)).foldl Bus.edit w.bus).subscribers
      = [⟨"ping", 0, .target (.callback 0)⟩, ⟨"ping", 2, .target (.callback 2)⟩] := rfl
  dsimp only at outer inner
  rw [before] at outer
  rw [later] at inner
  exact ⟨outer.2.1, inner.2.1⟩

end World

end RuleDispatch
