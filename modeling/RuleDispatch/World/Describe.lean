import RuleDispatch.Text.Quoted
import RuleDispatch.World.Basic

/-! # The world shown to a person

Each part of the world has a short text that shows what it holds: the names that are heard on the
bus, the values of the store, the rules of the engine.

* `World.describe` — the text of a part, if it is there. -/

namespace RuleDispatch

/-- A list as text. -/
def describeList (items : List String) : String :=
  "[" ++ ", ".intercalate items ++ "]"

/-- A record as text: its kind and what it holds. -/
def describeRecord (kind : String) (fields : List String) : String :=
  kind ++ " \x7b " ++ ", ".intercalate fields ++ " \x7d"

/-- A table as text. -/
def describeTable {α : Type} (shownAs : α → String) (table : Keyed α) : String :=
  "\x7b" ++ ", ".intercalate (table.map fun (key, value) =>
    Text.quoteShown key ++ ": " ++ shownAs value) ++ "\x7d"

/-- A watcher as text. -/
def describeWatcher (disposed : Bool) : String :=
  describeRecord "PatternSequenceWatcher" ["disposed: " ++ Note.flag disposed, ".."]

namespace World

/-- The bus as text. -/
def describeBus (w : World) : String :=
  describeRecord "EventBus" ["channels: " ++ describeList (w.bus.channels.map Text.quoteShown)]

/-- The store as text. -/
def describeStore (w : World) : String :=
  describeRecord "EntityStore"
    ["numbers: " ++ describeTable Decimal.Layout.shown.text w.store.numbers,
      "strings: " ++ describeTable Text.quoteShown w.store.texts,
      "listeners: " ++ toString w.store.listenerCount]

/-- The engine as text. -/
def describeEngine (rules : Keyed Nat) : String :=
  let ids := rules.map fun entry => "RuleId(" ++ Text.quoteShown entry.1 ++ ")"
  describeRecord "RuleEngine" ["rules: " ++ describeList ids, ".."]

/-- A **part of the world as text**; the engine may be gone. -/
def describe (w : World) : Part → Option String
  | .bus => some w.describeBus
  | .store => some w.describeStore
  | .engine => w.engine.map describeEngine

end World

end RuleDispatch
