import RuleDispatch.Files
import RuleDispatch.Text.Blank
import RuleDispatch.Toml.Reader

/-! # Configuration

Three settings: where the rules are, which notes are shown, and whether commands are taken from the
console. They come from a settings document, if there is one, and from variables, which override it.

* `Config` — the settings, with their defaults.
* `Config.ofEntries?` — the settings of a document.
* `Config.override` — the settings with those that variables give.
* `Config.load` — all of it, or a `ConfigError`. -/

namespace RuleDispatch

/-- The **settings**. -/
structure Config where
  /-- The path of the rule document. -/
  rulesPath : String := "rules.json"
  /-- Which notes are shown. -/
  filter : String := "tripwired=info,tripwire=info"
  /-- Whether commands are taken from the console. -/
  console : Bool := true
deriving DecidableEq, Repr

/-- Why there are **no settings**. -/
inductive ConfigError where
  /-- The document is none, or a setting is of the wrong kind. -/
  | malformed
  /-- The document is there but is no text. -/
  | unreadable
  /-- The path of the rule document is blank. -/
  | noRulesPath
deriving DecidableEq, Repr

/-- The wording of an error. -/
def ConfigError.message : ConfigError → String
  | malformed => "failed to parse config file"
  | unreadable => "failed to read config file"
  | noRulesPath => "invalid configuration: rules path must not be empty"

namespace Setting

/-- The text that a value is. -/
def asText? : Setting → Option String
  | .text s => some s
  | _ => none

/-- The truth value that a value is. -/
def asFlag? : Setting → Option Bool
  | .flag b => some b
  | _ => none

/-- The **one field of a section**, with its default. A section is a table, in which other fields do
not matter, or a list, whose first item is the field. A moment counts as a table without the field. -/
def onlyField? {α : Type} (name : String) (default : α) (decode : Setting → Option α) :
    Setting → Option α
  | .table _ entries =>
    match entries.lookup name with
    | some value => decode value
    | none => some default
  | .list items =>
    match items with
    | value :: _ => decode value
    | [] => some default
  | .tables items =>
    match items with
    | entries :: _ => decode (.table .header entries)
    | [] => some default
  | .moment _ => some default
  | _ => none

end Setting

namespace Config

/-! ## 1. Documents -/

/-- The field of a section of a document, if the document has the section. -/
def fieldOf? {α : Type} (entries : Entries) (sectionName name : String) (default : α)
    (decode : Setting → Option α) : Option α :=
  match entries.lookup sectionName with
  | some value => value.onlyField? name default decode
  | none => some default

/-- The **settings of a document**. -/
def ofEntries? (entries : Entries) : Option Config := do
  let defaults : Config := {}
  return {
    rulesPath := ← fieldOf? entries "rules" "path" defaults.rulesPath Setting.asText?
    filter := ← fieldOf? entries "logging" "filter" defaults.filter Setting.asText?
    console := ← fieldOf? entries "console" "enabled" defaults.console Setting.asFlag? }

/-- The name of the settings document. -/
def documentName : String :=
  "tripwire.toml"

/-- The settings of what is found where the document belongs. -/
def ofFound : Found → Except ConfigError Config
  | .missing => .ok {}
  | .unreadable => .error .unreadable
  | .text content =>
    match (Setting.read? content).bind ofEntries? with
    | some config => .ok config
    | none => .error .malformed

/-! ## 2. Variables -/

/-- The variables that override settings. Of the two for the filter, the last one counts. -/
def rulesVariable : String := "TRIPWIRE_RULES"

@[inherit_doc rulesVariable]
def consoleVariable : String := "TRIPWIRE_CONSOLE"

@[inherit_doc rulesVariable]
def filterVariables : List String := ["TRIPWIRE_LOG", "RUST_LOG"]

/-- A truth value **written as a word**, in letters of any case. -/
def readFlag? (written : String) : Option Bool :=
  let word := String.ofList ((Text.trim written.toList).map Char.toLower)
  if word ∈ ["1", "true", "yes", "on"] then some true
  else if word ∈ ["0", "false", "no", "off"] then some false
  else none

/-- The settings with those **that variables give**. A word that is no truth value gives nothing. -/
def override (environment : Keyed String) (c : Config) : Config where
  rulesPath := (environment.lookup rulesVariable).getD c.rulesPath
  filter := (filterVariables.reverse.findSome? (environment.lookup ·)).getD c.filter
  console := ((environment.lookup consoleVariable).bind readFlag?).getD c.console

/-! ## 3. All of it -/

/-- The settings, unless they cannot be meant. -/
def validate (c : Config) : Except ConfigError Config :=
  if Text.trim c.rulesPath.toList = [] then .error .noRulesPath else .ok c

/-- The settings **from a document and variables**. -/
def load (document : Found) (environment : Keyed String) : Except ConfigError Config := do
  validate ((← ofFound document).override environment)

/-- Where nothing is set, the defaults hold. -/
theorem load_missing_nil : load .missing [] = .ok {} := by
  have h : Text.trim "rules.json".toList ≠ [] := by decide
  change validate {} = _
  simp only [validate, h, if_false]

end Config

end RuleDispatch
