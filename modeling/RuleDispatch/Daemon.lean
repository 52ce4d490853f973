import RuleDispatch.Config
import RuleDispatch.Rule.Document
import RuleDispatch.Service
import RuleDispatch.World.Step

/-! # The daemon

The daemon reads its settings, registers the rules of the rule document, and carries out the commands
that come from the console. It does not start when its settings or its rules cannot be read; a rule
document that is not there counts as one without rules.

* `StartError` — why it does not start.
* `Daemon.rules` — the rules of what is found where the rule document belongs.
* `Daemon.start` — the world in which they are registered.
* `Daemon.converse` — what console input shows.
* `Daemon.run` — all of it, from a folder, variables and input. -/

namespace RuleDispatch

/-- Why the daemon does **not start**. -/
inductive StartError where
  /-- There are no settings. -/
  | config (error : ConfigError)
  /-- The rule document is there but is no text. -/
  | rulesUnreadable
  /-- The rule document is none, for this reason. -/
  | rulesMalformed (reason : String)
deriving DecidableEq, Repr

/-- The wording of an error. -/
def StartError.message : StartError → String
  | config error => error.message
  | rulesUnreadable => "failed to read rule definitions"
  | rulesMalformed reason => Batch.invalidMessage ++ ": " ++ reason

namespace Daemon

/-- The **rules** of what is found where the rule document belongs. -/
def rules : Found → Except StartError (List Rule)
  | .missing => .ok []
  | .unreadable => .error .rulesUnreadable
  | .text content =>
    match Batch.read content with
    | .ok batch => .ok batch.rules
    | .error fault => .error (.rulesMalformed (fault.message content.toList))

/-- The world in which rules are **registered**. -/
def start (wallClock : Timestamp) (rules : List Rule) : World :=
  (World.empty wallClock).registerAll rules

/-- What **console input shows**, line by line. -/
def converse (w : World) (input : List UInt8) : List String :=
  match (w.play Service.executor (.operation (.console input))).answer with
  | .console output _ => output
  | _ => []

/-- The daemon **from start to end of input**: what it shows, or why it does not start. -/
def run (wallClock : Timestamp) (folder : Folder) (environment : Keyed String)
    (input : List UInt8) : Except StartError (List String) := do
  let config ← (Config.load (folder.find Config.documentName) environment).mapError .config
  let w := start wallClock (← rules (folder.find config.rulesPath))
  return if config.console then converse w input else []

/-- The code with which the daemon **exits**. -/
def exitCode {α : Type} : Except StartError α → UInt8
  | .ok _ => 0
  | .error _ => 1

/-- A rule document that is not there is one without rules. -/
@[simp] theorem rules_missing : rules .missing = .ok [] := rfl

end Daemon

end RuleDispatch
