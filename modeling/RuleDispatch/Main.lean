import RuleDispatch.Daemon

/-! # The command line

The daemon with real files, variables, input and time. Commands are carried out as they come. Between
two of them the world catches up with the clock; nothing shows before the next command, so that it
need not do so earlier. What commands show goes to standard output, notes go to standard error. -/

namespace RuleDispatch.CommandLine

/-- What stands under a path on disk. -/
def findOnDisk (path : String) : IO Found := do
  try
    return .ofBytes (← IO.FS.readBinFile path)
  catch
    | .noFileOrDirectory .. => return .missing
    | _ => return .unreadable

/-- The variables that are set, of those that matter. -/
def readEnvironment : IO (Keyed String) := do
  let names := Config.rulesVariable :: Config.consoleVariable :: Config.filterVariables
  names.filterMapM fun name => return (← IO.getEnv name).map fun value => (name, value)

/-- The notes of the world shown, unless the filter turns them off. -/
def showNotes (config : Config) (w : World) : IO Unit := do
  if config.filter ≠ "off" then
    for (_, entry) in w.log.reverse do
      if let .note n := entry then IO.eprintln n.text

/-- Something from outside taken up, the notes of before put away. -/
def play (config : Config) (w : World) (s : Stimulus) : IO World := do
  let w := { w with log := [] }.play Service.executor s
  showNotes config w
  return w

/-- The world after the time that passed since it was left. -/
def catchUp (config : Config) (start : Nat) (w : World) : IO World := do
  let now ← IO.monoMsNow
  play config { w with wallClock := Timestamp.ofMillis now } (.advance (now - start - w.now))

/-- One line carried out, and what it shows printed. -/
def carryOut (config : Config) (w : World) (line : String) : IO World := do
  let w ← play config w (.operation (.line line))
  if let .shown (some output) := w.answer then
    IO.println output
    (← IO.getStdout).flush
  return w

/-- Commands carried out as they come, until there are no more. -/
partial def serve (config : Config) (start : Nat) (w : World) : IO Unit := do
  let line ← (← IO.getStdin).getLine
  if line.isEmpty then return
  let w ← catchUp config start w
  match Console.readLines line.toUTF8.toList with
  | [some text] => serve config start (← carryOut config w text)
  | _ => serve config start w

/-- The daemon without input, until it is interrupted. -/
partial def rest : IO Unit := do
  IO.sleep 60000
  rest

/-- The daemon started, or why it does not start. -/
def launch : IO (Except StartError (Config × World)) := do
  match Config.load (← findOnDisk Config.documentName) (← readEnvironment) with
  | .error e => return .error (.config e)
  | .ok config =>
    let now ← IO.monoMsNow
    return (Daemon.rules (← findOnDisk config.rulesPath)).map fun rules =>
      (config, Daemon.start (Timestamp.ofMillis now) rules)

end RuleDispatch.CommandLine

/-- The daemon: it runs until it is interrupted. -/
def main : IO UInt32 := do
  match ← RuleDispatch.CommandLine.launch with
  | .error e =>
    IO.eprintln e.message
    return 1
  | .ok (config, w) =>
    RuleDispatch.CommandLine.showNotes config w
    if config.console then RuleDispatch.CommandLine.serve config (← IO.monoMsNow) w
    RuleDispatch.CommandLine.rest
    return 0
