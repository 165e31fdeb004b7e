import VirtualShell.Registry.Standard
import VirtualShell.Tree.Document

/-!
# Sessions

A session owns its tree, its directory, its variables and its history. It takes one line at a time
and always answers; a failure is answered in words. The directory of a session is one that the tree
holds: a command may only move it onto an existing directory.
-/

namespace VirtualShell

/-- The state of a session. -/
structure Session where
  registry : Registry
  world : World
  /-- The lines entered so far, oldest first. -/
  history : List String
  config : Config

/-- The answer to one line. -/
structure Answer where
  output : String
  /-- The directory of the session after the line. -/
  newDirectory : String
  deriving DecidableEq

namespace Session

/-- A session on a tree. It begins in the home directory if the tree has it, and otherwise in the
root. -/
def start (root : Node) (config : Config) : Except LoadError Session := do
  let config ← config.validate
  let tree ← Filesystem.ofRoot root
  let home := Path.normalize config.home
  let cwd := if tree.isDirectory home then home else Path.root
  return ⟨.standard, ⟨cwd, tree, Variables.initial config cwd⟩, [], config⟩

/-- The history with one more line, not longer than a limit. A line equal to the last one is not
added. -/
def remember (limit : Nat) (history : List String) (line : String) : List String :=
  if history.getLast? = some line then history
  else
    let longer := history ++ [line]
    longer.drop (longer.length - limit)

/-- What commands see. -/
def environment (session : Session) (clock : String) : Environment :=
  { session.world with history := session.history, config := session.config, clock }

/-- The text for the result of a command. -/
def shown : Except CommandError Output → String
  | .ok output => output.render
  | .error error => error.message

/-- The world after a command that began in the directory `cwd`. -/
def settle (cwd : String) (world : World) : World :=
  if world.tree.isDirectory world.cwd then world else { world with cwd := cwd }

/-- Carries out a line. The line is part of the history before it is carried out. -/
def execute (session : Session) (clock line : String) : Session × Answer :=
  let line := Text.trim line
  let history :=
    if line.isEmpty then session.history
    else remember session.config.historyLimit session.history line
  let session := { session with history := history }
  let outcome := session.registry.execute (session.environment clock) line
  let world := settle session.world.cwd outcome.world
  ({ session with world := world }, ⟨shown outcome.result, world.cwd⟩)

/-- The prompt before the next line. -/
def prompt (session : Session) : String :=
  let user := session.config.user
  let host := session.config.hostname
  let cwd := session.world.cwd
  if session.config.color then s!"\x1b[1;32m{user}@{host}\x1b[0m:\x1b[1;34m{cwd}\x1b[0m$ "
  else s!"{user}@{host}:{cwd}$ "

end Session

/-- The answer as a JSON object. -/
def Answer.toJson (answer : Answer) : Json :=
  .object [("output", .text answer.output), ("newDirectory", .text answer.newDirectory)]

end VirtualShell
