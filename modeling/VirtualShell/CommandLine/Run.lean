import VirtualShell.CommandLine.Options
import VirtualShell.Session.Basic
import VirtualShell.Tree.Document
import VirtualShell.Tree.Teaching

/-!
# Running the program

A run starts a session, gives it one line or all lines of the input, and reports. The files of the
outside world are a function from names to texts, so that a run is a function of what it is given. The
input is not a terminal, so that no prompt is written.
-/

namespace VirtualShell.CommandLine

/-- How a run ends. -/
structure Report where
  exitCode : Nat
  output : String
  /-- What went wrong, for a run that could not start. -/
  complaint : Option String := none

/-- What a run is given besides its arguments. -/
structure Surroundings where
  /-- The text of a file, if it can be read. -/
  read : String → Option String
  input : String
  clock : String

/-- Why a run cannot start. -/
inductive Failure
  | config (file : String)
  | seedUnreadable (file : String)
  | seedInvalid (file : String)
  | load (error : LoadError)

/-- The words for a failure. -/
def Failure.message : Failure → String
  | config file => s!"Error: loading config {file}"
  | seedUnreadable file => s!"Error: reading seed {file}"
  | seedInvalid file => s!"Error: parsing seed {file}"
  | load error => "Error: " ++ error.message?.getD ""

/-- The settings of a run. -/
def loadConfig (read : String → Option String) : Option String → Except Failure Config
  | none => .ok Config.usual
  | some file =>
    match read file with
    | none => .error (.config file)
    | some text => (Config.ofToml text).mapError fun _ => .config file

/-- The tree that a run starts from. -/
def loadSeed (read : String → Option String) : Option String → Except Failure Node
  | none => .ok Node.teachingTree
  | some file =>
    match read file with
    | none => .error (.seedUnreadable file)
    | some text => (Node.ofDocument text).mapError fun _ => .seedInvalid file

/-- The session of a run. -/
def startSession (options : Options) (read : String → Option String) : Except Failure Session := do
  let config ← loadConfig read options.config
  let seed ← loadSeed read options.seed
  (Session.start seed config).mapError .load

/-- What is put out for one answer. -/
def written (json : Bool) (answer : Answer) : String :=
  if json then answer.toJson.compact ++ "\n"
  else if answer.output.isEmpty then ""
  else answer.output ++ "\n"

/-- The lines that come before the one that ends a conversation. -/
def linesToExit (lines : List String) : List String :=
  lines.takeWhile fun line => Text.trim line ≠ "exit"

/-- Gives a session lines in turn: the session after them, and what is put out. -/
def converse (clock : String) (json : Bool) (session : Session) : List String → Session × String
  | [] => (session, "")
  | line :: rest =>
    let (session, answer) := session.execute clock line
    let (session, output) := converse clock json session rest
    (session, written json answer ++ output)

/-- The lines that a run carries out. -/
def linesOf (options : Options) (input : String) : List String :=
  match options.command with
  | some line => [line]
  | none => linesToExit (Text.lines input)

/-- Carries out what options ask for. -/
def carryOut (options : Options) (around : Surroundings) : Report :=
  match startSession options around.read with
  | .error failure => { exitCode := 1, output := "", complaint := some failure.message }
  | .ok session =>
    let lines := linesOf options around.input
    let (session, output) := converse around.clock options.json session lines
    let dump := if options.dump then session.world.tree.document ++ "\n" else ""
    { exitCode := 0, output := output ++ dump }

/-- The name and version of the program. -/
def versionLine : String := "shellsim 0.1.0\n"

/-- The options as they are listed in the help: how each is written, and what it is for. -/
def optionHelp : List (String × String) := [
  ("-c, --command <COMMAND>", "Run a single command line and exit"),
  ("    --seed <SEED>", "JSON seed filesystem to start from instead of the built-in tree"),
  ("    --config <CONFIG>", "TOML shell config (user, hostname, home, ...)"),
  ("    --json", "Print each result as JSON (\x7b\"output\", \"newDirectory\"\x7d)"),
  ("    --dump", "Print the final filesystem as JSON on exit"),
  ("-h, --help", "Print help"),
  ("-V, --version", "Print version")]

/-- The help. What the options are for stands in one column. -/
def helpText : String :=
  let width := (optionHelp.map (·.1.length)).foldl max 0
  let listed := optionHelp.map fun (option, purpose) =>
    "  " ++ Text.padRight width option ++ "  " ++ purpose
  Text.unlines (["A sandboxed virtual shell for learning Linux commands", "", "Usage: shellsim [OPTIONS]", "",
    "Options:"] ++ listed) ++ "\n"

/-- Runs the program. -/
def run (around : Surroundings) (args : List String) : Report :=
  match Request.ofArguments args with
  | .run options => carryOut options around
  | .help => { exitCode := 0, output := helpText }
  | .version => { exitCode := 0, output := versionLine }
  | .mistake => { exitCode := 2, output := "" }

end VirtualShell.CommandLine
