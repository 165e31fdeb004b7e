import VirtualShell.Command.Arguments

/-!
# The state of things

Who and when, what was entered, what runs, and how much the tree holds.
-/

namespace VirtualShell

namespace Node

mutual

/-- The directories at or below a node that stands at `base`, each with the bytes of all files below
it; a directory comes after those inside it. A file counts like a directory without entries. -/
def totals (base : String) : Node → List (String × Nat)
  | file content _ => [(base, content.utf8ByteSize)]
  | directory entries => totalsOf base entries ++ [(base, contentBytesOf entries)]

/-- The same for the directories among some entries. -/
def totalsOf (base : String) : List (String × Node) → List (String × Nat)
  | [] => []
  | (name, node) :: rest =>
    (if node.isDirectory then totals (Path.join base name) node else []) ++ totalsOf base rest

end

end Node

namespace Command

/-- Tells the user's name. -/
def whoami : Command where
  name := "whoami"
  description := "print effective user name"
  usage := "whoami"
  category := "system"
  action := .query fun env _ => .ok (.text env.config.user)

/-- Tells the date and time. -/
def date : Command where
  name := "date"
  description := "print the current date and time"
  usage := "date"
  category := "system"
  action := .query fun env _ => .ok (.text env.clock)

/-- Clears the screen. -/
def clear : Command where
  name := "clear"
  description := "clear the terminal screen"
  usage := "clear"
  category := "shell"
  action := .query fun _ _ => .ok .clear

/-- One line of the history after its number. -/
def historyLine : String × Nat → String
  | (line, number) => Text.padLeft 5 (toString number) ++ "  " ++ line

/-- Shows the last lines entered, all of them if no number is given. -/
def runHistory (env : Environment) (args : List String) : Except CommandError Output := do
  let count ← match args.head? with
    | none => pure env.history.length
    | some arg =>
      match Number.readCount? arg with
      | some count => pure count
      | none => throw (.refused (.badHistoryCount arg))
  let numbered := env.history.zipIdx 1
  return .text (Text.unlines ((numbered.drop (env.history.length - count)).map historyLine))

@[inherit_doc runHistory]
def history : Command where
  name := "history"
  description := "show command history"
  usage := "history [N]"
  category := "shell"
  action := .query runHistory

/-- The number of the shell among the processes. -/
def shellProcess : Nat := 1000

/-- One process. -/
def processRow (number : Nat) (name : String) : List String :=
  [toString number, "pts/0", "00:00:00", name]

/-- Lists the shell and the listing itself, whose number grows with the history. -/
def ps : Command where
  name := "ps"
  description := "report a snapshot of current processes"
  usage := "ps"
  category := "system"
  action := .query fun env _ =>
    .ok (.table ["PID", "TTY", "TIME", "CMD"]
      [processRow shellProcess "bash", processRow (shellProcess + max env.history.length 1) "ps"])

/-- Tells how much the whole tree holds. -/
def runDf (env : Environment) (_ : List String) : Except CommandError Output :=
  let usage := env.tree.usage
  .ok (.table ["Filesystem", "Files", "Dirs", "Used", "Mounted on"]
    [["vfs", toString usage.files, toString usage.directories, toString usage.bytes ++ "B", "/"]])

@[inherit_doc runDf]
def df : Command where
  name := "df"
  description := "report filesystem usage"
  usage := "df"
  category := "system"
  action := .query runDf

/-- One total. -/
def totalLine : String × Nat → String
  | (path, bytes) => toString bytes ++ "\t" ++ path

/-- Tells how much each directory below a path holds, or only the path itself. -/
def runDu (env : Environment) (args : List String) : Except CommandError Output := do
  let target := (operandsOf args).head?.getD "."
  let some node := env.resolve target | throw (.missing s!"du: cannot access '{target}'")
  let totals := if (flagsOf args).contains 's' then [(target, node.contentBytes)]
    else node.totals target
  return .text (Text.unlines (totals.map totalLine))

@[inherit_doc runDu]
def du : Command where
  name := "du"
  description := "estimate file space usage"
  usage := "du [-s] [path]"
  category := "system"
  manual := some <| Text.unlines [
    "Print the bytes of file content under each directory of PATH,",
    "deepest first, ending with PATH itself.",
    "-s  print only the total for PATH"]
  action := .query runDu

end Command

end VirtualShell
