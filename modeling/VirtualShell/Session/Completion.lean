import VirtualShell.Session.Basic

/-!
# Completing a half-typed line

The first word of a line is completed to the name of a command. The last word after a command that
takes paths is completed to an entry of the directory that the word names up to its last slash; a
directory gets a slash at its end. Words are what stands between single spaces.
-/

namespace VirtualShell.Session

/-- The greatest number of suggestions. -/
def mostCompletions : Nat := 10

/-- The commands whose arguments are completed as paths. -/
def pathCommands : List String :=
  ["cd", "ls", "cat", "rm", "cp", "mv", "touch", "mkdir"]

/-- The part of a word up to its last slash, and the rest. -/
def splitWord (word : String) : String × String :=
  match Text.cutLast '/' word.toList with
  | some (before, behind) => (String.ofList (before ++ ['/']), String.ofList behind)
  | none => ("", word)

/-- The directory in which a word is completed, given its part up to the last slash. -/
def completionDirectory (session : Session) (typed : String) : Option Node :=
  let tree := session.world.tree
  if typed.isEmpty then tree.lookup session.world.cwd
  else
    let expanded := match Text.dropStart? "~/" typed with
      | some rest => session.config.home ++ "/" ++ rest
      | none => typed
    tree.resolve expanded session.world.cwd

/-- Whether an entry is suggested for the beginning of its name. A hidden entry is only suggested
for a beginning that shows its dot. -/
def isSuggested (start name : String) : Bool :=
  Text.startsWith name start && (Text.startsWith start "." || !Text.startsWith name ".")

/-- The suggestions for a word that is a path. -/
def completePath (session : Session) (word : String) : List String :=
  let (typed, start) := splitWord word
  match (session.completionDirectory typed).bind Node.entries? with
  | none => []
  | some entries =>
    let suggested := entries.filter fun (name, _) => isSuggested start name
    (suggested.take mostCompletions).map fun (name, node) =>
      typed ++ name ++ (if node.isDirectory then "/" else "")

/-- The suggestions for a line. -/
def complete (session : Session) (line : String) : List String :=
  match (line.toList.splitOn ' ').map String.ofList with
  | [] | [""] => []
  | [word] => (session.registry.completions word).take mostCompletions
  | command :: rest =>
    if pathCommands.contains command then
      match rest.getLast? with
      | some word => session.completePath word
      | none => []
    else []

end VirtualShell.Session
