import VirtualShell.Command.Arguments

/-!
# Searching for entries by name
-/

namespace VirtualShell.Command

/-- The kinds of entry that a search is limited to. -/
inductive EntryKind
  | file
  | directory
  deriving DecidableEq

/-- Whether a node is of a kind; without a kind, every node is. -/
def EntryKind.accepts : Option EntryKind → Node → Bool
  | none, _ => true
  | some directory, node => node.isDirectory
  | some file, node => !node.isDirectory

/-- The pattern that follows `-name`, and whether `-name` is the first argument. -/
def searchPattern (args : List String) : Except CommandError (String × Bool) := do
  let usage := CommandError.usage "Usage: find [path] -name [pattern]"
  let some position := args.idxOf? "-name" | throw usage
  let some pattern := args[position + 1]? | throw usage
  return (pattern, position = 0)

/-- The kind that follows `-type`. -/
def searchKind (args : List String) : Except CommandError (Option EntryKind) :=
  match args.idxOf? "-type" with
  | none => .ok none
  | some position =>
    match args[position + 1]? with
    | some "f" => .ok (some .file)
    | some "d" => .ok (some .directory)
    | some argument => .error (.refused (.unknownKind argument))
    | none => .error (.refused .noKind)

mutual

/-- The paths, written from `base` on, of the entries below a node that are of a kind and whose names
contain a pattern. -/
def search (base : String) (node : Node) (pattern : String) (kind : Option EntryKind) :
    List String :=
  match node with
  | .file _ _ => []
  | .directory entries => searchEntries base entries pattern kind

/-- The same for the given entries of a directory and what is below them. -/
def searchEntries (base : String) (entries : List (String × Node)) (pattern : String)
    (kind : Option EntryKind) : List String :=
  match entries with
  | [] => []
  | (name, node) :: rest =>
    let path := Path.join base name
    let further := search path node pattern kind ++ searchEntries base rest pattern kind
    if Text.contains name pattern && EntryKind.accepts kind node then path :: further else further

end

/-- Lists the entries below a directory whose names contain a pattern, stars in the pattern aside.
-/
def runFind (env : Environment) (args : List String) : Except CommandError Output := do
  let (pattern, namedFirst) ← searchPattern args
  let kind ← searchKind args
  let start :=
    match args.head? with
    | some first => if namedFirst || Text.startsWith first "-" then env.cwd else first
    | none => env.cwd
  let some node := env.resolve start | throw (.missing s!"find: '{start}'")
  let literal := String.ofList (pattern.toList.filter (· ≠ '*'))
  return .text (Text.unlines (search start node literal kind))

@[inherit_doc runFind]
def find : Command where
  name := "find"
  description := "search for files in a directory hierarchy"
  usage := "find [path] -name <pattern> [-type f|d]"
  category := "files"
  manual := some <| Text.unlines [
    "List every entry below PATH (default: the current directory)",
    "whose name contains PATTERN. '*' characters in PATTERN are ignored.",
    "-type f  only files",
    "-type d  only directories"]
  action := .query runFind

end VirtualShell.Command
