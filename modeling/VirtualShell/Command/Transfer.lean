import VirtualShell.Command.Arguments

/-!
# Copying and moving

Both commands put one node in another place. The place is planned first, and nothing is changed
until the plan stands. An existing directory as destination takes the node in under its own name; an
existing file is replaced, but only by a file.

The tree is then changed in place, step by step: a move takes the source out, a file that is replaced
is taken out, and the node is put in. No step is undone if a later one fails.
-/

namespace VirtualShell.Command

/-- Whether the source stays. -/
inductive Transfer
  | copy
  | move

namespace Transfer

/-- The command that a transfer is asked for with. -/
def name : Transfer → String
  | copy => "cp"
  | move => "mv"

/-- The refusal to put a directory into itself. -/
def intoItself (source destination : String) : Transfer → Refusal
  | copy => .copyIntoItself source destination
  | move => .moveIntoItself source destination

/-- Who complains about what if the tree cannot be changed as planned. -/
def context (source destination : String) : Transfer → String
  | copy => s!"cp: cannot create '{destination}'"
  | move => s!"mv: cannot move '{source}' to '{destination}'"

end Transfer

/-- Where a node will be put. -/
structure Destination where
  parent : String
  name : String
  target : String
  /-- There is a file, which will be replaced. -/
  replaces : Bool

/-- The path at which the destination puts what stands at `source`. -/
def targetOf (env : Environment) (source destination : String) : String :=
  let path := env.absolute destination
  if env.tree.isDirectory path then Path.join path (Path.fileName source) else path

/-- Refuses a parent that is not a directory. -/
def checkParent (tree : Filesystem) (context parent : String) : Except CommandError Unit :=
  match tree.lookup parent with
  | none => .error (.missing context)
  | some (.file _ _) => .error (.notDirectory context)
  | some (.directory _) => .ok ()

/-- Whether a file stands at the target, which will be replaced. A directory is never replaced, and
neither is a file by a directory. -/
def checkTarget (tree : Filesystem) (transfer : Transfer) (source destination target : String)
    (isDirectory : Bool) : Except CommandError Bool :=
  match tree.lookup target, isDirectory with
  | none, _ => .ok false
  | some (.directory _), true => .error (.refused (.replaceDirectory transfer.name destination))
  | some (.directory _), false =>
    .error (.refused (.replaceDirectoryByFile transfer.name destination))
  | some (.file _ _), true =>
    .error (.refused (.replaceFileByDirectory transfer.name source destination))
  | some (.file _ _), false => .ok true

/-- Plans where to put a node, looking at the tree and leaving it as it is. -/
def planDestination (env : Environment) (transfer : Transfer) (source destination path : String)
    (isDirectory : Bool) : Except CommandError Destination :=
  let target := targetOf env path destination
  if target = path then .error (.refused (.sameFile transfer.name source destination))
  else if isDirectory && Path.isWithin target path then
    .error (.refused (transfer.intoItself source destination))
  else
    match Path.splitParent target with
    | none => .error (.refused (.replaceDirectory transfer.name destination))
    | some (parent, name) =>
      let kind := if isDirectory then "directory" else "regular file"
      let context := s!"{transfer.name}: cannot create {kind} '{destination}'"
      if Path.isDots name then .error (.refused (.badName context))
      else do
        checkParent env.tree context parent
        let replaces ← checkTarget env.tree transfer source destination target isDirectory
        return ⟨parent, name, target, replaces⟩

/-- The two operands of a transfer. -/
def sourceAndDestination (transfer : Transfer) (args : List String) :
    Except CommandError (String × String) :=
  match operandsOf args with
  | [] => .error (.missingOperand transfer.name "file operand")
  | [_] => .error (.missingOperand transfer.name "destination file operand")
  | source :: destination :: _ => .ok (source, destination)

/-- Everything that a transfer has to know before it changes the tree. -/
structure Plan where
  /-- Where the source stands. -/
  path : String
  node : Node
  destination : Destination
  context : String

/-- Refuses to move the root, the current directory and those above it. A copy moves nothing. -/
def checkSource (env : Environment) (source path : String) : Transfer → Except CommandError Unit
  | .copy => .ok ()
  | .move =>
    if path = Path.root || Path.isWithin env.cwd path then
      .error (.refused (.busy s!"mv: cannot move '{source}'"))
    else .ok ()

/-- Plans a transfer, looking at the tree and leaving it as it is. -/
def planTransfer (transfer : Transfer) (env : Environment) (args : List String) :
    Except CommandError Plan := do
  let (source, destination) ← sourceAndDestination transfer args
  let path := env.absolute source
  let some node := env.tree.lookup path
    | throw (.missing s!"{transfer.name}: cannot stat '{source}'")
  checkSource env source path transfer
  let planned ← planDestination env transfer source destination path node.isDirectory
  return ⟨path, node, planned, transfer.context source destination⟩

/-- Puts a node into a planned place. -/
def place (tree : Filesystem) (destination : Destination) (node : Node) : Edited TreeError :=
  let cleared := if destination.replaces then (tree.remove destination.target).map (·.2)
    else .ok tree
  match cleared with
  | .ok tree => .ofExcept tree (tree.insert destination.parent destination.name node)
  | .error cause => ⟨tree, some cause⟩

/-- Changes the tree as planned. -/
def carryOut (tree : Filesystem) (plan : Plan) : Transfer → Edited TreeError
  | .copy => place tree plan.destination plan.node
  | .move =>
    match tree.remove plan.path with
    | .ok (node, tree) => place tree plan.destination node
    | .error cause => ⟨tree, some cause⟩

/-- Copies or moves a node to a place. -/
def runTransfer (transfer : Transfer) (env : Environment) (args : List String) :
    Filesystem × Except CommandError Output :=
  match planTransfer transfer env args with
  | .error error => (env.tree, .error error)
  | .ok plan =>
    let edited := (carryOut env.tree plan transfer).inContext plan.context
    match edited.failure with
    | some error => (edited.tree, .error error)
    | none => (edited.tree, .ok .nothing)

/-- Copies a node to a place. -/
def cp : Command where
  name := "cp"
  description := "copy files and directories"
  usage := "cp <source> <dest>"
  category := "files"
  manual := some <| Text.unlines [
    "Copy SOURCE to DEST. Directories are copied with all their contents.",
    "If DEST is an existing directory the copy is placed inside it."]
  action := .edit (runTransfer .copy)

/-- Moves a node to a place. The root, the current directory and those above it stay. -/
def mv : Command where
  name := "mv"
  description := "move or rename files"
  usage := "mv <source> <dest>"
  category := "files"
  action := .edit (runTransfer .move)

end VirtualShell.Command
