import VirtualShell.Command.Arguments

/-!
# Removing files and directories

The root, the current directory and the directories above it are never removed, and neither is an
operand that ends in `.` or `..`.
-/

namespace VirtualShell.Command

/-- How far a removal may go. -/
structure Removal where
  /-- Directories are removed with all they hold. -/
  recursive : Bool
  /-- An operand that names nothing is no failure. -/
  force : Bool

/-- The last segment of an operand as it was typed, slashes at its end aside. -/
def lastTyped (operand : String) : String :=
  let trimmed := Text.dropEndWhile (· == '/') operand.toList
  match Text.cutLast '/' trimmed with
  | some (_, last) => String.ofList last
  | none => String.ofList trimmed

/-- Removes what one operand names. -/
def removeOne (removal : Removal) (env : Environment) (operand : String) :
    Except CommandError Filesystem :=
  let context := s!"rm: cannot remove '{operand}'"
  let path := env.absolute operand
  if Path.isDots (lastTyped operand) then .error (.refused (.removeDots operand))
  else
    match env.tree.lookup path with
    | none => if removal.force then .ok env.tree else .error (.missing context)
    | some node =>
      if node.isDirectory && !removal.recursive then .error (.isDirectory context)
      else if path = Path.root then .error (.refused .removeRoot)
      else if Path.isWithin env.cwd path then .error (.refused (.busy context))
      else ((env.tree.remove path).map (·.2)).mapError (TreeError.inContext context)

/-- Removes what each operand names. -/
def runRm (env : Environment) (args : List String) : Filesystem × Except CommandError Output :=
  let flags := flagsOf args
  let operands := operandsOf args
  if operands.isEmpty then (env.tree, .error (.missingOperand "rm" "operand"))
  else
    let removal : Removal :=
      { recursive := flags.contains 'r' || flags.contains 'R', force := flags.contains 'f' }
    editAll (singly (removeOne removal)) env operands

@[inherit_doc runRm]
def rm : Command where
  name := "rm"
  description := "remove files or directories"
  usage := "rm [-r] [-f] <file>..."
  category := "files"
  manual := some <| Text.unlines [
    "Remove each FILE.",
    "-r  remove directories and their contents recursively",
    "-f  ignore nonexistent files"]
  action := .edit runRm

end VirtualShell.Command
