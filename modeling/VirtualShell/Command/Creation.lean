import VirtualShell.Command.Arguments

/-!
# Making directories and files
-/

namespace VirtualShell

namespace Filesystem

/-- Makes a directory of each name inside the one before, beginning in `dir`. Directories that are
there stay as they are. -/
def makeChain (fs : Filesystem) (dir : String) : List String → Edited TreeError
  | [] => ⟨fs, none⟩
  | name :: rest =>
    let path := Path.join dir name
    match fs.lookup path with
    | some (.directory _) => fs.makeChain path rest
    | some (.file _ _) => ⟨fs, some (.notDirectory path)⟩
    | none =>
      match fs.insert dir name Node.emptyDirectory with
      | .ok made => made.makeChain path rest
      | .error cause => ⟨fs, some cause⟩

/-- Makes a directory and all directories above it that are missing. A path through `.` or `..` is
refused before anything is made. -/
def makeParents (fs : Filesystem) (path : String) : Edited TreeError :=
  let segments := Path.segments path
  match segments.find? Path.isDots with
  | some segment => ⟨fs, some (.badName segment)⟩
  | none => fs.makeChain Path.root segments

/-- Makes a directory whose parent is there. -/
def makeDirectory (fs : Filesystem) (path : String) : Except TreeError Filesystem :=
  match Path.splitParent path with
  | some (dir, name) => fs.insert dir name Node.emptyDirectory
  | none => .error (.occupied path)

/-- Makes an empty file unless there is something already. -/
def touch (fs : Filesystem) (path : String) : Except TreeError Filesystem :=
  if fs.has path then .ok fs
  else
    match Path.splitParent path with
    | some (dir, name) => fs.insert dir name Node.emptyFile
    | none => .ok fs

end Filesystem

namespace Command

/-- Makes the directory that one operand names. -/
def mkdirOne (parents : Bool) (env : Environment) (operand : String) : Edited CommandError :=
  let path := env.absolute operand
  let made := if parents then env.tree.makeParents path
    else .ofExcept env.tree (env.tree.makeDirectory path)
  made.inContext s!"mkdir: cannot create directory '{operand}'"

/-- Makes a directory for each operand. -/
def runMkdir (env : Environment) (args : List String) : Filesystem × Except CommandError Output :=
  let operands := operandsOf args
  if operands.isEmpty then (env.tree, .error (.missingOperand "mkdir" "operand"))
  else editAll (mkdirOne ((flagsOf args).contains 'p')) env operands

@[inherit_doc runMkdir]
def mkdir : Command where
  name := "mkdir"
  description := "make directories"
  usage := "mkdir [-p] <directory>..."
  category := "files"
  manual := some <| Text.unlines [
    "Create each DIRECTORY, if it does not already exist.",
    "-p  create missing parents; no error if the directory exists"]
  action := .edit runMkdir

/-- Makes the file that one operand names. -/
def touchOne (env : Environment) (operand : String) : Except CommandError Filesystem :=
  (env.tree.touch (env.absolute operand)).mapError
    (TreeError.inContext s!"touch: cannot touch '{operand}'")

/-- Makes an empty file for each operand that names nothing yet. -/
def runTouch (env : Environment) (args : List String) : Filesystem × Except CommandError Output :=
  let operands := operandsOf args
  if operands.isEmpty then (env.tree, .error (.missingOperand "touch" "file operand"))
  else editAll (singly touchOne) env operands

@[inherit_doc runTouch]
def touch : Command where
  name := "touch"
  description := "create empty files"
  usage := "touch <file>..."
  category := "files"
  action := .edit runTouch

end Command

end VirtualShell
