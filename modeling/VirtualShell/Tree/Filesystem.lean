import VirtualShell.Text.Quoted
import VirtualShell.Tree.Walk

/-!
# File systems

A file system is a root node, addressed by textual paths. Empty segments of a path do not count, and
a path with a `.` or `..` segment leads nowhere, whatever the tree holds.

A single edit either succeeds with a new file system or gives its cause of failure, and then there is
no new file system. An edit made of several steps is `Edited` in place: what was done before a failure
stays done, so that a failure may leave something behind.
-/

namespace VirtualShell

/-- Why an edit of a tree is impossible. -/
inductive TreeError
  | missing (path : String)
  | notDirectory (path : String)
  | occupied (path : String)
  | badName (name : String)

/-- The text of a cause. -/
def TreeError.message : TreeError → String
  | missing path => s!"no such file or directory: {path}"
  | notDirectory path => s!"not a directory: {path}"
  | occupied path => s!"already exists: {path}"
  | badName name => "invalid name: " ++ Text.quoted name

/-- A tree with its root. -/
structure Filesystem where
  root : Node
  deriving DecidableEq

/-- How an edit in place ends: the tree as it is then, and the failure if there was one. -/
structure Edited (ε : Type) where
  tree : Filesystem
  failure : Option ε

/-- A single edit in place. If it fails, the tree is as it was. -/
def Edited.ofExcept {ε : Type} (before : Filesystem) : Except ε Filesystem → Edited ε
  | .ok after => ⟨after, none⟩
  | .error failure => ⟨before, some failure⟩

/-- How many directories and files a tree holds, and the bytes of the files. -/
structure Usage where
  directories : Nat
  files : Nat
  bytes : Nat

namespace Filesystem

/-- The file system that holds nothing but its root directory. -/
def empty : Filesystem := ⟨Node.emptyDirectory⟩

/-- The node at a path. -/
def lookup (fs : Filesystem) (path : String) : Option Node :=
  let segments := Path.segments path
  if segments.any Path.isDots then none else fs.root.descend segments

/-- The node that an expression typed in the directory `cwd` stands for; the empty expression stands
for nothing. -/
def resolve (fs : Filesystem) (expr cwd : String) : Option Node :=
  if expr.isEmpty then none else fs.lookup (Path.absolute expr cwd)

/-- Whether a path leads anywhere. -/
def has (fs : Filesystem) (path : String) : Bool :=
  (fs.lookup path).isSome

/-- Whether a path leads to a directory. -/
def isDirectory (fs : Filesystem) (path : String) : Bool :=
  match fs.lookup path with
  | some node => node.isDirectory
  | none => false

/-- The file system in which the node at a path is overwritten; without one, nothing changes. -/
def overwrite (fs : Filesystem) (path : String) (node : Node) : Filesystem :=
  let segments := Path.segments path
  if segments.any Path.isDots then fs else ⟨fs.root.replaceAt segments node⟩

/-- Adds a node under a new name to the directory `dir`. -/
def insert (fs : Filesystem) (dir name : String) (node : Node) : Except TreeError Filesystem :=
  if !Path.isPlain name then .error (.badName name)
  else
    match fs.lookup dir with
    | none => .error (.missing dir)
    | some (.file _ _) => .error (.notDirectory dir)
    | some (.directory entries) =>
      if (entries.lookup name).isSome then .error (.occupied (Path.join dir name))
      else .ok (fs.overwrite dir (.directory (Entries.place name node entries)))

/-- Takes out the node at a path, which is returned beside the new file system. The root stays. -/
def remove (fs : Filesystem) (path : String) : Except TreeError (Node × Filesystem) :=
  match Path.splitParent path with
  | none => .error (.badName path)
  | some (dir, name) =>
    match fs.lookup dir with
    | some (.directory entries) =>
      match entries.lookup name with
      | some node => .ok (node, fs.overwrite dir (.directory (Entries.erase name entries)))
      | none => .error (.missing path)
    | _ => .error (.missing path)

/-- Everything strictly below a path. -/
def walk (fs : Filesystem) (path : String) : List Visit :=
  match fs.lookup path with
  | some node => node.walk path
  | none => []

/-- Counts one more node. -/
def Usage.add (usage : Usage) : Node → Usage
  | .directory _ => { usage with directories := usage.directories + 1 }
  | .file content _ =>
    { usage with files := usage.files + 1, bytes := usage.bytes + content.utf8ByteSize }

/-- What the whole tree holds, the root being one of its directories. -/
def usage (fs : Filesystem) : Usage :=
  (fs.walk Path.root).foldl (fun usage visit => Usage.add usage visit.node) ⟨1, 0, 0⟩

end Filesystem

end VirtualShell
