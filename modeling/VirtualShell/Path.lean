import VirtualShell.Text.Search

/-!
# Paths

A path is a text of segments between slashes. Its normal form begins with a slash, has no empty
segment and no slash at its end, except that the root is `/` alone. `ofSegments` writes normal
forms and `segments` reads any path.

The expressions `.` and `..` mean the current directory and its parent only when they stand alone.
Inside a longer path they are segments like any other, which no tree holds, so that such a path
leads nowhere.

Nothing here looks at a tree.
-/

namespace VirtualShell.Path

/-- The path of the root. -/
def root : String := "/"

/-- The non-empty segments of a path, in order. -/
def segments (path : String) : List String :=
  ((path.toList.splitOn '/').filter (! ·.isEmpty)).map String.ofList

/-- The normal form with these segments. -/
def ofSegments : List String → String
  | [] => root
  | segs => String.join (segs.map ("/" ++ ·))

/-- A segment, or a whole expression, that stands for a directory by its position. -/
def isDots (segment : String) : Bool :=
  segment == "." || segment == ".."

/-- The normal form of a path, seen from the root. -/
def normalize (path : String) : String :=
  if isDots path then root else ofSegments (segments path)

/-- What stands before the last slash, and `/` where nothing does. -/
def parent (path : String) : String :=
  match Text.cutLast '/' path.toList with
  | none => root
  | some ([], _) => root
  | some (before, _) => String.ofList before

/-- The absolute form of an expression typed in the directory `cwd`. -/
def absolute (expr cwd : String) : String :=
  if expr = "." then normalize cwd
  else if expr = ".." then parent (normalize cwd)
  else if Text.startsWith expr "/" then ofSegments (segments expr)
  else ofSegments (segments cwd ++ segments expr)

/-- The directory and the name that a path is made of; the root has none. -/
def splitParent (path : String) : Option (String × String) :=
  if path = root then none
  else (Text.cutLast '/' path.toList).map fun (before, name) =>
    (if before.isEmpty then root else String.ofList before, String.ofList name)

/-- The last segment of a path, and `/` for the root. -/
def fileName (path : String) : String :=
  match splitParent path with
  | some (_, name) => name
  | none => root

/-- The path of a name inside a directory. -/
def join (dir name : String) : String :=
  if dir = root then "/" ++ name else dir ++ "/" ++ name

/-- Whether a path is the ancestor itself or lies somewhere below it. -/
def isWithin (path ancestor : String) : Bool :=
  ancestor == root || path == ancestor || Text.startsWith path (ancestor ++ "/")

/-- A name that one segment can spell and that no position gives a meaning to. -/
def isPlain (name : String) : Bool :=
  !name.isEmpty && !isDots name && !name.toList.contains '/'

end VirtualShell.Path
