import VirtualShell.Json.Printer
import VirtualShell.Json.Reader
import VirtualShell.LoadError
import VirtualShell.Tree.Filesystem

/-!
# Trees as documents

A node is written as an object whose `type` says what it is. A file has its `content` and, if one
was recorded, its `mode`; a directory has its `children`, an object with a member for each entry.

Reading is more liberal than writing. Members of no concern to the kind of node are skipped, a
missing content is empty and missing children are none. A node may also be an array that begins with
its type. Below the root the two types may be given by number.

A whole document is a root directory, as it is or as the only member, named `/`, of an object.
-/

namespace VirtualShell

namespace Node

/-- The two types of node. -/
inductive Kind
  | file
  | directory

/-- The type that a value names; numbers count only below the root. -/
def Kind.ofJson? (belowRoot : Bool) : Json → Option Kind
  | .scalar (.text "file") => some file
  | .scalar (.text "directory") => some directory
  | .scalar (.number literal) =>
    if belowRoot then
      match literal with
      | "0" => some file
      | "1" => some directory
      | _ => none
    else none
  | _ => none

mutual

/-- The document of a node. -/
def toJson : Node → Json
  | file content none => .object [("type", .text "file"), ("content", .text content)]
  | file content (some mode) =>
    .object [("type", .text "file"), ("content", .text content), ("mode", .text mode)]
  | directory entries =>
    .object [("type", .text "directory"), ("children", .object (entriesToJson entries))]

/-- The members for the entries of a directory. -/
def entriesToJson : List (String × Node) → List (String × Json)
  | [] => []
  | (name, node) :: rest => (name, toJson node) :: entriesToJson rest

end

/-- The content that a file is given: empty if there is none, and otherwise a text. -/
def contentOfJson? : Option Json → Option String
  | none => some ""
  | some value => value.text?

/-- The mode that a file is given: none if there is none, or a text. -/
def modeOfJson? : Option Json → Option (Option String)
  | none => some none
  | some (.scalar .null) => some none
  | some value => value.text?.map some

/-- The file with a content and a mode, each of them perhaps left out. -/
def fileOfJson? (content mode : Option Json) : Option Node := do
  return file (← contentOfJson? content) (← modeOfJson? mode)

/-- The file that the items after its type describe. -/
def fileOfItems? : List Json → Option Node
  | [] => fileOfJson? none none
  | [content] => fileOfJson? (some content) none
  | [content, mode] => fileOfJson? (some content) (some mode)
  | _ => none

mutual

/-- The node that a document describes. -/
def ofJson? (belowRoot : Bool) : Json → Option Node
  | .object members =>
    match (members.lookup "type").bind (Kind.ofJson? belowRoot) with
    | some .file => fileOfJson? (members.lookup "content") (members.lookup "mode")
    | some .directory => (childrenOfJson? members).map ofEntries
    | none => none
  | .array [] => none
  | .array (type :: items) =>
    match Kind.ofJson? belowRoot type with
    | some .file => fileOfItems? items
    | some .directory => directoryOfItems? items
    | none => none
  | .scalar _ => none

/-- The directory that the items after its type describe. -/
def directoryOfItems? : List Json → Option Node
  | [] => some emptyDirectory
  | [.object members] => (entriesOfJson? members).map ofEntries
  | _ => none

/-- The entries that the `children` among the members of a directory describe. -/
def childrenOfJson? : List (String × Json) → Option (List (String × Node))
  | [] => some []
  | (name, value) :: rest =>
    if name = "children" then
      match value with
      | .object members => entriesOfJson? members
      | _ => none
    else childrenOfJson? rest

/-- The entries that members describe. -/
def entriesOfJson? : List (String × Json) → Option (List (String × Node))
  | [] => some []
  | (name, value) :: rest =>
    match ofJson? true value, entriesOfJson? rest with
    | some node, some rest => some ((name, node) :: rest)
    | _, _ => none

end

/-- The value in a document that describes the root. -/
def rootValue (document : Json) : Except LoadError Json :=
  match document with
  | .object members =>
    if (members.lookup "type").isSome then .ok document
    else if members.length ≠ 1 then .error (.seed .notSingle)
    else
      match members.lookup "/" with
      | some value => .ok value
      | none => .error (.seed .noRootEntry)
  | _ => .ok document

/-- The root directory that the text of a document describes. -/
def ofDocument (text : String) : Except LoadError Node := do
  let some document := Json.parse? text | throw .badJson
  let value ← rootValue document
  let some node := ofJson? false value | throw .badJson
  if node.isDirectory then return node else throw (.seed .rootNotDirectory)

end Node

namespace Filesystem

/-- The file system with a given root, which must be a directory. -/
def ofRoot (root : Node) : Except LoadError Filesystem :=
  if root.isDirectory then .ok ⟨root⟩ else .error (.seed .rootNotDirectory)

/-- The file system that the text of a document describes. -/
def ofDocument (text : String) : Except LoadError Filesystem :=
  (Node.ofDocument text).map Filesystem.mk

/-- The document of a file system, from which it can be read again. -/
def document (fs : Filesystem) : String :=
  fs.root.toJson.indented

end Filesystem

end VirtualShell
