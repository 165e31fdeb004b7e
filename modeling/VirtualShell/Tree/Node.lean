import VirtualShell.Entries

/-!
# Nodes

A node is a file with its content, or a directory with named entries. A file may carry the mode that
was last recorded on it; the mode is never enforced.

A node is reached from another by a list of names. `descend` follows such a list and `replaceAt`
overwrites what it leads to.
-/

namespace VirtualShell

/-- A file or a directory. The entries of a directory are kept in increasing order of names. -/
inductive Node
  | file (content : String) (mode : Option String)
  | directory (entries : List (String × Node))
  deriving Inhabited

namespace Node

mutual

/-- Whether two nodes are the same, entry for entry. -/
def same : Node → Node → Bool
  | file content mode, file content' mode' => content == content' && mode == mode'
  | directory entries, directory entries' => sameEntries entries entries'
  | _, _ => false

/-- Whether two lists of entries are the same. -/
def sameEntries : List (String × Node) → List (String × Node) → Bool
  | [], [] => true
  | (name, node) :: rest, (name', node') :: rest' =>
    name == name' && same node node' && sameEntries rest rest'
  | _, _ => false

end

mutual

/-- Sameness is equality. -/
theorem same_iff : ∀ {n m : Node}, same n m = true ↔ n = m
  | file _ _, file _ _ => by simp [same]
  | directory entries, directory entries' => by simp [same, sameEntries_iff]
  | file _ _, directory _ => by simp [same]
  | directory _, file _ _ => by simp [same]

/-- Sameness of entries is equality. -/
theorem sameEntries_iff : ∀ {ns ms : List (String × Node)}, sameEntries ns ms = true ↔ ns = ms
  | [], [] => by simp [sameEntries]
  | (name, node) :: rest, (name', node') :: rest' => by
    simp [sameEntries, @same_iff node node', @sameEntries_iff rest rest']
  | [], _ :: _ => by simp [sameEntries]
  | _ :: _, [] => by simp [sameEntries]

end

instance : DecidableEq Node := fun _ _ => decidable_of_iff _ same_iff

/-- A directory without entries. -/
def emptyDirectory : Node := directory []

/-- A file without content and without a recorded mode. -/
def emptyFile : Node := file "" none

/-- The directory with the given entries, the last one of a name winning. -/
def ofEntries (entries : List (String × Node)) : Node :=
  directory (Entries.sorted entries)

/-- Whether a node is a directory. -/
def isDirectory : Node → Bool
  | directory _ => true
  | file _ _ => false

/-- The entries of a directory; a file has none to offer. -/
def entries? : Node → Option (List (String × Node))
  | directory entries => some entries
  | file _ _ => none

/-- The content of a file. -/
def content? : Node → Option String
  | file content _ => some content
  | directory _ => none

/-- The mode recorded on a file. -/
def mode? : Node → Option String
  | file _ mode => mode
  | directory _ => none

/-- The size listed for every directory. -/
def directorySize : Nat := 4096

/-- The listed size: the bytes of a file, and a fixed number for a directory. -/
def size : Node → Nat
  | file content _ => content.utf8ByteSize
  | directory _ => directorySize

mutual

/-- The bytes of all files at or below a node. -/
def contentBytes : Node → Nat
  | file content _ => content.utf8ByteSize
  | directory entries => contentBytesOf entries

/-- The bytes of all files at or below some entries. -/
def contentBytesOf : List (String × Node) → Nat
  | [] => 0
  | (_, node) :: rest => contentBytes node + contentBytesOf rest

end

/-- The entry of a directory with a name. -/
def child? (node : Node) (name : String) : Option Node :=
  match node with
  | directory entries => entries.lookup name
  | file _ _ => none

/-- The node that a list of names leads to. -/
def descend (node : Node) : List String → Option Node
  | [] => some node
  | name :: rest =>
    match node.child? name with
    | some child => child.descend rest
    | none => none

/-- The node in which what a list of names leads to is overwritten. A list that leads nowhere
changes nothing. -/
def replaceAt (node : Node) (path : List String) (new : Node) : Node :=
  match path with
  | [] => new
  | name :: rest =>
    match node with
    | file content mode => file content mode
    | directory entries =>
      match entries.lookup name with
      | none => directory entries
      | some child => directory (Entries.put name (child.replaceAt rest new) entries)

end Node

end VirtualShell
