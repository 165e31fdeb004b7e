import VirtualShell.Path
import VirtualShell.Tree.Node

/-!
# Walking a tree

Everything strictly below a node, each entry before what lies below it and siblings in their order.
Paths are built by joining names onto the path that the walk starts from.
-/

namespace VirtualShell

/-- An entry met on a walk: where it was met, under which name, and the node itself. -/
structure Visit where
  path : String
  name : String
  node : Node

namespace Node

mutual

/-- The entries below a node that stands at `base`. -/
def walk (base : String) : Node → List Visit
  | file _ _ => []
  | directory entries => walkEntries base entries

/-- The given entries of a directory that stands at `base`, and what is below them. -/
def walkEntries (base : String) : List (String × Node) → List Visit
  | [] => []
  | (name, node) :: rest =>
    ⟨Path.join base name, name, node⟩ :: (walk (Path.join base name) node ++ walkEntries base rest)

end

end Node

end VirtualShell
