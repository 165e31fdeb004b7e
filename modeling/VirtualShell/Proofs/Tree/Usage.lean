import Mathlib.Algebra.BigOperators.Group.List.Basic
import Mathlib.Algebra.GroupWithZero.Nat
import VirtualShell.Proofs.Tree.Walk

/-!
# What a tree amounts to

How much a tree holds can be counted in two ways: along a walk, one node after the other, or from each
directory to its entries. Both sum a weight over all nodes (`Node.total`), which is one for a directory or for a
file, or the bytes of a file. Over a traversal the sum goes from a directory to its entries
(`Node.total_directory`), which is how bytes of content are defined (`Node.contentBytes_eq_total`); and the
usage of a file system is made of three such sums (`Filesystem.usage_eq_totals`).

The walk from a root that is a file visits nothing, and the root counts as a directory all the same. File
systems have directories for roots.
-/

namespace VirtualShell

namespace Node

/-- One for a directory. -/
def directoryCount : Node → Nat
  | directory _ => 1
  | file _ _ => 0

/-- One for a file. -/
def fileCount : Node → Nat
  | directory _ => 0
  | file _ _ => 1

/-- The bytes of a file. A directory has none of its own. -/
def ownBytes : Node → Nat
  | directory _ => 0
  | file content _ => content.utf8ByteSize

/-- The sum of a weight over a node and everything below it. -/
def total (weight : Node → Nat) (node : Node) : Nat :=
  weight node + (node.topDown.map fun route => weight route.2).sum

variable {weight : Node → Nat} {entries : List (String × Node)}

theorem total_file (content : String) (mode : Option String) :
    (file content mode).total weight = weight (file content mode) := by
  rw [total, topDown, List.map_nil, List.sum_nil, Nat.add_zero]

/-- A sum over several lists, one for each entry, is a sum over the entries. -/
theorem sum_spread (list : Node → List (List String × Node)) (entries : List (String × Node)) :
    ((spread list entries).map fun route => weight route.2).sum =
      (entries.map fun entry => ((list entry.2).map fun route => weight route.2).sum).sum := by
  induction entries with
  | nil => rfl
  | cons entry rest ih =>
    rw [spread_cons, List.map_append, List.sum_append, ih, List.map_map, List.map_cons, List.sum_cons]
    rfl

/-- A directory amounts to what it is itself and what its entries amount to. -/
theorem total_directory (entries : List (String × Node)) :
    (directory entries).total weight =
      weight (directory entries) + (entries.map fun entry => entry.2.total weight).sum := by
  rw [total, topDown_directory, sum_spread]
  rfl

theorem contentBytesOf_eq_sum (entries : List (String × Node)) :
    contentBytesOf entries = (entries.map fun entry => entry.2.contentBytes).sum := by
  induction entries with
  | nil => rfl
  | cons entry rest ih => rw [contentBytesOf, ih, List.map_cons, List.sum_cons]

/-- The bytes of content are those of the files. -/
theorem contentBytes_eq_total (node : Node) : node.contentBytes = node.total ownBytes := by
  induction node using induct with
  | hfile content mode => rw [contentBytes, total_file, ownBytes]
  | hdirectory entries ih =>
    rw [contentBytes, contentBytesOf_eq_sum, List.map_congr_left ih, total_directory, ownBytes, Nat.zero_add]

end Node

namespace Filesystem

/-- Counting nodes one after the other adds up their weights. -/
theorem foldl_add_usage (visits : List Visit) (start : Usage) :
    visits.foldl (fun usage visit => Usage.add usage visit.node) start =
      ⟨start.directories + (visits.map fun visit => visit.node.directoryCount).sum,
        start.files + (visits.map fun visit => visit.node.fileCount).sum,
        start.bytes + (visits.map fun visit => visit.node.ownBytes).sum⟩ := by
  induction visits generalizing start with
  | nil => rfl
  | cons visit rest ih =>
    rw [List.foldl_cons, ih]
    simp only [List.map_cons, List.sum_cons]
    cases visit.node with
    | file content mode => simp only [Usage.add, Node.directoryCount, Node.fileCount, Node.ownBytes,
        Nat.zero_add, Nat.add_assoc]
    | directory entries => simp only [Usage.add, Node.directoryCount, Node.fileCount, Node.ownBytes,
        Nat.zero_add, Nat.add_assoc]

/-- What is visited is a directory or a file. -/
theorem directories_add_files (visits : List Visit) :
    (visits.map fun visit => visit.node.directoryCount).sum +
      (visits.map fun visit => visit.node.fileCount).sum = visits.length := by
  have hone : ∀ visit ∈ visits, visit.node.directoryCount + visit.node.fileCount = 1 := by
    intro visit _
    cases visit.node <;> rfl
  rw [← List.sum_map_add, List.map_congr_left hone]
  simp

/-- The usage of a file system in three sums over its tree. -/
theorem usage_eq_totals {fs : Filesystem} (hroot : fs.root.isDirectory = true) :
    fs.usage = ⟨fs.root.total Node.directoryCount, fs.root.total Node.fileCount,
      fs.root.total Node.ownBytes⟩ := by
  have hlookup : fs.lookup Path.root = some fs.root := rfl
  cases htree : fs.root with
  | file content mode =>
    rw [htree] at hroot
    cases hroot
  | directory entries =>
    rw [usage, foldl_add_usage, walk_of_lookup hlookup, htree]
    simp only [Node.total, Node.directoryCount, Node.fileCount, Node.ownBytes, List.map_map]
    rfl

end Filesystem

end VirtualShell
