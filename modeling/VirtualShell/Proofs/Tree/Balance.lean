import VirtualShell.Proofs.Tree.Undo
import VirtualShell.Proofs.Tree.Usage

/-!
# What an edit adds to a tree and takes from it

What a tree amounts to is a sum over its nodes, and an edit changes one node. As long as the directories on the way
to it weigh what they weighed (`Node.Uniform`), the sum changes by the difference between the new node and the old
one (`Node.total_replaceAt`), at whatever depth that is. So an insertion adds the usage of the node that is put in
(`Filesystem.usage_insert`), and a removal takes away the usage of the one that is taken out
(`Filesystem.usage_remove`).

Neither depends on where a name finds its place among the others: placing a free name and taking out a name only
rearrange the list of entries otherwise (`Entries.place_perm`, `Entries.perm_erase`).
-/

namespace VirtualShell

namespace Entries

variable {β : Type} {name : String} {value : β} {entries : List (String × β)}

/-- A name that is placed for the first time is one entry more. -/
theorem place_perm (h : entries.lookup name = none) (value : β) :
    (place name value entries).Perm ((name, value) :: entries) := by
  induction entries with
  | nil => exact List.Perm.refl _
  | cons entry rest ih =>
    obtain ⟨other, old⟩ := entry
    rw [lookup_cons_eq] at h
    split at h
    next => cases h
    next hne =>
      rw [place, if_neg hne]
      split
      next => exact List.Perm.refl _
      next => exact ((ih h).cons _).trans (List.Perm.swap _ _ _)

/-- Putting a value under a name that is there replaces one entry. -/
theorem exists_put_perm (h : entries.lookup name = some value) :
    ∃ others, entries.Perm ((name, value) :: others) ∧
      ∀ new, (put name new entries).Perm ((name, new) :: others) := by
  induction entries with
  | nil => cases h
  | cons entry rest ih =>
    obtain ⟨other, old⟩ := entry
    rw [lookup_cons_eq] at h
    split at h
    next heq =>
      obtain rfl := Option.some.inj h
      obtain rfl : name = other := heq
      refine ⟨rest, List.Perm.refl _, fun new => ?_⟩
      rw [put, if_pos rfl]
    next hne =>
      obtain ⟨others, hrest, hput⟩ := ih h
      refine ⟨(other, old) :: others, (hrest.cons _).trans (List.Perm.swap _ _ _), fun new => ?_⟩
      rw [put, if_neg (Ne.symm hne)]
      exact ((hput new).cons _).trans (List.Perm.swap _ _ _)

/-- A name that is taken out of entries that hold it once is one entry less. -/
theorem perm_erase (hnodup : (names entries).Nodup) (h : entries.lookup name = some value) :
    entries.Perm ((name, value) :: erase name entries) := by
  induction entries with
  | nil => cases h
  | cons entry rest ih =>
    obtain ⟨other, old⟩ := entry
    obtain ⟨hfresh, hrest⟩ := List.nodup_cons.1 hnodup
    rw [lookup_cons_eq] at h
    split at h
    next heq =>
      obtain rfl := Option.some.inj h
      obtain rfl : name = other := heq
      rw [erase_cons_self, erase_eq_self]
      rw [Option.eq_none_iff_forall_ne_some]
      intro value hvalue
      exact hfresh (mem_names_of_mem (mem_of_lookup hvalue))
    next hne =>
      rw [erase_cons_of_ne (Ne.symm hne)]
      exact ((ih hrest h).cons _).trans (List.Perm.swap _ _ _)

end Entries

namespace Node

/-! ## Sums over a tree -/

/-- A weight that is the same for all directories. -/
def Uniform (weight : Node → Nat) : Prop :=
  ∀ entries others, weight (directory entries) = weight (directory others)

variable {weight : Node → Nat}

/-- A directory amounts to what one of its entries amounts to and what it would amount to without it. -/
theorem total_of_perm (hweight : Uniform weight) {entries others : List (String × Node)} {name : String}
    {node : Node} (h : entries.Perm ((name, node) :: others)) :
    (directory entries).total weight = (directory others).total weight + node.total weight := by
  have hsum : (entries.map fun entry => entry.2.total weight).sum =
      node.total weight + (others.map fun entry => entry.2.total weight).sum := (h.map _).sum_eq
  rw [total_directory, total_directory, hsum, hweight entries others]
  omega

/-- What a node is overwritten by takes its place in the sum. -/
theorem total_replaceAt (hweight : Uniform weight) {node old : Node} {path : List String}
    (h : node.descend path = some old) (new : Node) :
    (node.replaceAt path new).total weight + old.total weight = node.total weight + new.total weight := by
  induction path generalizing node with
  | nil =>
    obtain rfl := Option.some.inj h
    exact Nat.add_comm _ _
  | cons name path ih =>
    rw [descend_cons, Option.bind_eq_some_iff] at h
    obtain ⟨child, hchild, hpath⟩ := h
    cases node with
    | file content mode => cases hchild
    | directory entries =>
      have hlookup : entries.lookup name = some child := hchild
      -- the other entries are the same before and after
      obtain ⟨others, hentries, hput⟩ := Entries.exists_put_perm hlookup
      have hbelow := ih hpath
      simp only [replaceAt, hlookup]
      rw [total_of_perm hweight hentries, total_of_perm hweight (hput _)]
      omega

theorem uniform_directoryCount : Uniform directoryCount := fun _ _ => rfl

theorem uniform_fileCount : Uniform fileCount := fun _ _ => rfl

theorem uniform_ownBytes : Uniform ownBytes := fun _ _ => rfl

/-- The directories and files at or below a node, and the bytes of the files. -/
def usage (node : Node) : Usage :=
  ⟨node.total directoryCount, node.total fileCount, node.total ownBytes⟩

end Node

instance : Add Usage where
  add usage more :=
    ⟨usage.directories + more.directories, usage.files + more.files, usage.bytes + more.bytes⟩

namespace Filesystem

variable {fs after : Filesystem} {dir name path : String} {node : Node} {weight : Node → Nat}

/-! ## Sums over a file system -/

theorem total_overwrite (hweight : Node.Uniform weight) {old : Node} (h : fs.lookup path = some old)
    (new : Node) :
    (fs.overwrite path new).root.total weight + old.total weight =
      fs.root.total weight + new.total weight := by
  obtain ⟨hdots, hdescend⟩ := lookup_eq_some_iff.1 h
  rw [overwrite, if_neg (by simp [hdots])]
  exact Node.total_replaceAt hweight hdescend new

theorem total_insert (hweight : Node.Uniform weight) (h : fs.insert dir name node = .ok after) :
    after.root.total weight = fs.root.total weight + node.total weight := by
  obtain ⟨-, entries, hdir, hfree, rfl⟩ := insert_eq_ok_iff.1 h
  have htotal := total_overwrite hweight hdir (.directory (Entries.place name node entries))
  rw [Node.total_of_perm hweight (Entries.place_perm hfree node)] at htotal
  omega

theorem total_remove (hweight : Node.Uniform weight) (hordered : fs.root.Ordered)
    (h : fs.remove path = .ok (node, after)) :
    after.root.total weight + node.total weight = fs.root.total weight := by
  obtain ⟨dir, name, entries, -, hdir, hlookup, rfl⟩ := remove_eq_ok_iff.1 h
  have hincreasing : Entries.Increasing entries :=
    (Node.everywhere_directory_iff.1 (everywhere_of_lookup hordered hdir)).1
  have htotal := total_overwrite hweight hdir (.directory (Entries.erase name entries))
  have hbefore := Node.total_of_perm hweight (Entries.perm_erase hincreasing.nodup hlookup)
  omega

/-! ## Usages -/

/-- In a tree with any directory in it, the usage is that of the root. -/
theorem usage_of_lookup {entries : List (String × Node)} (h : fs.lookup path = some (.directory entries)) :
    fs.usage = fs.root.usage :=
  usage_eq_totals (root_isDirectory (entry_eq_directory_iff.2 ⟨entries, h⟩))

/-- So it is when a directory in it has got other entries. -/
theorem usage_overwrite {entries : List (String × Node)} (h : fs.lookup path = some (.directory entries))
    (others : List (String × Node)) :
    (fs.overwrite path (.directory others)).usage = (fs.overwrite path (.directory others)).root.usage :=
  usage_of_lookup (lookup_overwrite_self h (.directory others))

/-- An insertion adds the usage of the node. -/
theorem usage_insert (h : fs.insert dir name node = .ok after) : after.usage = fs.usage + node.usage := by
  obtain ⟨-, entries, hdir, -, hafter⟩ := insert_eq_ok_iff.1 h
  have hroot : after.usage = after.root.usage := by
    rw [hafter]
    exact usage_overwrite hdir _
  rw [usage_of_lookup hdir, hroot, Node.usage, total_insert Node.uniform_directoryCount h,
    total_insert Node.uniform_fileCount h, total_insert Node.uniform_ownBytes h]
  rfl

/-- A removal takes away the usage of the node. -/
theorem usage_remove (hordered : fs.root.Ordered) (h : fs.remove path = .ok (node, after)) :
    fs.usage = after.usage + node.usage := by
  obtain ⟨dir, name, entries, -, hdir, -, hafter⟩ := remove_eq_ok_iff.1 h
  have hroot : after.usage = after.root.usage := by
    rw [hafter]
    exact usage_overwrite hdir _
  rw [usage_of_lookup hdir, hroot, Node.usage,
    ← total_remove Node.uniform_directoryCount hordered h, ← total_remove Node.uniform_fileCount hordered h,
    ← total_remove Node.uniform_ownBytes hordered h]
  rfl

end Filesystem

end VirtualShell
