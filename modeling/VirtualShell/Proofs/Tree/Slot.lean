import VirtualShell.Proofs.Tree.Undo
import VirtualShell.Tree.Teaching

/-!
# Slots

A `Slot` is a place in a tree that can be read and written. It has the node that stands there, and it gives the
tree in which another node stands there instead. A slot is reached from the root by entering one directory after
the other, and each slot on the way writes through the one that it was entered from. So this is a walk of its
own beside `lookup`, which keeps nothing of the directories that it passes.

The two walks agree: what is reached is what a lookup finds, and what is written is what `overwrite` gives
(`slot_eq`). An edit of a tree is therefore a lookup and a write, and what a write does is told by lookups alone:
within the path an observer finds the new node, above it the same names, and beside it what was there before.
-/

namespace VirtualShell

/-- A place in a tree: the node that stands there, and the tree in which another one does. -/
structure Slot where
  node : Node
  write : Node → Filesystem

namespace Slot

/-- The slot of an entry. There is none in a file, and none for `.` and `..`. -/
def enter (slot : Slot) (name : String) : Option Slot :=
  if Path.isDots name then none
  else
    match slot.node with
    | .file _ _ => none
    | .directory entries =>
      (entries.lookup name).map fun child =>
        ⟨child, fun new => slot.write (.directory (Entries.put name new entries))⟩

/-- The slot of the node to which some names lead, written through the slot that they start from. -/
def below (slot : Slot) (names : List String) (node : Node) : Slot :=
  ⟨node, fun new => slot.write (slot.node.replaceAt names new)⟩

/-- Entering a directory takes one more name. -/
theorem enter_eq (slot : Slot) (name : String) :
    slot.enter name =
      if Path.isDots name then none else (slot.node.child? name).map (slot.below [name]) := by
  obtain ⟨node, write⟩ := slot
  rw [enter]
  congr 1
  cases node with
  | file content mode => rfl
  | directory entries =>
    cases hchild : entries.lookup name with
    | none => simp only [Node.child?, hchild, Option.map_none]
    | some child => simp only [Node.child?, hchild, Option.map_some, below, Node.replaceAt]

/-- Two stages of names are one. -/
theorem below_below {slot : Slot} {path : List String} {middle : Node}
    (h : slot.node.descend path = some middle) (rest : List String) :
    (slot.below path middle).below rest = slot.below (path ++ rest) := by
  funext node
  simp only [below, Node.replaceAt_append h]

/-- Entering one directory after the other reaches what the names lead to. -/
theorem foldlM_enter (names : List String) (slot : Slot) :
    names.foldlM enter slot =
      if names.any Path.isDots then none else (slot.node.descend names).map (slot.below names) := by
  -- for every slot, since the rest of the names is entered from another one, which writes through this one
  induction names generalizing slot with
  | nil => rfl
  | cons name rest ih =>
    rw [List.foldlM_cons, enter_eq, List.any_cons, Node.descend_cons]
    cases hname : Path.isDots name with
    | true => rfl
    | false =>
      cases hchild : slot.node.child? name with
      | none => simp
      | some child =>
        have hstep : slot.node.descend [name] = some child := by
          rw [Node.descend_cons, hchild, Option.bind_some, Node.descend_nil]
        have hrest := ih (slot.below [name] child)
        rw [below_below hstep] at hrest
        exact hrest

end Slot

namespace Filesystem

variable {fs : Filesystem} {path other : String}

/-- The slot at a path, entered segment by segment. -/
def slot (fs : Filesystem) (path : String) : Option Slot :=
  (Path.segments path).foldlM Slot.enter ⟨fs.root, Filesystem.mk⟩

/-- There is a slot where a lookup finds a node, and writing to it overwrites that node. -/
theorem slot_eq (fs : Filesystem) (path : String) :
    fs.slot path = (fs.lookup path).map fun node => ⟨node, fs.overwrite path⟩ := by
  rw [slot, Slot.foldlM_enter, lookup]
  split
  next => rfl
  next hdots =>
    have hwrite : fs.overwrite path = fun new => ⟨fs.root.replaceAt (Path.segments path) new⟩ := by
      funext new
      rw [overwrite, if_neg hdots]
    rw [hwrite]
    rfl

/-! ## Above a path and beside it -/

/-- Above the path stand directories, which keep their names. -/
theorem lookup_overwrite_above {old : Node} (h : fs.lookup path = some old)
    (habove : Path.segments other <+: Path.segments path)
    (hne : Path.segments other ≠ Path.segments path) (new : Node) :
    ∃ entries changed, fs.lookup other = some (.directory entries) ∧
      (fs.overwrite path new).lookup other = some (.directory changed) ∧
      Entries.names changed = Entries.names entries := by
  obtain ⟨rest, hrest⟩ := habove
  cases rest with
  | nil =>
    rw [List.append_nil] at hrest
    exact absurd hrest hne
  | cons name rest =>
    obtain ⟨entries, hentries⟩ := entry_eq_directory_iff.1 (entry_eq_directory_above h hrest.symm)
    obtain ⟨hdots, hdescend⟩ := lookup_eq_some_iff.1 h
    rw [← hrest, List.any_append, Bool.or_eq_false_iff] at hdots
    rw [← hrest, Node.descend_append, (lookup_eq_some_iff.1 hentries).2, Option.bind_some,
      Node.descend_cons, Option.bind_eq_some_iff] at hdescend
    obtain ⟨child, hchild, -⟩ := hdescend
    have hlookup : entries.lookup name = some child := hchild
    refine ⟨entries, Entries.put name (child.replaceAt rest new) entries, hentries, ?_, ?_⟩
    · rw [overwrite_append hrest.symm hentries hdots.2, lookup_overwrite_self hentries,
        Node.replaceAt_cons hlookup]
    · exact Entries.names_put_of_mem (Entries.mem_names_of_mem (Entries.mem_of_lookup hlookup)) _

/-- Beside the path everything is as it was. -/
theorem lookup_overwrite_beside {old : Node} (h : fs.lookup path = some old)
    (hbelow : ¬ Path.segments path <+: Path.segments other)
    (habove : ¬ Path.segments other <+: Path.segments path) (new : Node) :
    (fs.overwrite path new).lookup other = fs.lookup other :=
  lookup_overwrite_of_keep h habove fun rest hrest => absurd ⟨rest, hrest.symm⟩ hbelow

/-! ## The laws of a slot -/

/-- **A slot is a lawful view of what a lookup finds.** However a path is spelled, there is a slot if and only if
a lookup finds a node, and then it is the slot of that node. Writing to it is overwriting. Writing the node that
stands there changes nothing. After any node is written, a lookup of the path finds that node, and a path
that goes on from there stands for what its rest stands for inside the node. A path that neither goes on from
there nor leads there stands for the very node that it stood for. The directories on the way have the names that
they had. The root has a slot too, and no directory is on its way. -/
theorem slot_is_lawful_view (fs : Filesystem) (path : String) :
    (fs.slot path).map Slot.node = fs.lookup path ∧
    ∀ slot, fs.slot path = some slot →
      slot.write = fs.overwrite path ∧
      slot.write slot.node = fs ∧
      ∀ new,
        (slot.write new).lookup path = some new ∧
        (∀ other rest, Path.segments other = Path.segments path ++ Path.segments rest →
          (slot.write new).lookup other = lookup ⟨new⟩ rest) ∧
        (∀ other, ¬ Path.segments path <+: Path.segments other →
          ¬ Path.segments other <+: Path.segments path →
          (slot.write new).lookup other = fs.lookup other) ∧
        ∀ other, Path.segments other <+: Path.segments path →
          Path.segments other ≠ Path.segments path →
          ∃ entries changed, fs.lookup other = some (.directory entries) ∧
            (slot.write new).lookup other = some (.directory changed) ∧
            Entries.names changed = Entries.names entries := by
  constructor
  · rw [slot_eq, Option.map_map]
    exact Option.map_id'
  · intro slot hslot
    rw [slot_eq, Option.map_eq_some_iff] at hslot
    obtain ⟨old, hold, rfl⟩ := hslot
    refine ⟨rfl, overwrite_eq_self hold, fun new => ⟨lookup_overwrite_self hold new, ?_, ?_, ?_⟩⟩
    · intro other rest hother
      rw [lookup_overwrite_eq_ite hold hother, lookup]
    · intro other hbelow habove
      exact lookup_overwrite_beside hold hbelow habove new
    · intro other habove hne
      exact lookup_overwrite_above hold habove hne new

/-- In the teaching tree a directory with a file in it is written over another directory, whose path is spelled
with a doubled slash, and over the root. -/
theorem slot_is_lawful_view_teaching :
    let fs : Filesystem := ⟨Node.teachingTree⟩
    let path := "/home//user/documents"
    let new := Node.directory [("a", .file "text" none)]
    (∃ slot, fs.slot path = some slot ∧ fs.lookup path = some slot.node ∧ slot.write slot.node = fs ∧
      (slot.write new).lookup path = some new ∧
      (slot.write new).lookup "/home/user/documents/a" = some (.file "text" none) ∧
      (slot.write new).lookup "/home/user/documents/a/.." = none ∧
      (slot.write new).lookup "/home/user/projects" = fs.lookup "/home/user/projects" ∧
      ∃ entries changed, fs.lookup "/home/user" = some (.directory entries) ∧
        (slot.write new).lookup "/home/user" = some (.directory changed) ∧
        Entries.names changed = Entries.names entries) ∧
    ∃ slot, fs.slot "//" = some slot ∧ slot.write new = ⟨new⟩ ∧
      (slot.write new).lookup "/a" = some (.file "text" none) := by
  intro fs path new
  obtain ⟨hfound, hlaws⟩ := slot_is_lawful_view fs path
  obtain ⟨hrootFound, hrootLaws⟩ := slot_is_lawful_view fs "//"
  have hsome : (fs.slot path).isSome = true := by
    rw [← Option.isSome_map, hfound]
    decide
  have hrootSome : (fs.slot "//").isSome = true := by
    rw [← Option.isSome_map, hrootFound]
    decide
  obtain ⟨slot, hslot⟩ := Option.isSome_iff_exists.1 hsome
  obtain ⟨root, hroot⟩ := Option.isSome_iff_exists.1 hrootSome
  obtain ⟨-, hsame, hwritten⟩ := hlaws slot hslot
  obtain ⟨hself, hinside, hbeside, habove⟩ := hwritten new
  obtain ⟨hoverwrite, -, hrootWritten⟩ := hrootLaws root hroot
  obtain ⟨-, hrootInside, -, -⟩ := hrootWritten new
  refine ⟨⟨slot, hslot, ?_, hsame, hself, ?_, ?_, ?_, ?_⟩, root, hroot, ?_, ?_⟩
  · rw [← hfound, hslot]
    rfl
  · rw [hinside _ "a" (by decide)]
    decide
  · rw [hinside _ "a/.." (by decide)]
    decide
  · exact hbeside _ (by decide) (by decide)
  · exact habove _ (by decide) (by decide)
  · rw [hoverwrite]
    rfl
  · rw [hrootInside _ "a" (by decide)]
    decide

end Filesystem

end VirtualShell
