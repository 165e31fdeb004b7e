import VirtualShell.Proofs.Tree.Everywhere

/-!
# Edits that undo each other

Taking out what was put in gives the very tree from before (`remove_of_insert`), and so does putting back what
was taken out (`insert_of_remove`). The second one rests on the order of names: a directory has one place for a
name, so it does not matter that the name was gone in between.

Both are cases of one law about overwriting: what is overwritten twice in one place is known from the second
time, and overwriting a node by itself changes nothing.
-/

namespace VirtualShell

namespace Node

theorem replaceAt_replaceAt (node : Node) (path : List String) (first second : Node) :
    (node.replaceAt path first).replaceAt path second = node.replaceAt path second := by
  induction path generalizing node with
  | nil => rfl
  | cons name path ih =>
    cases node with
    | file content mode => rfl
    | directory entries =>
      cases hchild : entries.lookup name with
      | none => simp only [replaceAt, hchild]
      | some child => simp only [replaceAt, hchild, Entries.lookup_put_self, Entries.put_put, ih]

theorem replaceAt_eq_self {node old : Node} {path : List String} (h : node.descend path = some old) :
    node.replaceAt path old = node := by
  induction path generalizing node with
  | nil => exact (Option.some.inj h).symm
  | cons name path ih =>
    rw [descend_cons, Option.bind_eq_some_iff] at h
    obtain ⟨child, hchild, hpath⟩ := h
    cases node with
    | file content mode => cases hchild
    | directory entries =>
      have hlookup : entries.lookup name = some child := hchild
      simp only [replaceAt, hlookup, ih hpath, Entries.put_eq_self hlookup]

/-- Overwriting further down overwrites what is on the way. -/
theorem replaceAt_append {node middle : Node} {path : List String} (h : node.descend path = some middle)
    (rest : List String) (new : Node) :
    node.replaceAt (path ++ rest) new = node.replaceAt path (middle.replaceAt rest new) := by
  induction path generalizing node with
  | nil =>
    obtain rfl := Option.some.inj h
    rfl
  | cons first path ih =>
    rw [descend_cons, Option.bind_eq_some_iff] at h
    obtain ⟨below, hbelow, hpath⟩ := h
    cases node with
    | file content mode => cases hbelow
    | directory others =>
      have hlookup : others.lookup first = some below := hbelow
      simp only [List.cons_append, replaceAt, hlookup, ih hpath]

/-- Overwriting an entry of a directory gives it other entries. -/
theorem replaceAt_cons {child : Node} {entries : List (String × Node)} {name : String}
    (h : entries.lookup name = some child) (rest : List String) (new : Node) :
    (directory entries).replaceAt (name :: rest) new =
      directory (Entries.put name (child.replaceAt rest new) entries) := by
  simp only [replaceAt, h]

end Node

namespace Filesystem

variable {fs after : Filesystem} {path dir name : String} {node : Node}

/-! ## Overwriting -/

theorem overwrite_overwrite (fs : Filesystem) (path : String) (first second : Node) :
    (fs.overwrite path first).overwrite path second = fs.overwrite path second := by
  simp only [overwrite]
  split
  next => rfl
  next => rw [Node.replaceAt_replaceAt]

theorem overwrite_eq_self {old : Node} (h : fs.lookup path = some old) : fs.overwrite path old = fs := by
  obtain ⟨hdots, hdescend⟩ := lookup_eq_some_iff.1 h
  rw [overwrite, hdots, Node.replaceAt_eq_self hdescend]
  rfl

/-- What a directory was before it got other entries, it is again when it gets back its own. -/
theorem overwrite_overwrite_self {old : Node} (h : fs.lookup path = some old) (new : Node) :
    (fs.overwrite path new).overwrite path old = fs := by
  rw [overwrite_overwrite, overwrite_eq_self h]

/-- Overwriting further down overwrites what is on the way. -/
theorem overwrite_append {middle : Node} {rest : List String}
    (hpath : Path.segments path = Path.segments dir ++ rest) (hdir : fs.lookup dir = some middle)
    (hrest : rest.any Path.isDots = false) (new : Node) :
    fs.overwrite path new = fs.overwrite dir (middle.replaceAt rest new) := by
  obtain ⟨hdots, hdescend⟩ := lookup_eq_some_iff.1 hdir
  have hplain : (Path.segments path).any Path.isDots = false := by
    rw [hpath, List.any_append, hdots, hrest, Bool.or_false]
  rw [overwrite, overwrite, hdots, hplain, hpath, Node.replaceAt_append hdescend]

/-- Overwriting an entry of a directory is overwriting the directory. -/
theorem overwrite_concat {entries : List (String × Node)} {child : Node}
    (hpath : Path.segments path = Path.segments dir ++ [name])
    (hdir : fs.lookup dir = some (.directory entries)) (hchild : entries.lookup name = some child)
    (hname : Path.isDots name = false) (new : Node) :
    fs.overwrite path new = fs.overwrite dir (.directory (Entries.put name new entries)) := by
  have hplain : [name].any Path.isDots = false := by simpa using hname
  rw [overwrite_append hpath hdir hplain, Node.replaceAt_cons hchild]
  rfl

theorem lookup_overwrite_self {old : Node} (h : fs.lookup path = some old) (new : Node) :
    (fs.overwrite path new).lookup path = some new :=
  lookup_overwrite h (List.append_nil _).symm rfl new

/-! ## Undoing -/

/-- Removing what was inserted gives back the tree and the node. -/
theorem remove_of_insert (h : fs.insert dir name node = .ok after)
    (hsplit : Path.splitParent path = some (dir, name)) : after.remove path = .ok (node, fs) := by
  obtain ⟨-, entries, hdir, hfree, rfl⟩ := insert_eq_ok_iff.1 h
  refine remove_eq_ok_iff.2 ⟨dir, name, _, hsplit, lookup_overwrite_self hdir _,
    Entries.lookup_place_self _ _ _, ?_⟩
  rw [Entries.erase_place hfree, overwrite_overwrite_self hdir]

/-- Inserting what was removed gives back the tree, if its names are in order. -/
theorem insert_of_remove (hordered : fs.root.Ordered) (h : fs.remove path = .ok (node, after))
    (hsplit : Path.splitParent path = some (dir, name)) (hname : Path.isPlain name = true) :
    after.insert dir name node = .ok fs := by
  obtain ⟨dir', name', entries, hsplit', hdir, hlookup, rfl⟩ := remove_eq_ok_iff.1 h
  obtain ⟨rfl, rfl⟩ := Prod.mk.inj (Option.some.inj (hsplit.symm.trans hsplit'))
  have hincreasing : Entries.Increasing entries :=
    (Node.everywhere_directory_iff.1 (everywhere_of_lookup hordered hdir)).1
  refine insert_eq_ok_iff.2 ⟨hname, _, lookup_overwrite_self hdir _, Entries.lookup_erase_self _ _, ?_⟩
  rw [Entries.place_erase hincreasing hlookup, overwrite_overwrite_self hdir]

end Filesystem

end VirtualShell
