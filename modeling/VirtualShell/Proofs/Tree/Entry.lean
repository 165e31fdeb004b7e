import VirtualShell.Proofs.Path.Normal
import VirtualShell.Tree.Filesystem

/-!
# What stands at a path

The `Entry` at a path is what an observer sees there without looking further down: nothing, a
directory, or a file with its content and its mode. An edit is described by the entries that it
changes. The frame law is `entryAt_replaceAt`: overwriting what a list of names leads to changes no
entry that the new node does not change itself, and in particular none above it and none beside it.

`Filesystem.insert_eq_ok_iff` and `Filesystem.remove_eq_ok_iff` say once when the two edits succeed
and what they do. Both give a directory other entries in which one name stands for something else, so
`entry_insert` and `entry_remove`, the frames of the two edits, are cases of `entry_overwrite_entries`.
-/

namespace VirtualShell

/-- What stands at a path. -/
inductive Entry
  | absent
  | directory
  | file (content : String) (mode : Option String)
  deriving DecidableEq

/-- What a node is, if there is one. -/
def Entry.ofNode? : Option Node → Entry
  | none => absent
  | some (.directory _) => directory
  | some (.file content mode) => file content mode

namespace Node

/-! ## Descending -/

@[simp]
theorem descend_nil (node : Node) : node.descend [] = some node := rfl

theorem descend_cons (node : Node) (name : String) (rest : List String) :
    node.descend (name :: rest) = (node.child? name).bind (·.descend rest) := by
  rw [descend]
  cases node.child? name <;> rfl

/-- A descent in two stages. -/
theorem descend_append (node : Node) (path rest : List String) :
    node.descend (path ++ rest) = (node.descend path).bind (·.descend rest) := by
  induction path generalizing node with
  | nil => rfl
  | cons name path ih =>
    rw [List.cons_append, descend_cons, descend_cons, Option.bind_assoc]
    congr 1
    funext child
    exact ih child

/-- What stands further down in a directory depends on one of its entries only. -/
theorem descend_directory_congr {entries changed : List (String × Node)} {name : String}
    (h : changed.lookup name = entries.lookup name) (rest : List String) :
    (directory changed).descend (name :: rest) = (directory entries).descend (name :: rest) := by
  rw [descend_cons, descend_cons, child?, child?, h]

/-! ## Overwriting -/

theorem child?_replaceAt_self {node child : Node} {name : String} (h : node.child? name = some child)
    (rest : List String) (new : Node) :
    (node.replaceAt (name :: rest) new).child? name = some (child.replaceAt rest new) := by
  cases node with
  | file content mode => simp [child?] at h
  | directory entries =>
    rw [child?] at h
    simp only [replaceAt, h, child?, Entries.lookup_put_self]

theorem child?_replaceAt_of_ne {name other : String} (h : other ≠ name) (node : Node)
    (rest : List String) (new : Node) :
    (node.replaceAt (name :: rest) new).child? other = node.child? other := by
  cases node with
  | file content mode => rfl
  | directory entries =>
    rw [replaceAt]
    split
    next => rfl
    next => exact Entries.lookup_put_of_ne h _ entries

/-- Overwriting below a node leaves a directory a directory and a file as it was. -/
theorem ofNode?_replaceAt_cons (node : Node) (name : String) (rest : List String) (new : Node) :
    Entry.ofNode? (some (node.replaceAt (name :: rest) new)) = Entry.ofNode? (some node) := by
  cases node with
  | file content mode => rfl
  | directory entries =>
    rw [replaceAt]
    split <;> rfl

/-- Below the place that was overwritten stands what stands below the new node. -/
theorem descend_replaceAt_append {node old : Node} {path : List String}
    (h : node.descend path = some old) (rest : List String) (new : Node) :
    (node.replaceAt path new).descend (path ++ rest) = new.descend rest := by
  induction path generalizing node with
  | nil => rfl
  | cons name path ih =>
    rw [descend_cons, Option.bind_eq_some_iff] at h
    obtain ⟨child, hchild, hpath⟩ := h
    rw [List.cons_append, descend_cons, child?_replaceAt_self hchild]
    exact ih hpath

/-- What a list of names leads to. -/
def entryAt (node : Node) (path : List String) : Entry :=
  .ofNode? (node.descend path)

/-- The frame of overwriting: an entry changes only if it lies below the new node and is another one
there than below the old node. -/
theorem entryAt_replaceAt {node old new : Node} {path other : List String}
    (hold : node.descend path = some old)
    (hkeep : ∀ rest, other = path ++ rest → new.entryAt rest = old.entryAt rest) :
    (node.replaceAt path new).entryAt other = node.entryAt other := by
  induction path generalizing node other with
  | nil =>
    obtain rfl : node = old := Option.some.inj hold
    exact hkeep other rfl
  | cons name path ih =>
    rw [descend_cons, Option.bind_eq_some_iff] at hold
    obtain ⟨child, hchild, hold⟩ := hold
    cases other with
    | nil => exact ofNode?_replaceAt_cons node name path new
    | cons first others =>
      rw [entryAt, entryAt, descend_cons, descend_cons]
      by_cases hfirst : first = name
      · subst hfirst
        rw [child?_replaceAt_self hchild, hchild]
        exact ih hold fun rest hrest => hkeep rest (by rw [hrest, List.cons_append])
      · rw [child?_replaceAt_of_ne hfirst]

/-- The frame for whole nodes: what a list of names leads to is left as it is, unless the list leads no
further than to the place that is overwritten, or to what lies there and is another node in the new one. -/
theorem descend_replaceAt {node old new : Node} {path other : List String}
    (hold : node.descend path = some old) (habove : ¬ other <+: path)
    (hkeep : ∀ rest, other = path ++ rest → new.descend rest = old.descend rest) :
    (node.replaceAt path new).descend other = node.descend other := by
  induction path generalizing node other with
  | nil =>
    obtain rfl : node = old := Option.some.inj hold
    exact hkeep other rfl
  | cons name path ih =>
    rw [descend_cons, Option.bind_eq_some_iff] at hold
    obtain ⟨child, hchild, hold⟩ := hold
    cases other with
    | nil => exact absurd List.nil_prefix habove
    | cons first others =>
      rw [descend_cons, descend_cons]
      by_cases hfirst : first = name
      · subst hfirst
        rw [child?_replaceAt_self hchild, hchild]
        refine ih hold (fun hprefix => habove ?_) fun rest hrest => hkeep rest ?_
        · exact List.cons_prefix_cons.2 ⟨rfl, hprefix⟩
        · rw [hrest, List.cons_append]
      · rw [child?_replaceAt_of_ne hfirst]

end Node

namespace Filesystem

/-- What stands at a path. -/
def entry (fs : Filesystem) (path : String) : Entry :=
  .ofNode? (fs.lookup path)

/-! ## Looking up -/

theorem lookup_eq_some_iff {fs : Filesystem} {path : String} {node : Node} :
    fs.lookup path = some node ↔
      (Path.segments path).any Path.isDots = false ∧
        fs.root.descend (Path.segments path) = some node := by
  rw [lookup]
  cases (Path.segments path).any Path.isDots <;> simp

/-- Looking up depends on the segments only. -/
theorem lookup_congr {path other : String} (h : Path.segments path = Path.segments other)
    (fs : Filesystem) : fs.lookup path = fs.lookup other := by
  rw [lookup, lookup, h]

theorem isDirectory_iff {fs : Filesystem} {path : String} :
    fs.isDirectory path = true ↔ fs.entry path = .directory := by
  rw [isDirectory, entry]
  cases fs.lookup path with
  | none => simp [Entry.ofNode?]
  | some node => cases node <;> simp [Entry.ofNode?, Node.isDirectory]

theorem entry_eq_directory_iff {fs : Filesystem} {path : String} :
    fs.entry path = .directory ↔ ∃ entries, fs.lookup path = some (.directory entries) := by
  rw [entry]
  cases fs.lookup path with
  | none => simp [Entry.ofNode?]
  | some node => cases node <;> simp [Entry.ofNode?]

theorem entry_eq_file_iff {fs : Filesystem} {path content : String} {mode : Option String} :
    fs.entry path = .file content mode ↔ fs.lookup path = some (.file content mode) := by
  rw [entry]
  cases fs.lookup path with
  | none => simp [Entry.ofNode?]
  | some node => cases node <;> simp [Entry.ofNode?]

theorem entry_eq_absent_iff {fs : Filesystem} {path : String} :
    fs.entry path = .absent ↔ fs.lookup path = none := by
  rw [entry]
  cases fs.lookup path with
  | none => simp [Entry.ofNode?]
  | some node => cases node <;> simp [Entry.ofNode?]

/-- Everything on the way to a node is a directory. -/
theorem entry_eq_directory_above {fs : Filesystem} {path other name : String} {node : Node}
    {rest : List String} (h : fs.lookup path = some node)
    (hpath : Path.segments path = Path.segments other ++ name :: rest) :
    fs.entry other = .directory := by
  obtain ⟨hdots, hdescend⟩ := lookup_eq_some_iff.1 h
  rw [hpath, List.any_append, Bool.or_eq_false_iff] at hdots
  rw [hpath, Node.descend_append, Option.bind_eq_some_iff] at hdescend
  obtain ⟨above, habove, hbelow⟩ := hdescend
  rw [entry_eq_directory_iff]
  cases above with
  | file content mode => cases hbelow
  | directory entries => exact ⟨entries, lookup_eq_some_iff.2 ⟨hdots.1, habove⟩⟩

/-- Everything above a directory is a directory. -/
theorem entry_eq_directory_upward {fs : Filesystem} {path other : String}
    (h : fs.entry path = .directory) (hother : Path.segments other <+: Path.segments path) :
    fs.entry other = .directory := by
  obtain ⟨rest, hrest⟩ := hother
  cases rest with
  | nil =>
    rw [List.append_nil] at hrest
    rw [entry, lookup_congr hrest]
    exact h
  | cons name rest =>
    obtain ⟨entries, hlookup⟩ := entry_eq_directory_iff.1 h
    exact entry_eq_directory_above hlookup hrest.symm

/-- A tree with any directory in it has a directory for its root. -/
theorem root_isDirectory {fs : Filesystem} {path : String} (h : fs.entry path = .directory) :
    fs.root.isDirectory = true := by
  have hroot : fs.entry Path.root = .directory := entry_eq_directory_upward h List.nil_prefix
  exact isDirectory_iff.2 hroot

/-- Where nothing stands, nothing stands further down. -/
theorem lookup_eq_none_below {fs : Filesystem} {path other : String} (h : fs.lookup path = none)
    (hother : Path.segments path <+: Path.segments other) : fs.lookup other = none := by
  obtain ⟨rest, hrest⟩ := hother
  rw [Option.eq_none_iff_forall_ne_some]
  intro node hnode
  obtain ⟨hdots, hdescend⟩ := lookup_eq_some_iff.1 hnode
  rw [← hrest, List.any_append, Bool.or_eq_false_iff] at hdots
  rw [← hrest, Node.descend_append, Option.bind_eq_some_iff] at hdescend
  obtain ⟨above, habove, -⟩ := hdescend
  rw [lookup_eq_some_iff.2 ⟨hdots.1, habove⟩] at h
  cases h

/-- What has one more segment than a directory is one of its entries. -/
theorem lookup_concat {fs : Filesystem} {path dir name : String} {entries : List (String × Node)}
    (hpath : Path.segments path = Path.segments dir ++ [name])
    (hdir : fs.lookup dir = some (.directory entries)) (hname : Path.isDots name = false) :
    fs.lookup path = entries.lookup name := by
  obtain ⟨hdots, hdescend⟩ := lookup_eq_some_iff.1 hdir
  rw [lookup, hpath, if_neg (by simp [hdots, hname]), Node.descend_append, hdescend,
    Option.bind_some, Node.descend_cons, Node.child?]
  cases entries.lookup name <;> rfl

/-! ## Overwriting -/

theorem entry_overwrite {fs : Filesystem} {path other : String} {old new : Node}
    (hold : fs.lookup path = some old)
    (hkeep : ∀ rest, Path.segments other = Path.segments path ++ rest →
      new.entryAt rest = old.entryAt rest) :
    (fs.overwrite path new).entry other = fs.entry other := by
  obtain ⟨hdots, hdescend⟩ := lookup_eq_some_iff.1 hold
  rw [entry, entry, overwrite, if_neg (by simp [hdots]), lookup, lookup]
  split
  next => rfl
  next => exact Node.entryAt_replaceAt hdescend hkeep

/-- From the place that is overwritten on, a lookup goes on inside the new node. -/
theorem lookup_overwrite_eq_ite {fs : Filesystem} {path other : String} {old : Node} {rest : List String}
    (hold : fs.lookup path = some old)
    (hother : Path.segments other = Path.segments path ++ rest) (new : Node) :
    (fs.overwrite path new).lookup other =
      if rest.any Path.isDots then none else new.descend rest := by
  obtain ⟨hdots, hdescend⟩ := lookup_eq_some_iff.1 hold
  rw [overwrite, if_neg (by simp [hdots]), lookup, hother, List.any_append, hdots, Bool.false_or,
    Node.descend_replaceAt_append hdescend]

theorem lookup_overwrite {fs : Filesystem} {path other : String} {old : Node} {rest : List String}
    (hold : fs.lookup path = some old)
    (hother : Path.segments other = Path.segments path ++ rest)
    (hrest : rest.any Path.isDots = false) (new : Node) :
    (fs.overwrite path new).lookup other = new.descend rest := by
  rw [lookup_overwrite_eq_ite hold hother, if_neg (by simp [hrest])]

/-- What stands neither at the place that is overwritten nor above it is left as it is, if the new node
holds what the old one holds there. -/
theorem lookup_overwrite_of_keep {fs : Filesystem} {path other : String} {old new : Node}
    (hold : fs.lookup path = some old) (habove : ¬ Path.segments other <+: Path.segments path)
    (hkeep : ∀ rest, Path.segments other = Path.segments path ++ rest →
      new.descend rest = old.descend rest) :
    (fs.overwrite path new).lookup other = fs.lookup other := by
  obtain ⟨hdots, hdescend⟩ := lookup_eq_some_iff.1 hold
  rw [overwrite, if_neg (by simp [hdots]), lookup, lookup]
  split
  next => rfl
  next => exact Node.descend_replaceAt hdescend habove hkeep

private theorem ne_of_not_within {path other rest : List String} {name first : String}
    (h : ¬ path ++ [name] <+: other) (hother : other = path ++ first :: rest) : first ≠ name := by
  rintro rfl
  exact h ⟨rest, by rw [hother, List.append_assoc]; rfl⟩

/-- A directory in which one name stands for something else leaves every entry as it is that is not within
that name. -/
theorem entry_overwrite_entries {fs : Filesystem} {dir name other : String}
    {entries changed : List (String × Node)} (hdir : fs.lookup dir = some (.directory entries))
    (hchanged : ∀ first, first ≠ name → changed.lookup first = entries.lookup first)
    (hother : ¬ Path.segments dir ++ [name] <+: Path.segments other) :
    (fs.overwrite dir (.directory changed)).entry other = fs.entry other := by
  refine entry_overwrite hdir fun rest hrest => ?_
  cases rest with
  | nil => rfl
  | cons first rest =>
    have hsame := hchanged first (ne_of_not_within hother hrest)
    rw [Node.entryAt, Node.entryAt, Node.descend_directory_congr hsame]

/-- It also leaves every node as a whole that is neither above nor within that name. -/
theorem lookup_overwrite_entries {fs : Filesystem} {dir name other : String}
    {entries changed : List (String × Node)} (hdir : fs.lookup dir = some (.directory entries))
    (hchanged : ∀ first, first ≠ name → changed.lookup first = entries.lookup first)
    (hbelow : ¬ Path.segments dir ++ [name] <+: Path.segments other)
    (habove : ¬ Path.segments other <+: Path.segments dir ++ [name]) :
    (fs.overwrite dir (.directory changed)).lookup other = fs.lookup other := by
  have hdirAbove : ¬ Path.segments other <+: Path.segments dir :=
    fun hshort => habove (hshort.trans (List.prefix_append _ _))
  refine lookup_overwrite_of_keep hdir hdirAbove fun rest hrest => ?_
  cases rest with
  | nil =>
    rw [List.append_nil] at hrest
    exact absurd (hrest ▸ List.prefix_rfl) hdirAbove
  | cons first rest =>
    exact Node.descend_directory_congr (hchanged first (ne_of_not_within hbelow hrest)) rest

/-! ## Inserting -/

theorem insert_eq_ok_iff {fs after : Filesystem} {dir name : String} {node : Node} :
    fs.insert dir name node = .ok after ↔
      Path.isPlain name = true ∧ ∃ entries, fs.lookup dir = some (.directory entries) ∧
        entries.lookup name = none ∧
        after = fs.overwrite dir (.directory (Entries.place name node entries)) := by
  constructor
  · intro h
    simp only [insert] at h
    split at h
    next => cases h
    next hplain =>
      split at h
      next => cases h
      next => cases h
      next entries hdir =>
        split at h
        next => cases h
        next hfree =>
          refine ⟨by simpa using hplain, entries, hdir, ?_, (Except.ok.inj h).symm⟩
          rwa [Option.not_isSome_iff_eq_none] at hfree
  · rintro ⟨hplain, entries, hdir, hfree, rfl⟩
    simp only [insert, hplain, hdir, hfree]
    rfl

theorem entry_insert {fs after : Filesystem} {dir name other : String} {node : Node}
    (h : fs.insert dir name node = .ok after)
    (hother : ¬ Path.segments dir ++ [name] <+: Path.segments other) :
    after.entry other = fs.entry other := by
  obtain ⟨-, entries, hdir, -, rfl⟩ := insert_eq_ok_iff.1 h
  exact entry_overwrite_entries hdir
    (fun first hfirst => Entries.lookup_place_of_ne hfirst node entries) hother

/-- At and below the new name stands the inserted node. -/
theorem lookup_insert {fs after : Filesystem} {dir name other : String} {node : Node}
    {rest : List String} (h : fs.insert dir name node = .ok after)
    (hother : Path.segments other = Path.segments dir ++ name :: rest)
    (hrest : rest.any Path.isDots = false) : after.lookup other = node.descend rest := by
  obtain ⟨hplain, entries, hdir, -, rfl⟩ := insert_eq_ok_iff.1 h
  have hname := Path.isDots_of_isPlain hplain
  rw [lookup_overwrite hdir hother (by simp [hname, hrest]), Node.descend_cons, Node.child?,
    Entries.lookup_place_self]
  rfl

/-- An insertion leaves every node as it is that is neither above nor below the new one. -/
theorem lookup_insert_beside {fs after : Filesystem} {dir name other : String} {node : Node}
    (h : fs.insert dir name node = .ok after)
    (hbelow : ¬ Path.segments dir ++ [name] <+: Path.segments other)
    (habove : ¬ Path.segments other <+: Path.segments dir ++ [name]) :
    after.lookup other = fs.lookup other := by
  obtain ⟨-, entries, hdir, -, rfl⟩ := insert_eq_ok_iff.1 h
  exact lookup_overwrite_entries hdir
    (fun first hfirst => Entries.lookup_place_of_ne hfirst node entries) hbelow habove

/-- An insertion into a directory under a plain and free name succeeds. -/
theorem insert_succeeds {fs : Filesystem} {dir name path : String}
    (hname : Path.isPlain name = true) (hdir : fs.entry dir = .directory)
    (hpath : Path.segments path = Path.segments dir ++ [name]) (hfree : fs.entry path = .absent)
    (node : Node) : ∃ after, fs.insert dir name node = .ok after := by
  obtain ⟨entries, hlookup⟩ := entry_eq_directory_iff.1 hdir
  refine ⟨_, insert_eq_ok_iff.2 ⟨hname, entries, hlookup, ?_, rfl⟩⟩
  rw [← lookup_concat hpath hlookup (Path.isDots_of_isPlain hname)]
  exact entry_eq_absent_iff.1 hfree

/-! ## Removing -/

theorem remove_eq_ok_iff {fs after : Filesystem} {path : String} {node : Node} :
    fs.remove path = .ok (node, after) ↔
      ∃ dir name entries, Path.splitParent path = some (dir, name) ∧
        fs.lookup dir = some (.directory entries) ∧ entries.lookup name = some node ∧
        after = fs.overwrite dir (.directory (Entries.erase name entries)) := by
  constructor
  · intro h
    simp only [remove] at h
    split at h
    next => cases h
    next dir name hsplit =>
      split at h
      next entries hdir =>
        split at h
        next found hname =>
          obtain ⟨rfl, rfl⟩ := Prod.mk.inj (Except.ok.inj h)
          exact ⟨dir, name, entries, hsplit, hdir, hname, rfl⟩
        next => cases h
      next => cases h
  · rintro ⟨dir, name, entries, hsplit, hdir, hname, rfl⟩
    simp only [remove, hsplit, hdir, hname]

/-- A removal of anything but the root succeeds. -/
theorem remove_succeeds {fs : Filesystem} {path : String} {node : Node}
    (hnormal : Path.IsNormal path) (hroot : path ≠ Path.root) (h : fs.lookup path = some node) :
    ∃ after, fs.remove path = .ok (node, after) := by
  obtain ⟨dir, name, hsplit⟩ := hnormal.exists_splitParent hroot
  obtain ⟨-, -, hpath⟩ := hnormal.of_splitParent hsplit
  obtain ⟨entries, hdir⟩ := entry_eq_directory_iff.1 (entry_eq_directory_above h hpath)
  have hdots := (lookup_eq_some_iff.1 h).1
  have hname : Path.isDots name = false := by
    rw [hpath, List.any_append, Bool.or_eq_false_iff] at hdots
    simpa using hdots.2
  refine ⟨_, remove_eq_ok_iff.2 ⟨dir, name, entries, hsplit, hdir, ?_, rfl⟩⟩
  rw [← lookup_concat hpath hdir hname, h]

/-- Nothing is left at a path that was removed. -/
theorem lookup_remove_self {fs after : Filesystem} {path : String} {node : Node}
    (hnormal : Path.IsNormal path) (h : fs.remove path = .ok (node, after)) :
    after.lookup path = none := by
  obtain ⟨dir, name, entries, hsplit, hdir, -, rfl⟩ := remove_eq_ok_iff.1 h
  obtain ⟨-, -, hpath⟩ := hnormal.of_splitParent hsplit
  rw [lookup_overwrite_eq_ite hdir hpath, Node.descend_cons, Node.child?, Entries.lookup_erase_self]
  exact ite_self _

/-- A removal leaves every node as it is that is neither above nor below the removed one. -/
theorem lookup_remove_beside {fs after : Filesystem} {path other : String} {node : Node}
    (hnormal : Path.IsNormal path) (h : fs.remove path = .ok (node, after))
    (hbelow : ¬ Path.segments path <+: Path.segments other)
    (habove : ¬ Path.segments other <+: Path.segments path) :
    after.lookup other = fs.lookup other := by
  obtain ⟨dir, name, entries, hsplit, hdir, -, rfl⟩ := remove_eq_ok_iff.1 h
  obtain ⟨-, -, hpath⟩ := hnormal.of_splitParent hsplit
  rw [hpath] at hbelow habove
  exact lookup_overwrite_entries hdir
    (fun first hfirst => Entries.lookup_erase_of_ne hfirst entries) hbelow habove

theorem entry_remove {fs after : Filesystem} {path other : String} {node : Node}
    (hnormal : Path.IsNormal path) (h : fs.remove path = .ok (node, after))
    (hother : ¬ Path.segments path <+: Path.segments other) :
    after.entry other = fs.entry other := by
  obtain ⟨dir, name, entries, hsplit, hdir, -, rfl⟩ := remove_eq_ok_iff.1 h
  obtain ⟨-, -, hpath⟩ := hnormal.of_splitParent hsplit
  rw [hpath] at hother
  exact entry_overwrite_entries hdir
    (fun first hfirst => Entries.lookup_erase_of_ne hfirst entries) hother

end Filesystem

end VirtualShell
