import VirtualShell.Proofs.Tree.Removal
import VirtualShell.Proofs.Tree.Undo

/-!
# Trees with more in them

`Filesystem.withFile` is what touching a path leaves of a tree, and `Filesystem.withDirectories` is the tree
with directories all along a path. Both are functions that are always defined: where the thing cannot be made,
or where it is already, nothing changes. So what is made can be compared in any order (`orderless_withFile`,
`orderless_withDirectories`), whether the paths lie beside each other or one within the other.

For files the reason is that a file makes no room for another one, since nothing can be made below it. For
directories it is that one that was made on the way is no different from one that was asked for.

What changes with directories along a path is told in two laws. At the path and above it, whatever was missing
has become directories of the names that follow (`descend_withDirectories`); every other entry is as it was
(`entryAt_withDirectories`). Only a file on the way keeps them from being made (`Node.Blocked`), and then
everything is as it was.
-/

namespace VirtualShell

namespace Node

/-! ## Files -/

/-- A node with an empty file under a list of names. Nothing changes if something is there, or if the file has
no directory to be in. -/
def withFile : List String → Node → Node
  | [name], directory entries => directory (Entries.supply name emptyFile id entries)
  | name :: next :: rest, directory entries =>
    directory (Entries.adjust name (withFile (next :: rest)) entries)
  | _, node => node

@[simp]
theorem withFile_nil (node : Node) : node.withFile [] = node := by
  cases node <;> rfl

@[simp]
theorem withFile_file (path : List String) (content : String) (mode : Option String) :
    (file content mode).withFile path = file content mode := by
  rcases path with _ | ⟨name, _ | ⟨next, rest⟩⟩ <;> rfl

theorem withFile_single (name : String) (entries : List (String × Node)) :
    (directory entries).withFile [name] = directory (Entries.supply name emptyFile id entries) := rfl

theorem withFile_cons {path : List String} (h : path ≠ []) (name : String)
    (entries : List (String × Node)) :
    (directory entries).withFile (name :: path) =
      directory (Entries.adjust name (withFile path) entries) := by
  cases path with
  | nil => exact absurd rfl h
  | cons next rest => rfl

private theorem supply_adjust_withFile (name other : String) (path : List String)
    (entries : List (String × Node)) :
    Entries.supply name emptyFile id (Entries.adjust other (withFile path) entries) =
      Entries.adjust other (withFile path) (Entries.supply name emptyFile id entries) :=
  Entries.supply_adjust fun _ => ⟨fun _ => rfl, withFile_file path "" none⟩

/-- Neither the order of files nor their repetition matters. -/
theorem orderless_withFile : Orderless fun (node : Node) path => node.withFile path where
  comm node path other := by
    induction path generalizing other node with
    | nil => rw [withFile_nil, withFile_nil]
    | cons name path ih =>
      cases node with
      | file content mode => simp only [withFile_file]
      | directory entries =>
        rcases other with _ | ⟨first, other⟩
        · rw [withFile_nil, withFile_nil]
        · by_cases hpath : path = [] <;> by_cases hother : other = []
          · subst hpath hother
            simp only [withFile_single, Entries.supply_comm fun _ => ⟨rfl, fun _ => rfl⟩]
          · subst hpath
            simp only [withFile_single, withFile_cons hother, supply_adjust_withFile]
          · subst hother
            simp only [withFile_single, withFile_cons hpath, supply_adjust_withFile]
          · simp only [withFile_cons hpath, withFile_cons hother]
            rw [Entries.adjust_comm]
            intro _ child
            exact ih child other
  again node path := by
    induction path generalizing node with
    | nil => rw [withFile_nil, withFile_nil]
    | cons name path ih =>
      cases node with
      | file content mode => simp only [withFile_file]
      | directory entries =>
        by_cases hpath : path = []
        · subst hpath
          simp only [withFile_single]
          rw [Entries.supply_supply]
          exact fun _ => rfl
        · simp only [withFile_cons hpath, Entries.adjust_adjust ih]

/-- Where something stands, no file is made. -/
theorem withFile_eq_self {node old : Node} {path : List String} (h : node.descend path = some old) :
    node.withFile path = node := by
  induction path generalizing node with
  | nil => exact withFile_nil node
  | cons name path ih =>
    rw [descend_cons, Option.bind_eq_some_iff] at h
    obtain ⟨child, hchild, hpath⟩ := h
    cases node with
    | file content mode => cases hchild
    | directory entries =>
      have hlookup : entries.lookup name = some child := hchild
      by_cases hlast : path = []
      · subst hlast
        have hself : Entries.adjust name id entries = entries := Entries.adjust_eq_self fun _ _ => rfl
        rw [withFile_single, Entries.supply_of_lookup hlookup, hself]
      · rw [withFile_cons hlast, Entries.adjust_of_lookup hlookup, ih hpath, Entries.put_eq_self hlookup]

/-- A file is made in the directory that the names before the last one lead to. -/
theorem withFile_concat {node : Node} {path : List String} {entries : List (String × Node)} {name : String}
    (h : node.descend path = some (directory entries)) (hfree : entries.lookup name = none) :
    node.withFile (path ++ [name]) =
      node.replaceAt path (directory (Entries.place name emptyFile entries)) := by
  induction path generalizing node with
  | nil =>
    obtain rfl := Option.some.inj h
    rw [List.nil_append, withFile_single, Entries.supply_of_free hfree]
    rfl
  | cons first path ih =>
    rw [descend_cons, Option.bind_eq_some_iff] at h
    obtain ⟨child, hchild, hpath⟩ := h
    cases node with
    | file content mode => cases hchild
    | directory others =>
      have hlookup : others.lookup first = some child := hchild
      rw [List.cons_append, withFile_cons (by simp), Entries.adjust_of_lookup hlookup, ih hpath]
      simp only [replaceAt, hlookup]

/-- Without a directory before the last name, no file is made. -/
theorem withFile_concat_eq_self {node : Node} {path : List String}
    (h : ∀ entries, node.descend path ≠ some (directory entries)) (name : String) :
    node.withFile (path ++ [name]) = node := by
  induction path generalizing node with
  | nil =>
    cases node with
    | file content mode => exact withFile_file _ content mode
    | directory entries => exact absurd rfl (h entries)
  | cons first path ih =>
    cases node with
    | file content mode => exact withFile_file _ content mode
    | directory others =>
      rw [List.cons_append, withFile_cons (by simp), Entries.adjust_eq_self]
      intro child hchild
      apply ih
      intro entries hentries
      apply h entries
      rw [descend_cons, child?, hchild, Option.bind_some, hentries]

/-! ## Directories -/

/-- A node with directories for all of some names, each in the one before, if no file is in the way. -/
def withDirectories : List String → Node → Node
  | name :: rest, directory entries =>
    directory (Entries.supply name emptyDirectory (withDirectories rest) entries)
  | _, node => node

@[simp]
theorem withDirectories_nil (node : Node) : node.withDirectories [] = node := by
  cases node <;> rfl

@[simp]
theorem withDirectories_file (path : List String) (content : String) (mode : Option String) :
    (file content mode).withDirectories path = file content mode := by
  cases path <;> rfl

theorem withDirectories_cons (name : String) (path : List String) (entries : List (String × Node)) :
    (directory entries).withDirectories (name :: path) =
      directory (Entries.supply name emptyDirectory (withDirectories path) entries) := rfl

/-- Neither the order of the paths nor their repetition matters. -/
theorem orderless_withDirectories : Orderless fun (node : Node) path => node.withDirectories path where
  comm node path other := by
    induction path generalizing other node with
    | nil => simp only [withDirectories_nil]
    | cons name path ih =>
      cases node with
      | file content mode => simp only [withDirectories_file]
      | directory entries =>
        cases other with
        | nil => simp only [withDirectories_nil]
        | cons first other =>
          simp only [withDirectories_cons]
          rw [Entries.supply_comm]
          intro _
          exact ⟨rfl, fun child => ih child other⟩
  again node path := by
    induction path generalizing node with
    | nil => simp only [withDirectories_nil]
    | cons name path ih =>
      cases node with
      | file content mode => simp only [withDirectories_file]
      | directory entries => simp only [withDirectories_cons, Entries.supply_supply ih]

/-- A directory that was made on the way holds the next one and nothing else. -/
theorem names_withDirectories (path : List String) :
    ∃ entries, emptyDirectory.withDirectories path = directory entries ∧
      Entries.names entries = path.take 1 := by
  cases path with
  | nil => exact ⟨[], rfl, rfl⟩
  | cons name path => exact ⟨_, rfl, rfl⟩

/-- A file stands at some place along a list of names, the end included. -/
def Blocked (node : Node) (path : List String) : Prop :=
  ∃ above content mode, above <+: path ∧ node.descend above = some (file content mode)

theorem blocked_file (content : String) (mode : Option String) (path : List String) :
    (file content mode).Blocked path :=
  ⟨[], content, mode, List.nil_prefix, rfl⟩

theorem not_blocked_nil (entries : List (String × Node)) : ¬ (directory entries).Blocked [] := by
  rintro ⟨above, content, mode, habove, hfile⟩
  rw [List.prefix_nil.1 habove] at hfile
  cases hfile

/-- Below a directory, what is in the way is below one of its entries. -/
theorem blocked_cons {entries : List (String × Node)} {name : String} {path : List String} :
    (directory entries).Blocked (name :: path) ↔
      ∃ child, entries.lookup name = some child ∧ child.Blocked path := by
  constructor
  · rintro ⟨above, content, mode, habove, hfile⟩
    cases above with
    | nil => cases hfile
    | cons first above =>
      obtain ⟨rfl, hprefix⟩ := List.cons_prefix_cons.1 habove
      rw [descend_cons, Option.bind_eq_some_iff] at hfile
      obtain ⟨child, hchild, hfile⟩ := hfile
      exact ⟨child, hchild, above, content, mode, hprefix, hfile⟩
  · rintro ⟨child, hchild, above, content, mode, hprefix, hfile⟩
    refine ⟨name :: above, content, mode, List.cons_prefix_cons.2 ⟨rfl, hprefix⟩, ?_⟩
    rw [descend_cons, child?, hchild, Option.bind_some, hfile]

theorem not_blocked_emptyDirectory (path : List String) : ¬ emptyDirectory.Blocked path := by
  cases path with
  | nil => exact not_blocked_nil []
  | cons name path =>
    rw [emptyDirectory, blocked_cons]
    rintro ⟨child, hchild, -⟩
    cases hchild

/-- Where a file is in the way, nothing is made, not even before it. -/
theorem withDirectories_eq_self {node : Node} {path : List String} (h : node.Blocked path) :
    node.withDirectories path = node := by
  induction path generalizing node with
  | nil => exact withDirectories_nil node
  | cons name path ih =>
    cases node with
    | file content mode => exact withDirectories_file _ content mode
    | directory entries =>
      obtain ⟨child, hchild, hblocked⟩ := blocked_cons.1 h
      rw [withDirectories_cons, Entries.supply_of_lookup hchild, Entries.adjust_of_lookup hchild,
        ih hblocked, Entries.put_eq_self hchild]

/-- Along the path, directories of the names that follow are added to what was there, or to an empty
directory. -/
theorem descend_withDirectories {node : Node} {above rest : List String}
    (h : ¬ node.Blocked (above ++ rest)) :
    (node.withDirectories (above ++ rest)).descend above =
      some (((node.descend above).getD emptyDirectory).withDirectories rest) := by
  induction above generalizing node with
  | nil => rfl
  | cons name above ih =>
    rw [List.cons_append] at h ⊢
    cases node with
    | file content mode => exact absurd (blocked_file content mode _) h
    | directory entries =>
      rw [withDirectories_cons, descend_cons, descend_cons, child?, child?, Entries.lookup_supply_self,
        Option.bind_some]
      cases hchild : entries.lookup name with
      | none =>
        -- below a name that is missing, an empty directory and nothing at all lead nowhere alike
        rw [Option.getD_none, Option.bind_none, Option.getD_none, ih (not_blocked_emptyDirectory _)]
        cases above with
        | nil => rfl
        | cons next above => rfl
      | some child =>
        rw [Option.getD_some, Option.bind_some, ih]
        exact fun hblocked => h (blocked_cons.2 ⟨child, hchild, hblocked⟩)

/-- Everything that is not on the path is as it was. -/
theorem entryAt_withDirectories {path other : List String} (h : ¬ other <+: path) (node : Node) :
    (node.withDirectories path).entryAt other = node.entryAt other := by
  induction path generalizing node other with
  | nil => rw [withDirectories_nil]
  | cons name path ih =>
    cases node with
    | file content mode => rw [withDirectories_file]
    | directory entries =>
      cases other with
      | nil => exact absurd List.nil_prefix h
      | cons first other =>
        rw [withDirectories_cons, entryAt, entryAt]
        by_cases hfirst : first = name
        · subst hfirst
          have hother : ¬ other <+: path := fun hprefix => h (List.cons_prefix_cons.2 ⟨rfl, hprefix⟩)
          rw [descend_cons, descend_cons, child?, child?, Entries.lookup_supply_self, Option.bind_some,
            ← entryAt, ih hother]
          cases entries.lookup first with
          | none =>
            cases other with
            | nil => exact absurd List.nil_prefix hother
            | cons next other => rfl
          | some child => rfl
        · rw [descend_directory_congr (Entries.lookup_supply_of_ne hfirst _ _ entries)]

end Node

namespace Filesystem

/-- The tree with an empty file at a path, if one can be made there and nothing is there. -/
def withFile : Filesystem → String → Filesystem :=
  along Node.withFile

/-- The tree with a directory at a path and at all above it, if no file is in the way. -/
def withDirectories : Filesystem → String → Filesystem :=
  along Node.withDirectories

theorem orderless_withFile : Orderless withFile :=
  orderless_along Node.orderless_withFile

theorem orderless_withDirectories : Orderless withDirectories :=
  orderless_along Node.orderless_withDirectories

variable {fs : Filesystem} {path other : String}

/-- Where something stands, no file is made. -/
theorem withFile_eq_self {node : Node} (h : fs.lookup path = some node) : fs.withFile path = fs := by
  obtain ⟨hdots, hdescend⟩ := lookup_eq_some_iff.1 h
  rw [withFile, along, hdots, Node.withFile_eq_self hdescend]
  rfl

/-- A path holds a file at or above it if and only if its names lead to one on the way. -/
theorem blocked_iff (hdots : (Path.segments path).any Path.isDots = false) :
    fs.root.Blocked (Path.segments path) ↔ ∃ above content mode,
      Path.segments above <+: Path.segments path ∧ fs.entry above = .file content mode := by
  constructor
  · rintro ⟨names, content, mode, hnames, hfile⟩
    have hsegments : Path.segments (Path.ofSegments names) = names :=
      Path.segments_ofSegments fun name hname => Path.isSegment_of_mem_segments (hnames.subset hname)
    have hplain : names.any Path.isDots = false := by
      rw [List.any_eq_false] at hdots ⊢
      exact fun name hname => hdots name (hnames.subset hname)
    refine ⟨Path.ofSegments names, content, mode, hsegments.symm ▸ hnames, ?_⟩
    rw [entry_eq_file_iff, lookup_eq_some_iff, hsegments]
    exact ⟨hplain, hfile⟩
  · rintro ⟨above, content, mode, habove, hfile⟩
    rw [entry_eq_file_iff, lookup_eq_some_iff] at hfile
    exact ⟨Path.segments above, content, mode, habove, hfile.2⟩

/-- Where no directories can be made, everything is as it was. -/
theorem withDirectories_eq_self
    (h : (Path.segments path).any Path.isDots = false → fs.root.Blocked (Path.segments path)) :
    fs.withDirectories path = fs := by
  simp only [withDirectories, along]
  split
  next => rfl
  next hdots => rw [Node.withDirectories_eq_self (h (by simpa using hdots))]

/-- Along the path stand directories of the names that follow, added to what was there. -/
theorem lookup_withDirectories {rest : List String} (hdots : (Path.segments path).any Path.isDots = false)
    (hopen : ¬ fs.root.Blocked (Path.segments path))
    (hother : Path.segments other ++ rest = Path.segments path) :
    (fs.withDirectories path).lookup other =
      some (((fs.lookup other).getD Node.emptyDirectory).withDirectories rest) := by
  have hplain : (Path.segments other).any Path.isDots = false := by
    rw [← hother, List.any_append, Bool.or_eq_false_iff] at hdots
    exact hdots.1
  rw [← hother] at hopen
  simp only [withDirectories, along, lookup, hdots, hplain, Bool.false_eq_true, if_false]
  rw [← hother, Node.descend_withDirectories hopen]

/-- Everything at or above the path is a directory. -/
theorem entry_withDirectories_above (hdots : (Path.segments path).any Path.isDots = false)
    (hopen : ¬ fs.root.Blocked (Path.segments path)) (hother : Path.segments other <+: Path.segments path) :
    (fs.withDirectories path).entry other = .directory := by
  obtain ⟨rest, hrest⟩ := hother
  rw [entry, lookup_withDirectories hdots hopen hrest]
  cases hlookup : fs.lookup other with
  | none => cases rest <;> rfl
  | some node =>
    cases node with
    | directory entries => cases rest <;> rfl
    | file content mode =>
      refine absurd ?_ hopen
      exact ⟨_, content, mode, ⟨rest, hrest⟩, (lookup_eq_some_iff.1 hlookup).2⟩

/-- Everything else is as it was. -/
theorem entry_withDirectories (h : ¬ Path.segments other <+: Path.segments path) :
    (fs.withDirectories path).entry other = fs.entry other := by
  simp only [withDirectories, along]
  split
  next => rfl
  next =>
    simp only [entry, lookup]
    split
    next => rfl
    next => exact Node.entryAt_withDirectories h fs.root

end Filesystem

end VirtualShell
