import VirtualShell.Proofs.Entries.Change
import VirtualShell.Proofs.Repetition
import VirtualShell.Proofs.Tree.Entry

/-!
# Trees without some paths

`Filesystem.without` is what a removal leaves, told as a function of the tree and the path that is always
defined: where nothing stands, nothing is taken out. So removals can be compared in any order. They commute,
and a second one of the same path does nothing (`orderless_without`), whether the paths lie beside each other
or one within the other. What several removals leave is therefore a matter of the set of the paths
(`withoutAll_congr`).

The laws hold for the lists of entries as they are, in order or not.
-/

namespace VirtualShell

namespace Node

/-- A node without what a list of names leads to. The node itself is never taken out. -/
def without : List String → Node → Node
  | [name], directory entries => directory (Entries.erase name entries)
  | name :: next :: rest, directory entries =>
    directory (Entries.adjust name (without (next :: rest)) entries)
  | _, node => node

@[simp]
theorem without_nil (node : Node) : node.without [] = node := by
  cases node <;> rfl

@[simp]
theorem without_file (path : List String) (content : String) (mode : Option String) :
    (file content mode).without path = file content mode := by
  rcases path with _ | ⟨name, _ | ⟨next, rest⟩⟩ <;> rfl

theorem without_single (name : String) (entries : List (String × Node)) :
    (directory entries).without [name] = directory (Entries.erase name entries) := rfl

theorem without_cons {path : List String} (h : path ≠ []) (name : String)
    (entries : List (String × Node)) :
    (directory entries).without (name :: path) = directory (Entries.adjust name (without path) entries) := by
  cases path with
  | nil => exact absurd rfl h
  | cons next rest => rfl

/-- Where nothing stands, nothing is taken out. -/
theorem without_eq_self {node : Node} {path : List String} (h : node.descend path = none) :
    node.without path = node := by
  induction path generalizing node with
  | nil => exact without_nil node
  | cons name path ih =>
    cases node with
    | file content mode => exact without_file _ content mode
    | directory entries =>
      rw [descend_cons, child?] at h
      cases path with
      | nil =>
        rw [without_single, Entries.erase_eq_self]
        cases hchild : entries.lookup name with
        | none => rfl
        | some child =>
          rw [hchild] at h
          cases h
      | cons next rest =>
        rw [without_cons (List.cons_ne_nil _ _), Entries.adjust_eq_self]
        intro child hchild
        rw [hchild] at h
        exact ih h

/-- Taking out what two lists of names lead to can be done in either order. -/
theorem without_comm (path other : List String) (node : Node) :
    (node.without path).without other = (node.without other).without path := by
  induction path generalizing other node with
  | nil => rw [without_nil, without_nil]
  | cons name path ih =>
    cases node with
    | file content mode => simp only [without_file]
    | directory entries =>
      rcases other with _ | ⟨first, other⟩
      · rw [without_nil, without_nil]
      · by_cases hpath : path = [] <;> by_cases hother : other = []
        · subst hpath hother
          simp only [without_single, Entries.erase_comm]
        · subst hpath
          simp only [without_single, without_cons hother, Entries.erase_adjust]
        · subst hother
          simp only [without_single, without_cons hpath, Entries.erase_adjust]
        · simp only [without_cons hpath, without_cons hother]
          rw [Entries.adjust_comm]
          intro _ child
          exact ih other child

/-- What was taken out is not there to be taken out again. -/
theorem without_without (path : List String) (node : Node) :
    (node.without path).without path = node.without path := by
  induction path generalizing node with
  | nil => exact without_nil _
  | cons name path ih =>
    cases node with
    | file content mode => simp only [without_file]
    | directory entries =>
      by_cases hpath : path = []
      · subst hpath
        simp only [without_single, Entries.erase_erase]
      · simp only [without_cons hpath, Entries.adjust_adjust ih]

/-- Taking a name out of a directory further down. -/
theorem replaceAt_erase {node : Node} {path : List String} {entries : List (String × Node)}
    (h : node.descend path = some (directory entries)) (name : String) :
    node.replaceAt path (directory (Entries.erase name entries)) = node.without (path ++ [name]) := by
  induction path generalizing node with
  | nil =>
    obtain rfl := Option.some.inj h
    rfl
  | cons first path ih =>
    rw [descend_cons, Option.bind_eq_some_iff] at h
    obtain ⟨child, hchild, hpath⟩ := h
    cases node with
    | file content mode => cases hchild
    | directory others =>
      have hlookup : others.lookup first = some child := hchild
      rw [List.cons_append, without_cons (by simp), Entries.adjust_of_lookup hlookup, ← ih hpath]
      simp only [replaceAt, hlookup]

end Node

namespace Filesystem

variable {fs : Filesystem} {path other : String}

/-- A change of what a list of names leads to, for a path. Through `.` and `..` nothing is reached, so nothing
changes. -/
def along (change : List String → Node → Node) (fs : Filesystem) (path : String) : Filesystem :=
  let segments := Path.segments path
  if segments.any Path.isDots then fs else ⟨change segments fs.root⟩

theorem orderless_along {change : List String → Node → Node}
    (h : Orderless fun (node : Node) path => change path node) : Orderless (along change) where
  comm fs path other := by
    by_cases hpath : (Path.segments path).any Path.isDots = true <;>
      by_cases hother : (Path.segments other).any Path.isDots = true <;>
        simp only [along, hpath, hother, Bool.false_eq_true, if_true, if_false]
    exact congrArg Filesystem.mk (h.comm fs.root (Path.segments path) (Path.segments other))
  again fs path := by
    by_cases hpath : (Path.segments path).any Path.isDots = true <;>
      simp only [along, hpath, Bool.false_eq_true, if_true, if_false]
    exact congrArg Filesystem.mk (h.again fs.root (Path.segments path))

/-- The tree without what stands at a path. The root stays. -/
def without (fs : Filesystem) (path : String) : Filesystem :=
  let segments := Path.segments path
  if segments.any Path.isDots then fs else ⟨fs.root.without segments⟩

/-- Where nothing stands, nothing is taken out. -/
theorem without_eq_self (h : fs.lookup path = none) : fs.without path = fs := by
  simp only [lookup] at h
  simp only [without]
  split
  next => rfl
  next hdots =>
    rw [if_neg hdots] at h
    rw [Node.without_eq_self h]

/-- What a removal leaves. -/
theorem remove_eq_without {node : Node} (hnormal : Path.IsNormal path) (hroot : path ≠ Path.root)
    (h : fs.lookup path = some node) : fs.remove path = .ok (node, fs.without path) := by
  obtain ⟨after, hafter⟩ := remove_succeeds hnormal hroot h
  obtain ⟨dir, name, entries, hsplit, hdir, -, rfl⟩ := remove_eq_ok_iff.1 hafter
  obtain ⟨-, -, hpath⟩ := hnormal.of_splitParent hsplit
  obtain ⟨hdots, hdescend⟩ := lookup_eq_some_iff.1 hdir
  obtain ⟨hplain, -⟩ := lookup_eq_some_iff.1 h
  rw [hafter, overwrite, without, hdots, hplain, hpath, Node.replaceAt_erase hdescend]

/-- Without a path, nothing stands within it, and everything else is as it was. -/
theorem entry_without (hnormal : Path.IsNormal path) (hroot : path ≠ Path.root) (other : String) :
    (fs.without path).entry other =
      if Path.segments path <+: Path.segments other then .absent else fs.entry other := by
  cases hlookup : fs.lookup path with
  | none =>
    rw [without_eq_self hlookup]
    split
    next hwithin => exact entry_eq_absent_iff.2 (lookup_eq_none_below hlookup hwithin)
    next => rfl
  | some node =>
    have hremove := remove_eq_without hnormal hroot hlookup
    split
    next hwithin =>
      exact entry_eq_absent_iff.2 (lookup_eq_none_below (lookup_remove_self hnormal hremove) hwithin)
    next hbeside => exact entry_remove hnormal hremove hbeside

/-- Paths can be taken out in any order, and a second time changes nothing. -/
theorem orderless_without : Orderless without :=
  orderless_along ⟨fun node path other => Node.without_comm path other node,
    fun node path => Node.without_without path node⟩

/-! ## Several paths -/

/-- The tree without what stands at some paths. -/
def withoutAll (fs : Filesystem) (paths : List String) : Filesystem :=
  paths.foldl without fs

@[simp]
theorem withoutAll_nil (fs : Filesystem) : fs.withoutAll [] = fs := rfl

@[simp]
theorem withoutAll_cons (fs : Filesystem) (path : String) (rest : List String) :
    fs.withoutAll (path :: rest) = (fs.without path).withoutAll rest := rfl

/-- Without some paths, nothing stands within any of them, and everything else is as it was. -/
theorem entry_withoutAll {paths : List String}
    (hpaths : ∀ path ∈ paths, Path.IsNormal path ∧ path ≠ Path.root) (fs : Filesystem) (other : String) :
    (fs.withoutAll paths).entry other =
      if ∃ path ∈ paths, Path.segments path <+: Path.segments other then .absent
      else fs.entry other := by
  induction paths generalizing fs with
  | nil => simp
  | cons path rest ih =>
    obtain ⟨⟨hnormal, hroot⟩, hrest⟩ := List.forall_mem_cons.1 hpaths
    rw [withoutAll_cons, ih hrest, entry_without hnormal hroot]
    by_cases hpath : Path.segments path <+: Path.segments other
    · simp [hpath]
    · simp [hpath]

/-- Neither the order of the paths nor how often they are taken out matters. -/
theorem withoutAll_congr {paths others : List String} (h : ∀ path, path ∈ paths ↔ path ∈ others)
    (fs : Filesystem) : fs.withoutAll paths = fs.withoutAll others :=
  orderless_without.foldl_congr h fs

end Filesystem

end VirtualShell
