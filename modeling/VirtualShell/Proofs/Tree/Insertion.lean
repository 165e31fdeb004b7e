import VirtualShell.Proofs.Entries
import VirtualShell.Proofs.Tree.Resolution

/-!
# Insertion

The one way in which anything enters a tree, told by lookups alone. Below the new name an observer finds what
stands in the inserted node, everywhere else what stood there before, and a failure leaves the tree alone. Why
an insertion fails is told by `Obstacle`: the reasons exclude each other, so their order is part of what they
say. An insertion that meets no obstacle succeeds.

What the entries of a directory look like inside does not matter here. They need not be in order, and names
that no path can spell do not get in the way.
-/

namespace VirtualShell

theorem Entries.lookup_eq_none_iff {β : Type} {name : String} {entries : List (String × β)} :
    entries.lookup name = none ↔ name ∉ names entries := by
  constructor
  · exact not_mem_names_of_lookup
  · intro hname
    rw [Option.eq_none_iff_forall_ne_some]
    intro value hvalue
    exact hname (mem_names_of_mem (mem_of_lookup hvalue))

namespace Edited

variable {ε : Type} {before after : Filesystem} {result : Except ε Filesystem} {cause : ε}

theorem failure_ofExcept_eq_some_iff :
    (ofExcept before result).failure = some cause ↔ result = .error cause := by
  cases result <;> simp [ofExcept]

theorem failure_ofExcept_eq_none_iff :
    (ofExcept before result).failure = none ↔ ∃ after, result = .ok after := by
  cases result <;> simp [ofExcept]

/-- A single edit that fails has not touched the tree. -/
theorem tree_ofExcept_of_failure (h : (ofExcept before result).failure ≠ none) :
    (ofExcept before result).tree = before := by
  cases result with
  | ok after => exact absurd rfl h
  | error cause => rfl

end Edited

/-- A name that one segment spells and that means itself wherever it stands. -/
def Path.Plain (name : String) : Prop :=
  (name ≠ "" ∧ '/' ∉ name.toList) ∧ name ≠ "." ∧ name ≠ ".."

theorem Path.isPlain_iff_plain {name : String} : isPlain name = true ↔ Plain name := by
  rw [isPlain_iff, isDots_eq_false_iff, IsSegment, Plain]

namespace Filesystem

/-- What keeps a name from being added to a directory. A reason counts only if those before it do not. -/
inductive Obstacle (fs : Filesystem) (dir name : String) : TreeError → Prop
  | badName (hname : ¬ Path.Plain name) : Obstacle fs dir name (.badName name)
  /-- Nothing stands where the directory should be. -/
  | missing (hname : Path.Plain name) (hdir : fs.lookup dir = none) : Obstacle fs dir name (.missing dir)
  /-- A file stands there. -/
  | notDirectory (hname : Path.Plain name) {content : String} {mode : Option String}
      (hdir : fs.lookup dir = some (.file content mode)) : Obstacle fs dir name (.notDirectory dir)
  /-- The directory has an entry of that name. -/
  | occupied (hname : Path.Plain name) {entries : List (String × Node)}
      (hdir : fs.lookup dir = some (.directory entries)) (htaken : name ∈ Entries.names entries) :
      Obstacle fs dir name (.occupied (Path.join dir name))

variable {fs after : Filesystem} {dir name : String} {node : Node}

/-- An insertion fails if and only if it meets an obstacle, and for that reason. -/
theorem insert_eq_error_iff {cause : TreeError} :
    fs.insert dir name node = .error cause ↔ Obstacle fs dir name cause := by
  constructor
  · intro h
    simp only [insert] at h
    split at h
    next hbad =>
      cases h
      refine .badName fun hname => ?_
      rw [Path.isPlain_iff_plain.2 hname] at hbad
      cases hbad
    next hgood =>
      have hname : Path.Plain name := Path.isPlain_iff_plain.1 (by simpa using hgood)
      split at h
      next hdir =>
        cases h
        exact .missing hname hdir
      next hdir =>
        cases h
        exact .notDirectory hname hdir
      next entries hdir =>
        split at h
        next htaken =>
          cases h
          obtain ⟨old, hold⟩ := Option.isSome_iff_exists.1 htaken
          exact .occupied hname hdir (Entries.mem_names_of_mem (Entries.mem_of_lookup hold))
        next => cases h
  · intro h
    cases h with
    | badName hname =>
      rw [← Path.isPlain_iff_plain] at hname
      rw [insert, if_pos (by simpa using hname)]
    | missing hname hdir =>
      rw [insert, Path.isPlain_iff_plain.2 hname, hdir]
      rfl
    | notDirectory hname hdir =>
      rw [insert, Path.isPlain_iff_plain.2 hname, hdir]
      rfl
    | @occupied hname entries hdir htaken =>
      have hsome : (entries.lookup name).isSome = true := by
        rw [Option.isSome_iff_ne_none]
        exact fun hnone => Entries.lookup_eq_none_iff.1 hnone htaken
      simp only [insert, Path.isPlain_iff_plain.2 hname, hdir, hsome]
      rfl

/-- An insertion succeeds under a plain name that a directory does not have yet. -/
theorem insert_succeeds_iff :
    (∃ after, fs.insert dir name node = .ok after) ↔ Path.Plain name ∧
      ∃ entries, fs.lookup dir = some (.directory entries) ∧ name ∉ Entries.names entries := by
  simp only [insert_eq_ok_iff, Path.isPlain_iff_plain, Entries.lookup_eq_none_iff]
  constructor
  · rintro ⟨_, hname, entries, hdir, hfree, -⟩
    exact ⟨hname, entries, hdir, hfree⟩
  · rintro ⟨hname, entries, hdir, hfree⟩
    exact ⟨_, hname, entries, hdir, hfree, rfl⟩

/-- Inside the inserted node a path means what it means in a tree that has the node for its root. -/
theorem lookup_insert_inside (h : fs.insert dir name node = .ok after) {path below : String}
    (hpath : Path.segments path = Path.segments dir ++ name :: Path.segments below) :
    after.lookup path = lookup ⟨node⟩ below := by
  obtain ⟨hplain, entries, hdir, -, rfl⟩ := insert_eq_ok_iff.1 h
  rw [lookup_overwrite_eq_ite hdir hpath, List.any_cons, Path.isDots_of_isPlain hplain, Bool.false_or,
    Node.descend_cons, Node.child?, Entries.lookup_place_self]
  rfl

/-- **What inserting a node does, and when it can be done.** It succeeds if and only if the name is a single
segment other than `.` and `..`, and the path leads to a directory without an entry of that name. Then a path
that goes on from the new name stands for what its rest stands for inside the node, and every other path has
the entry that it had. If it fails, the tree is as it was, and the cause is the first of the obstacles that is
met. The tree may be any tree, and the path of the directory may be spelled in any way. -/
theorem insertion_by_lookup (fs : Filesystem) (dir name : String) (node : Node) :
    let edited := Edited.ofExcept fs (fs.insert dir name node)
    (edited.failure = none ↔ Path.Plain name ∧
      ∃ entries, fs.lookup dir = some (.directory entries) ∧ name ∉ Entries.names entries) ∧
    (edited.failure = none →
      (∀ path below, Path.segments path = Path.segments dir ++ name :: Path.segments below →
        edited.tree.lookup path = lookup ⟨node⟩ below) ∧
      ∀ path, ¬ Path.segments dir ++ [name] <+: Path.segments path →
        edited.tree.entry path = fs.entry path) ∧
    (edited.failure ≠ none → edited.tree = fs) ∧
    ∀ cause, edited.failure = some cause ↔ Obstacle fs dir name cause := by
  intro edited
  have hsuccess : edited.failure = none ↔ ∃ after, fs.insert dir name node = .ok after :=
    Edited.failure_ofExcept_eq_none_iff
  refine ⟨hsuccess.trans insert_succeeds_iff, fun hdone => ?_, Edited.tree_ofExcept_of_failure,
    fun cause => ?_⟩
  · obtain ⟨after, hinsert⟩ := hsuccess.1 hdone
    have hedited : edited = ⟨after, none⟩ := congrArg (Edited.ofExcept fs) hinsert
    rw [hedited]
    exact ⟨fun path below => lookup_insert_inside hinsert, fun path => entry_insert hinsert⟩
  · exact Edited.failure_ofExcept_eq_some_iff.trans insert_eq_error_iff

/-- A directory with a file in it is put into the home directory of the teaching tree, whose path is spelled
with a doubled slash. Under a name that is taken, nothing changes. -/
theorem insertion_by_lookup_teaching :
    let fs : Filesystem := ⟨Node.teachingTree⟩
    let node := Node.directory [("a", .file "text" none)]
    let edited := Edited.ofExcept fs (fs.insert "/home//user" "..." node)
    let refused := Edited.ofExcept fs (fs.insert "/home//user" "documents" node)
    edited.failure = none ∧
      edited.tree.lookup "/home/user/.../a" = some (.file "text" none) ∧
      edited.tree.lookup "/home/user/.../a/.." = none ∧
      edited.tree.entry "/home/user/documents" = .directory ∧
      refused.failure ≠ none ∧ refused.tree = fs := by
  intro fs node edited refused
  obtain ⟨-, heffect, -, -⟩ := insertion_by_lookup fs "/home//user" "..." node
  obtain ⟨-, -, hsame, -⟩ := insertion_by_lookup fs "/home//user" "documents" node
  have hdone : edited.failure = none := by
    rw [← Option.isNone_iff_eq_none]
    decide
  have hrefused : refused.failure ≠ none := by
    rw [← Option.isSome_iff_ne_none]
    decide
  obtain ⟨hinside, helsewhere⟩ := heffect hdone
  refine ⟨hdone, ?_, ?_, ?_, hrefused, hsame hrefused⟩
  · rw [hinside _ "a" (by decide)]
    decide
  · rw [hinside _ "a/.." (by decide)]
    decide
  · rw [helsewhere _ (by decide)]
    decide

end Filesystem

end VirtualShell
