import VirtualShell.Proofs.Tree.Entry
import VirtualShell.Tree.Teaching

/-!
# What an expression stands for

An expression is written out as an absolute path, and the path is read again from the root. Without that
detour an expression spells a list of names (`Path.spelled`) and stands for the node to which one edge for
each name leads (`Node.Reaches`), provided that no name is `.` or `..`. The names are those of the absolute
path (`Path.segments_absolute`), so that writing the path loses nothing: typed in any other directory, it
stands for the same node.
-/

namespace VirtualShell

namespace Path

/-- The names that an expression spells from the root on if it is typed in the directory `cwd`. -/
def spelled (expr cwd : String) : List String :=
  if expr = "." then segments cwd
  else if expr = ".." then (segments cwd).dropLast
  else if Text.startsWith expr "/" then segments expr
  else segments cwd ++ segments expr

theorem IsNormal.normalize_eq {path : String} (h : IsNormal path) : normalize path = path := by
  rw [normalize, isDots_eq_false_of_startsWith h.startsWith]
  -- a path without dots is normalized through its segments
  exact h

/-- The absolute path has the names that the expression spells. -/
theorem segments_absolute {cwd : String} (h : IsNormal cwd) (expr : String) :
    segments (absolute expr cwd) = spelled expr cwd := by
  unfold absolute spelled
  split
  next => rw [h.normalize_eq]
  next =>
    split
    next => rw [h.normalize_eq, h.segments_parent]
    next =>
      split
      next =>
        apply segments_ofSegments
        intro segment hmem
        exact isSegment_of_mem_segments hmem
      next =>
        apply segments_ofSegments
        intro segment hmem
        rcases List.mem_append.1 hmem with hcwd | hexpr
        · exact isSegment_of_mem_segments hcwd
        · exact isSegment_of_mem_segments hexpr

end Path

namespace Node

/-- One edge from a directory to an entry for each name. -/
inductive Reaches : Node → List String → Node → Prop
  | here (node : Node) : Reaches node [] node
  | edge {entries : List (String × Node)} {name : String} {child target : Node} {rest : List String}
      (hchild : entries.lookup name = some child) (hrest : Reaches child rest target) :
      Reaches (directory entries) (name :: rest) target

/-- Descending finds what edges lead to. -/
theorem descend_eq_some_iff {node target : Node} {names : List String} :
    node.descend names = some target ↔ node.Reaches names target := by
  constructor
  · intro h
    induction names generalizing node with
    | nil =>
      obtain rfl := Option.some.inj h
      exact .here node
    | cons name rest ih =>
      rw [descend_cons, Option.bind_eq_some_iff] at h
      obtain ⟨child, hchild, hrest⟩ := h
      cases node with
      | file content mode => cases hchild
      | directory entries => exact .edge hchild (ih hrest)
  · intro h
    induction h with
    | here => rfl
    | edge hchild _ ih => rw [descend_cons, child?, hchild, Option.bind_some, ih]

end Node

namespace Filesystem

/-- Looking a path up follows one edge for each of its segments, none of which may be `.` or `..`. -/
theorem lookup_eq_some_iff_reaches {fs : Filesystem} {path : String} {node : Node} :
    fs.lookup path = some node ↔
      (∀ name ∈ Path.segments path, name ≠ "." ∧ name ≠ "..") ∧
        fs.root.Reaches (Path.segments path) node := by
  rw [lookup_eq_some_iff, Node.descend_eq_some_iff, List.any_eq_false]
  simp only [Bool.not_eq_true, Path.isDots_eq_false_iff]

/-- Whether an expression stands for something is a matter of its absolute path, in whatever directory
that is typed. -/
theorem resolve_absolute (fs : Filesystem) {expr : String} (h : expr ≠ "") (cwd dir : String) :
    fs.resolve (Path.absolute expr cwd) dir = fs.resolve expr cwd := by
  have hnormal : Path.IsNormal (Path.absolute expr cwd) := Path.isNormal_absolute expr cwd
  have hne : Path.absolute expr cwd ≠ "" := hnormal.ne_empty
  unfold resolve
  rw [if_neg (by simpa using hne), if_neg (by simpa using h), hnormal.absolute_eq]

/-- **What an expression stands for.** Typed in a directory with a normal path, an expression stands for
a node if and only if it is not empty, none of the names that it spells is `.` or `..`, and one edge for
each name leads from the root to the node. Its absolute path stands for the same in every directory. -/
theorem resolve_eq_some_iff_reaches {cwd : String} (hcwd : Path.IsNormal cwd) (fs : Filesystem)
    (expr : String) :
    (∀ node, fs.resolve expr cwd = some node ↔
      expr ≠ "" ∧ (∀ name ∈ Path.spelled expr cwd, name ≠ "." ∧ name ≠ "..") ∧
        fs.root.Reaches (Path.spelled expr cwd) node) ∧
    (expr ≠ "" → ∀ dir, fs.resolve (Path.absolute expr cwd) dir = fs.resolve expr cwd) := by
  constructor
  · intro node
    by_cases hempty : expr = ""
    · subst hempty
      constructor
      · intro h
        cases h
      · intro h
        exact absurd rfl h.1
    · rw [resolve, if_neg (by simpa using hempty), lookup_eq_some_iff_reaches,
        Path.segments_absolute hcwd expr]
      exact (and_iff_right hempty).symm
  · intro hexpr dir
    exact resolve_absolute fs hexpr cwd dir

/-- A relative path with a doubled slash, in the home directory of the teaching tree. -/
theorem resolve_eq_some_iff_reaches_teaching :
    let fs : Filesystem := ⟨Node.teachingTree⟩
    Path.IsNormal "/home/user" ∧ "documents//readme.txt" ≠ "" ∧
      ∃ node, fs.resolve "documents//readme.txt" "/home/user" = some node ∧
        fs.root.Reaches ["home", "user", "documents", "readme.txt"] node ∧
        fs.resolve (Path.absolute "documents//readme.txt" "/home/user") "/etc" = some node := by
  intro fs
  have hcwd : Path.IsNormal "/home/user" := by decide +kernel
  have hexpr : "documents//readme.txt" ≠ "" := by decide
  have hfound : (fs.resolve "documents//readme.txt" "/home/user").isSome = true := by decide +kernel
  obtain ⟨node, hnode⟩ := Option.isSome_iff_exists.1 hfound
  obtain ⟨hstands, hanywhere⟩ := resolve_eq_some_iff_reaches hcwd fs "documents//readme.txt"
  refine ⟨hcwd, hexpr, node, hnode, ((hstands node).1 hnode).2.2, ?_⟩
  rw [hanywhere hexpr "/etc", hnode]

end Filesystem

end VirtualShell
