import Mathlib.Data.List.Lex
import VirtualShell.Proofs.Path.Joining
import VirtualShell.Proofs.Tree.Traversal
import VirtualShell.Tree.Teaching

/-!
# Walks

A walk is the traversal from the top down with the names joined onto the path that it starts from
(`Node.walk_eq`). So walks that start from different spellings of a path go through the same entries in the same
order. From a path in normal form a walk lists what lies within it (`Filesystem.walk_lists_within`): each path
is normal, stands for the node that it is listed with, and is listed once.

The order is that of the lists of segments. It is not the order of the paths as texts, in which some characters
come before the slash.
-/

namespace VirtualShell

/-- The visit that a walk from `base` pays to what names lead to. -/
def Visit.along (base : String) (route : List String × Node) : Visit :=
  ⟨route.1.foldl Path.join base, route.1.getLastD "", route.2⟩

/-- One more name in front of others is one more name in the path of the start. -/
theorem Visit.along_join (base name : String) {names : List String} (h : names ≠ []) (node : Node) :
    along (Path.join base name) (names, node) = along base (name :: names, node) := by
  cases names with
  | nil => exact absurd rfl h
  | cons first rest => rfl

/-- A walk is the traversal with the names joined onto the path that it starts from. -/
theorem Node.walk_eq (node : Node) (base : String) : node.walk base = node.topDown.map (.along base) := by
  induction node using induct generalizing base with
  | hfile content mode => rw [walk, topDown, List.map_nil]
  | hdirectory entries ih =>
    rw [walk, topDown]
    induction entries with
    | nil => rfl
    | cons entry rest ihRest =>
      obtain ⟨hentry, hrest⟩ := List.forall_mem_cons.1 ih
      have hmap : entry.2.topDown.map (.along (Path.join base entry.1)) =
          entry.2.topDown.map (Visit.along base ∘ fun route => (entry.1 :: route.1, route.2)) :=
        List.map_congr_left fun route hroute =>
          Visit.along_join base entry.1 (ne_nil_of_mem_topDown hroute) route.2
      rw [walkEntries, topDownIn, hentry, ihRest hrest, hmap, List.map_cons, List.map_append, List.map_map]
      rfl

namespace Filesystem

variable {fs : Filesystem} {path : String} {node : Node} {visit : Visit}

theorem walk_of_lookup (h : fs.lookup path = some node) : fs.walk path = node.topDown.map (.along path) := by
  rw [walk, h]
  exact node.walk_eq path

/-- Names that are joined onto a path lead on from what stands there. -/
theorem lookup_foldl_join (h : fs.lookup path = some node) {names : List String}
    (hnames : ∀ name ∈ names, Path.isPlain name = true) :
    fs.lookup (names.foldl Path.join path) = node.descend names := by
  obtain ⟨hdots, hdescend⟩ := lookup_eq_some_iff.1 h
  have hplain : names.any Path.isDots = false := by
    rw [List.any_eq_false]
    intro name hname
    rw [Path.isDots_of_isPlain (hnames name hname)]
    exact Bool.false_ne_true
  rw [lookup, Path.segments_foldl_join path fun name hname => (Path.isPlain_iff.1 (hnames name hname)).1,
    if_neg (by simp [hdots, hplain]), Node.descend_append, hdescend, Option.bind_some]

/-- A walk visits what plain names lead to from its start. -/
theorem mem_walk_iff (hordered : fs.root.Ordered) (hplain : fs.root.Plain)
    (h : fs.lookup path = some node) :
    visit ∈ fs.walk path ↔ ∃ names, names ≠ [] ∧ (∀ name ∈ names, Path.isPlain name = true) ∧
      node.descend names = some visit.node ∧ visit = .along path (names, visit.node) := by
  rw [walk_of_lookup h, List.mem_map]
  have hordered : node.Ordered := everywhere_of_lookup hordered h
  have hplain : node.Plain := everywhere_of_lookup hplain h
  constructor
  · rintro ⟨⟨names, target⟩, hroute, rfl⟩
    obtain ⟨hne, hdescend⟩ := (Node.mem_topDown_iff hordered).1 hroute
    exact ⟨names, hne, Node.isPlain_of_descend hplain hdescend, hdescend, rfl⟩
  · rintro ⟨names, hne, -, hdescend, heq⟩
    exact ⟨(names, visit.node), (Node.mem_topDown_iff hordered).2 ⟨hne, hdescend⟩, heq.symm⟩

/-- What a walk lists lies within its start and is found by a lookup. -/
theorem within_of_mem_walk (hordered : fs.root.Ordered) (hplain : fs.root.Plain)
    (hpath : Path.IsNormal path) (h : visit ∈ fs.walk path) :
    Path.IsNormal visit.path ∧ visit.path ≠ path ∧ Path.isWithin visit.path path = true ∧
      fs.lookup visit.path = some visit.node := by
  cases hlookup : fs.lookup path with
  | none =>
    rw [walk, hlookup] at h
    cases h
  | some node =>
    obtain ⟨names, hne, hnames, hdescend, heq⟩ := (mem_walk_iff hordered hplain hlookup).1 h
    have hplace : visit.path = names.foldl Path.join path := congrArg Visit.path heq
    have hall : ∀ name ∈ names, Path.IsSegment name :=
      fun name hname => (Path.isPlain_iff.1 (hnames name hname)).1
    have hsegments := Path.segments_foldl_join path hall
    have hnormal := hpath.foldl_join hall
    rw [hplace]
    refine ⟨hnormal, fun hself => hne ?_, ?_, ?_⟩
    · rw [hself] at hsegments
      exact List.self_eq_append_right.1 hsegments
    · rw [Path.isWithin_iff_segments hnormal hpath, hsegments]
      exact List.prefix_append _ _
    · rw [lookup_foldl_join hlookup hnames, hdescend]

/-- A walk from the root lists every entry under a path that leads to it. -/
theorem lookup_of_mem_walk (hordered : fs.root.Ordered) (hplain : fs.root.Plain)
    (h : visit ∈ fs.walk Path.root) : fs.lookup visit.path = some visit.node :=
  (within_of_mem_walk hordered hplain Path.isNormal_root h).2.2.2

/-- What a lookup finds within the start of a walk is listed. -/
theorem exists_visit_of_lookup (hordered : fs.root.Ordered) (hplain : fs.root.Plain)
    (hpath : Path.IsNormal path) {place : String} (hplace : Path.IsNormal place) (hne : place ≠ path)
    (hwithin : Path.isWithin place path = true) (h : fs.lookup place = some node) :
    ∃ visit ∈ fs.walk path, visit.path = place ∧ visit.node = node := by
  obtain ⟨names, hsegments⟩ := (Path.isWithin_iff_segments hplace hpath).1 hwithin
  obtain ⟨hdots, hdescend⟩ := lookup_eq_some_iff.1 h
  rw [← hsegments, List.any_append, Bool.or_eq_false_iff] at hdots
  rw [← hsegments, Node.descend_append, Option.bind_eq_some_iff] at hdescend
  obtain ⟨start, hstart, hbelow⟩ := hdescend
  have hlookup : fs.lookup path = some start := lookup_eq_some_iff.2 ⟨hdots.1, hstart⟩
  have hnames := Node.isPlain_of_descend (everywhere_of_lookup hplain hlookup) hbelow
  have hall : ∀ name ∈ names, Path.IsSegment name :=
    fun name hname => (Path.isPlain_iff.1 (hnames name hname)).1
  refine ⟨.along path (names, node), (mem_walk_iff hordered hplain hlookup).2
    ⟨names, ?_, hnames, hbelow, rfl⟩, ?_, rfl⟩
  · rintro rfl
    rw [List.append_nil] at hsegments
    exact hne (hplace.eq_of_segments_eq hpath hsegments.symm)
  · apply (hpath.foldl_join hall).eq_of_segments_eq hplace
    rw [Path.segments_foldl_join path hall, hsegments]

/-- Walks go through the lists of segments in lexicographic order. -/
theorem walk_increasing (hordered : fs.root.Ordered) (hplain : fs.root.Plain) (path : String) :
    (fs.walk path).Pairwise fun visit later =>
      List.Lex (· < ·) (Path.segments visit.path) (Path.segments later.path) := by
  cases hlookup : fs.lookup path with
  | none =>
    rw [walk, hlookup]
    exact List.Pairwise.nil
  | some node =>
    have hordered : node.Ordered := everywhere_of_lookup hordered hlookup
    have hplain : node.Plain := everywhere_of_lookup hplain hlookup
    have hsegments : ∀ route ∈ node.topDown,
        Path.segments (route.1.foldl Path.join path) = Path.segments path ++ route.1 := fun route hroute =>
      Path.segments_foldl_join path (Node.isSegment_of_mem_topDown hordered hplain route hroute)
    rw [walk_of_lookup hlookup, List.pairwise_map]
    refine (Node.topDown_increasing hordered).imp_of_mem fun {route other} hroute hother h => ?_
    show List.Lex _ (Path.segments (route.1.foldl _ path)) (Path.segments (other.1.foldl _ path))
    rw [hsegments route hroute, hsegments other hother]
    exact h.append_left _ _

/-- **What a walk lists, and in which order.** From a path in normal form, a walk lists exactly the nodes that a
lookup finds within the path, other than the one at the path itself, each under the normal form of its path and
once. A path comes before the paths that lie within it, and paths that part at some segment are in the order of
the segments there. Where there is no directory, nothing is listed. The tree has plain names, and that it is
`Ordered` says that the entries of its directories are finite maps. -/
theorem walk_lists_within {fs : Filesystem} (hordered : fs.root.Ordered) (hplain : fs.root.Plain)
    {path : String} (hpath : Path.IsNormal path) :
    (∀ place node, (∃ visit ∈ fs.walk path, visit.path = place ∧ visit.node = node) ↔
      Path.IsNormal place ∧ place ≠ path ∧ Path.isWithin place path = true ∧
        fs.lookup place = some node) ∧
    ((fs.walk path).map Visit.path).Nodup ∧
    ((fs.walk path).Pairwise fun visit later =>
      List.Lex (· < ·) (Path.segments visit.path) (Path.segments later.path)) ∧
    (fs.entry path ≠ .directory → fs.walk path = []) := by
  have hincreasing := walk_increasing hordered hplain path
  refine ⟨fun place node => ?_, ?_, hincreasing, fun hentry => ?_⟩
  · constructor
    · rintro ⟨visit, hvisit, rfl, rfl⟩
      exact within_of_mem_walk hordered hplain hpath hvisit
    · rintro ⟨hplace, hne, hwithin, hnode⟩
      exact exists_visit_of_lookup hordered hplain hpath hplace hne hwithin hnode
  · rw [List.nodup_iff_pairwise_ne, List.pairwise_map]
    refine hincreasing.imp fun h heq => ?_
    rw [heq] at h
    exact List.lex_irrefl (fun name => lt_irrefl name) _ h
  · rw [walk]
    split
    next node hlookup =>
      cases node with
      | file content mode => rw [Node.walk]
      | directory entries => exact absurd (entry_eq_directory_iff.2 ⟨entries, hlookup⟩) hentry
    next => rfl

/-- A name that begins as another one does and goes on with a dot: as texts the paths are in another order,
since a dot comes before a slash. -/
theorem walk_lists_within_dot :
    let fs : Filesystem :=
      ⟨.directory [("a", .directory [("x", Node.emptyFile)]), ("a.b", Node.emptyFile)]⟩
    fs.root.Ordered ∧ fs.root.Plain ∧ Path.IsNormal Path.root ∧ Path.IsNormal "/a.b" ∧
      (fs.walk Path.root).map Visit.path = ["/a", "/a/x", "/a.b"] ∧ "/a.b" < "/a/x" ∧
      (∃ visit ∈ fs.walk Path.root, visit.path = "/a/x" ∧ visit.node = Node.emptyFile) ∧
      ((fs.walk Path.root).Pairwise fun visit later =>
        List.Lex (· < ·) (Path.segments visit.path) (Path.segments later.path)) ∧
      fs.walk "/a.b" = [] := by
  intro fs
  have hordered : fs.root.Ordered := by decide
  have hplain : fs.root.Plain := by decide
  have hfile : Path.IsNormal "/a.b" := by decide
  obtain ⟨hlists, -, hincreasing, -⟩ := walk_lists_within hordered hplain Path.isNormal_root
  obtain ⟨-, -, -, hnothing⟩ := walk_lists_within hordered hplain hfile
  refine ⟨hordered, hplain, Path.isNormal_root, hfile, by decide, by decide,
    (hlists _ _).2 ⟨by decide, by decide, by decide, by decide⟩, hincreasing, hnothing (by decide)⟩

end Filesystem

end VirtualShell
