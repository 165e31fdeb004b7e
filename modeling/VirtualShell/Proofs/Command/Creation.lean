import VirtualShell.Proofs.Command.Steps
import VirtualShell.Proofs.Tree.Growth
import VirtualShell.Proofs.Tree.Insertion
import VirtualShell.Tree.Teaching

/-!
# What making files and directories achieves

An operand of `touch` leaves the tree `withFile`, and an operand of `mkdir -p` the tree `withDirectories`,
whether it fails or not. So what several operands leave is a matter of the set of their paths.

`makeChain` goes down one name at a time and makes what is missing. It can fail later than at the first name,
but not after it has made anything: below a name that is missing nothing is in the way. The induction carries
more than that, namely which tree it leaves (`makeChain_eq`): from the directory that it has reached on, the
tree is the one with directories for the names that are left.
-/

namespace VirtualShell

namespace Filesystem

variable {fs : Filesystem} {path dir : String} {names : List String} {entries : List (String × Node)}

/-- What a chain of directories leaves, and when it fails. -/
theorem makeChain_eq (hnormal : Path.IsNormal dir) (hdir : fs.lookup dir = some (.directory entries))
    (hplain : ∀ name ∈ names, Path.isPlain name = true) :
    (fs.makeChain dir names).tree =
        fs.overwrite dir ((Node.directory entries).withDirectories names) ∧
      ((fs.makeChain dir names).failure = none ↔ ¬ (Node.directory entries).Blocked names) := by
  induction names generalizing fs dir entries with
  | nil =>
    rw [Node.withDirectories_nil, overwrite_eq_self hdir]
    exact ⟨rfl, iff_of_true rfl (Node.not_blocked_nil entries)⟩
  | cons name rest ih =>
    obtain ⟨hname, hrest⟩ := List.forall_mem_cons.1 hplain
    obtain ⟨hjoin, hsegments⟩ := hnormal.join (Path.isPlain_iff.1 hname).1
    have hdots := Path.isDots_of_isPlain hname
    have hlookup := lookup_concat hsegments hdir hdots
    rw [makeChain]
    simp only [hlookup, Node.blocked_cons]
    cases hchild : entries.lookup name with
    | some child =>
      rw [hchild] at hlookup
      simp only [Option.some_inj, exists_eq_left']
      cases child with
      | directory below =>
        obtain ⟨htree, hfailure⟩ := ih hjoin hlookup hrest
        refine ⟨?_, hfailure⟩
        dsimp only
        rw [htree, overwrite_concat hsegments hdir hchild hdots, Node.withDirectories_cons,
          Entries.supply_of_lookup hchild, Entries.adjust_of_lookup hchild]
      | file content mode =>
        have hblocked := Node.blocked_file content mode rest
        have hself : (Node.directory entries).withDirectories (name :: rest) = .directory entries :=
          Node.withDirectories_eq_self (Node.blocked_cons.2 ⟨_, hchild, hblocked⟩)
        rw [hself, overwrite_eq_self hdir]
        exact ⟨rfl, iff_of_false (Option.some_ne_none _) (not_not.2 hblocked)⟩
    | none =>
      -- from here on the chain goes down in a directory that was empty a step before
      obtain ⟨made, hmade⟩ : ∃ made, fs.insert dir name Node.emptyDirectory = .ok made :=
        ⟨_, insert_eq_ok_iff.2 ⟨hname, entries, hdir, hchild, rfl⟩⟩
      obtain ⟨-, others, hothers, -, rfl⟩ := insert_eq_ok_iff.1 hmade
      obtain rfl : entries = others := by simpa using hdir.symm.trans hothers
      have hthere := lookup_insert hmade hsegments rfl
      obtain ⟨htree, hfailure⟩ := ih hjoin hthere hrest
      simp only [hmade]
      constructor
      · rw [htree, overwrite_concat hsegments (lookup_overwrite_self hdir _) (Entries.lookup_place_self _ _ _)
          hdots, overwrite_overwrite, Node.withDirectories_cons, Entries.supply_of_free hchild,
          ← Entries.adjust_place_self, Entries.adjust_of_lookup (Entries.lookup_place_self _ _ _)]
        rfl
      · rw [hfailure]
        exact iff_of_true (Node.not_blocked_emptyDirectory rest) (by simp)

/-- In a tree without a directory nothing can be made. -/
private theorem makeChain_of_file (h : ¬ fs.root.isDirectory = true) (dir : String) (names : List String) :
    (fs.makeChain dir names).tree = fs ∧ ((fs.makeChain dir names).failure = none → names = []) := by
  cases names with
  | nil => exact ⟨rfl, fun _ => rfl⟩
  | cons name rest =>
    rw [makeChain]
    split
    next entries hthere => exact absurd (root_isDirectory (entry_eq_directory_iff.2 ⟨entries, hthere⟩)) h
    next => exact ⟨rfl, fun hdone => by cases hdone⟩
    next =>
      split
      next made hmade =>
        obtain ⟨-, entries, hdir, -⟩ := insert_eq_ok_iff.1 hmade
        exact absurd (root_isDirectory (entry_eq_directory_iff.2 ⟨entries, hdir⟩)) h
      next => exact ⟨rfl, fun hdone => by cases hdone⟩

/-- No segment of a path stands for a directory by its position. -/
private theorem find?_isDots_eq_none_iff :
    (Path.segments path).find? Path.isDots = none ↔ (Path.segments path).any Path.isDots = false := by
  rw [List.find?_eq_none, List.any_eq_false]

private theorem isPlain_of_any_isDots (h : (Path.segments path).any Path.isDots = false) :
    ∀ segment ∈ Path.segments path, Path.isPlain segment = true := by
  rw [List.any_eq_false] at h
  intro segment hsegment
  exact Path.isPlain_iff.2 ⟨Path.isSegment_of_mem_segments hsegment, by simpa using h segment hsegment⟩

/-- The chain of all directories along a path begins in the root. -/
private theorem makeChain_root (hroot : fs.root = .directory entries)
    (hdots : (Path.segments path).any Path.isDots = false) :
    (fs.makeChain Path.root (Path.segments path)).tree = ⟨fs.root.withDirectories (Path.segments path)⟩ ∧
      ((fs.makeChain Path.root (Path.segments path)).failure = none ↔
        ¬ fs.root.Blocked (Path.segments path)) := by
  rw [hroot]
  exact makeChain_eq Path.isNormal_root (congrArg some hroot) (isPlain_of_any_isDots hdots)

/-- What making all directories along a path leaves, whether it fails or not. -/
theorem makeParents_tree (fs : Filesystem) (path : String) :
    (fs.makeParents path).tree = fs.withDirectories path := by
  simp only [makeParents, withDirectories, along]
  cases hfind : (Path.segments path).find? Path.isDots with
  | some segment =>
    have hdots : (Path.segments path).any Path.isDots = true := by
      rw [← Bool.not_eq_false, ← find?_isDots_eq_none_iff, hfind]
      exact Option.some_ne_none segment
    rw [if_pos hdots]
  | none =>
    have hdots := find?_isDots_eq_none_iff.1 hfind
    rw [hdots, if_neg Bool.false_ne_true]
    cases hnode : fs.root with
    | directory entries => exact hnode ▸ (makeChain_root hnode hdots).1
    | file content mode =>
      have hfile : ¬ fs.root.isDirectory = true := by
        rw [hnode]
        exact Bool.false_ne_true
      rw [(makeChain_of_file hfile _ _).1, Node.withDirectories_file, ← hnode]

/-- Making all directories along a path fails only for a segment with a meaning of its own or for a file on
the way. -/
theorem makeParents_failure (hroot : fs.root.isDirectory = true) :
    (fs.makeParents path).failure = none ↔ (Path.segments path).any Path.isDots = false ∧
      ¬ fs.root.Blocked (Path.segments path) := by
  simp only [makeParents]
  cases hfind : (Path.segments path).find? Path.isDots with
  | some segment =>
    refine iff_of_false (Option.some_ne_none _) ?_
    rintro ⟨hdots, -⟩
    rw [find?_isDots_eq_none_iff.2 hdots] at hfind
    cases hfind
  | none =>
    have hdots := find?_isDots_eq_none_iff.1 hfind
    rw [and_iff_right hdots]
    cases hnode : fs.root with
    | directory entries => exact hnode ▸ (makeChain_root hnode hdots).2
    | file content mode =>
      rw [hnode] at hroot
      cases hroot

/-- If all directories along a path can be made, the path is there. -/
theorem makeParents_present (h : (fs.makeParents path).failure = none) :
    (fs.makeParents path).tree.entry path ≠ .absent := by
  by_cases hroot : fs.root.isDirectory = true
  · obtain ⟨hdots, hopen⟩ := (makeParents_failure hroot).1 h
    rw [makeParents_tree, entry_withDirectories_above hdots hopen List.prefix_rfl]
    exact Entry.noConfusion
  · rw [makeParents_tree, ne_eq, entry_eq_absent_iff]
    simp only [makeParents] at h
    cases hfind : (Path.segments path).find? Path.isDots with
    | some segment =>
      rw [hfind] at h
      cases h
    | none =>
      rw [hfind] at h
      have hnone := (makeChain_of_file hroot _ _).2 h
      simp [withDirectories, along, lookup, hnone]

/-- Below a name that the root does not have, a directory can be made at any depth. -/
theorem makeParents_below_root {fs : Filesystem} {name : String} {rest : List String}
    (hroot : fs.root.isDirectory = true) (hfree : fs.root.child? name = none)
    (hplain : ∀ segment ∈ name :: rest, Path.isPlain segment = true) :
    (fs.makeParents (Path.ofSegments (name :: rest))).tree.entry (Path.ofSegments (name :: rest)) =
      .directory := by
  have hsegments : Path.segments (Path.ofSegments (name :: rest)) = name :: rest := by
    apply Path.segments_ofSegments
    intro segment hmem
    exact (Path.isPlain_iff.1 (hplain segment hmem)).1
  rw [makeParents_tree]
  apply entry_withDirectories_above _ _ List.prefix_rfl
  · rw [hsegments, List.any_eq_false]
    intro segment hmem
    rw [Path.isDots_of_isPlain (hplain segment hmem)]
    exact Bool.false_ne_true
  · rw [hsegments]
    cases hnode : fs.root with
    | file content mode =>
      rw [hnode] at hroot
      cases hroot
    | directory entries =>
      rw [hnode] at hfree
      rw [Node.blocked_cons]
      rintro ⟨child, hchild, -⟩
      exact absurd (hchild.symm.trans hfree) (Option.some_ne_none child)

/-! ## Files -/

/-- Inserting an empty file where nothing stands, whether it fails or not. -/
private theorem insert_emptyFile_tree {name : String} (hnormal : Path.IsNormal path)
    (hsplit : Path.splitParent path = some (dir, name)) (hfree : fs.lookup path = none) :
    (Edited.ofExcept fs (fs.insert dir name Node.emptyFile)).tree = fs.withFile path := by
  obtain ⟨-, hsegment, hsegments⟩ := hnormal.of_splitParent hsplit
  cases hinsert : fs.insert dir name Node.emptyFile with
  | ok after =>
    obtain ⟨hname, entries, hdir, hunused, rfl⟩ := insert_eq_ok_iff.1 hinsert
    obtain ⟨hdots, hdescend⟩ := lookup_eq_some_iff.1 hdir
    have hplain : (Path.segments path).any Path.isDots = false := by
      rw [hsegments, List.any_append, hdots]
      simpa using Path.isDots_of_isPlain hname
    simp only [Edited.ofExcept, overwrite, withFile, along, hdots, hplain, Bool.false_eq_true, if_false]
    rw [hsegments, Node.withFile_concat hdescend hunused]
  | error cause =>
    simp only [Edited.ofExcept, withFile, along]
    split
    next => rfl
    next hplain =>
      rw [Bool.not_eq_true, hsegments, List.any_append, Bool.or_eq_false_iff] at hplain
      obtain ⟨hdots, hname⟩ := hplain
      have hnone : ∀ entries, fs.root.descend (Path.segments dir) ≠ some (.directory entries) := by
        -- in a directory the insertion would have succeeded
        intro entries hdescend
        have hdir := entry_eq_directory_iff.2 ⟨entries, lookup_eq_some_iff.2 ⟨hdots, hdescend⟩⟩
        have hgood : Path.isPlain name = true := Path.isPlain_iff.2 ⟨hsegment, by simpa using hname⟩
        obtain ⟨after, hafter⟩ :=
          insert_succeeds hgood hdir hsegments (entry_eq_absent_iff.2 hfree) Node.emptyFile
        rw [hinsert] at hafter
        cases hafter
      rw [hsegments, Node.withFile_concat_eq_self hnone]

/-- If a path can be touched, it is there. -/
theorem touch_present (hnormal : Path.IsNormal path) {after : Filesystem} (h : fs.touch path = .ok after) :
    after.entry path ≠ .absent := by
  cases hlookup : fs.lookup path with
  | some node =>
    rw [touch, has, hlookup] at h
    cases h
    rw [ne_eq, entry_eq_absent_iff, hlookup]
    exact Option.some_ne_none node
  | none =>
    have hroot : path ≠ Path.root := by
      rintro rfl
      cases hlookup
    obtain ⟨dir, name, hsplit⟩ := hnormal.exists_splitParent hroot
    rw [touch, has, hlookup, hsplit] at h
    obtain ⟨-, -, hsegments⟩ := hnormal.of_splitParent hsplit
    rw [ne_eq, entry_eq_absent_iff, lookup_insert h hsegments rfl]
    exact Option.some_ne_none Node.emptyFile

/-- What touching a path leaves, whether it fails or not. -/
theorem touch_tree (fs : Filesystem) (hnormal : Path.IsNormal path) :
    (Edited.ofExcept fs (fs.touch path)).tree = fs.withFile path := by
  cases hlookup : fs.lookup path with
  | some node =>
    rw [touch, has, hlookup, withFile_eq_self hlookup]
    rfl
  | none =>
    have hroot : path ≠ Path.root := by
      rintro rfl
      cases hlookup
    obtain ⟨dir, name, hsplit⟩ := hnormal.exists_splitParent hroot
    rw [touch, has, hlookup, hsplit]
    exact insert_emptyFile_tree hnormal hsplit hlookup

end Filesystem

/-- What making one directory with those above it does to the tree. -/
theorem Command.runMkdir_parents {env : Environment} {path : String} (h : Path.IsNormal path) :
    (runMkdir env ["-p", path]).1 = (env.tree.makeParents path).tree := by
  have hflags : flagLetters? path = none := by
    obtain ⟨rest, hrest⟩ := List.isPrefixOf_iff_prefix.1 h.startsWith
    rw [flagLetters?, ← hrest]
    rfl
  have hparents : flagLetters? "-p" = some ['p'] := rfl
  simp [runMkdir, operandsOf, flagsOf, hflags, hparents, editAll, editEach, mkdirOne,
    Environment.absolute_of_isNormal h, Edited.inContext, Environment.withTree]

namespace Command

/-! ## Operands -/

/-- What touching one operand leaves. -/
theorem tree_touchOne (env : Environment) (operand : String) :
    (singly touchOne env operand).tree = env.tree.withFile (env.absolute operand) := by
  rw [← Filesystem.touch_tree env.tree (env.isNormal_absolute operand), singly, touchOne]
  cases env.tree.touch (env.absolute operand) <;> rfl

theorem mkdirOne_parents (env : Environment) (operand : String) :
    ∃ context, mkdirOne true env operand = (env.tree.makeParents (env.absolute operand)).inContext context :=
  ⟨_, by simp only [mkdirOne, if_true]; rfl⟩

/-- What making one operand with all directories above it leaves. -/
theorem tree_mkdirOne (env : Environment) (operand : String) :
    (mkdirOne true env operand).tree = env.tree.withDirectories (env.absolute operand) := by
  obtain ⟨context, hmade⟩ := mkdirOne_parents env operand
  rw [hmade, Edited.tree_inContext, Filesystem.makeParents_tree]

theorem present_touchOne {env : Environment} {operand : String}
    (h : (singly touchOne env operand).failure = none) :
    (singly touchOne env operand).tree.entry (env.absolute operand) ≠ .absent := by
  obtain ⟨after, hafter⟩ := Edited.failure_ofExcept_eq_none_iff.1 h
  rw [singly, hafter]
  exact Filesystem.touch_present (env.isNormal_absolute operand) (Result.mapError_eq_ok_iff.1 hafter)

theorem present_mkdirOne {env : Environment} {operand : String}
    (h : (mkdirOne true env operand).failure = none) :
    (mkdirOne true env operand).tree.entry (env.absolute operand) ≠ .absent := by
  obtain ⟨context, hmade⟩ := mkdirOne_parents env operand
  rw [hmade, Edited.failure_inContext_eq_none_iff] at h
  rw [hmade, Edited.tree_inContext]
  exact Filesystem.makeParents_present h

theorem runTouch_single (env : Environment) {args : List String} {operand : String}
    (hoperands : operandsOf args = [operand]) :
    runTouch env args = editAll (singly touchOne) env [operand] := by
  rw [runTouch, hoperands]
  rfl

theorem runMkdir_single (env : Environment) {args : List String} {operand : String}
    (hoperands : operandsOf args = [operand]) :
    runMkdir env args = editAll (mkdirOne ((flagsOf args).contains 'p')) env [operand] := by
  rw [runMkdir, hoperands]
  rfl

/-- What touching some operands leaves. -/
theorem runTouch_tree (env : Environment) (args : List String) :
    (runTouch env args).1 =
      (operandsOf args).foldl (fun tree operand => tree.withFile (env.absolute operand)) env.tree := by
  have heach : (runTouch env args).1 = (editEach (singly touchOne) env (operandsOf args)).1 :=
    tree_editAll_unless_empty _ _ _ _
  have hedit : ∀ tree operand, (singly touchOne (env.withTree tree) operand).tree =
      tree.withFile (env.absolute operand) :=
    fun tree operand => tree_touchOne (env.withTree tree) operand
  rw [heach]
  exact editEach_eq_foldl hedit _ env.tree

/-- What making directories with all above them leaves. -/
theorem runMkdir_tree (env : Environment) {args : List String} (hparents : 'p' ∈ flagsOf args) :
    (runMkdir env args).1 =
      (operandsOf args).foldl (fun tree operand => tree.withDirectories (env.absolute operand)) env.tree := by
  have heach : (runMkdir env args).1 = (editEach (mkdirOne true) env (operandsOf args)).1 := by
    rw [runMkdir, List.contains_iff_mem.2 hparents]
    exact tree_editAll_unless_empty _ _ _ _
  have hedit : ∀ tree operand, (mkdirOne true (env.withTree tree) operand).tree =
      tree.withDirectories (env.absolute operand) :=
    fun tree operand => tree_mkdirOne (env.withTree tree) operand
  rw [heach]
  exact editEach_eq_foldl hedit _ env.tree

theorem failure_mkdirOne {env : Environment} (hroot : env.tree.root.isDirectory = true) (operand : String) :
    (mkdirOne true env operand).failure = none ↔
      (Path.segments (env.absolute operand)).any Path.isDots = false ∧
        ¬ env.tree.root.Blocked (Path.segments (env.absolute operand)) := by
  obtain ⟨context, hmade⟩ := mkdirOne_parents env operand
  rw [← Filesystem.makeParents_failure hroot, hmade, Edited.failure_inContext_eq_none_iff]

/-- **Directories are made with all above them, or nothing is made.** An operand of `mkdir -p` fails if and
only if a segment of its absolute form is `.` or `..`, or a file stands there or above it, and then the tree
is as it was. Otherwise there is a directory at every path along the way. The entries that have changed are
those on the way that were missing, and a directory that was missing holds the next one on the way and nothing
else. The root of the tree is a directory, as it is in every session. -/
theorem directories_made_or_nothing (env : Environment) (hroot : env.tree.root.isDirectory = true)
    (operand : String) :
    let path := env.absolute operand
    let made := mkdirOne true env operand
    (made.failure ≠ none ↔ (∃ segment ∈ Path.segments path, segment = "." ∨ segment = "..") ∨
      ∃ above content mode, Path.segments above <+: Path.segments path ∧
        env.tree.entry above = .file content mode) ∧
    (made.failure ≠ none → made.tree = env.tree) ∧
    (made.failure = none →
      (∀ above, Path.segments above <+: Path.segments path → made.tree.entry above = .directory) ∧
      (∀ other, made.tree.entry other ≠ env.tree.entry other ↔
        Path.segments other <+: Path.segments path ∧ env.tree.entry other = .absent) ∧
      ∀ above rest, Path.segments above ++ rest = Path.segments path → env.tree.entry above = .absent →
        ∃ entries, made.tree.lookup above = some (.directory entries) ∧
          Entries.names entries = rest.take 1) := by
  intro path made
  have htree : made.tree = env.tree.withDirectories path := tree_mkdirOne env operand
  have hfailure : made.failure = none ↔ _ := failure_mkdirOne hroot operand
  have hdotted : (∃ segment ∈ Path.segments path, segment = "." ∨ segment = "..") ↔
      (Path.segments path).any Path.isDots = true := by
    simp [Path.isDots]
  have hopenly : ¬ made.failure = none ↔ ((Path.segments path).any Path.isDots = false →
      env.tree.root.Blocked (Path.segments path)) := by
    rw [hfailure, not_and_not_right]
  refine ⟨?_, fun hfailed => ?_, fun hdone => ?_⟩
  · rw [ne_eq, hopenly, hdotted]
    cases hdots : (Path.segments path).any Path.isDots with
    | true => exact iff_of_true (fun hplain => Bool.noConfusion hplain) (.inl rfl)
    | false => rw [Filesystem.blocked_iff hdots, forall_prop_of_true rfl, or_iff_right Bool.false_ne_true]
  · rw [htree, Filesystem.withDirectories_eq_self (hopenly.1 hfailed)]
  · obtain ⟨hdots, hopen⟩ := hfailure.1 hdone
    rw [htree]
    refine ⟨fun above => Filesystem.entry_withDirectories_above hdots hopen, fun other => ?_, ?_⟩
    · by_cases hother : Path.segments other <+: Path.segments path
      · rw [Filesystem.entry_withDirectories_above hdots hopen hother, and_iff_right hother]
        cases hbefore : env.tree.entry other with
        | absent => simp
        | directory => simp
        | file content mode =>
          exact absurd ((Filesystem.blocked_iff hdots).2 ⟨other, content, mode, hother, hbefore⟩) hopen
      · rw [Filesystem.entry_withDirectories hother]
        exact iff_of_false (fun h => h rfl) fun h => hother h.1
    · intro above rest hrest habsent
      obtain ⟨entries, hnode, hnames⟩ := Node.names_withDirectories rest
      refine ⟨entries, ?_, hnames⟩
      rw [Filesystem.lookup_withDirectories hdots hopen hrest, Filesystem.entry_eq_absent_iff.1 habsent,
        Option.getD_none, hnode]

/-- Two directories are made below the home directory, and nothing is made through a file. -/
theorem directories_made_or_nothing_teaching :
    let env : Environment :=
      { cwd := "/home/user", tree := ⟨Node.teachingTree⟩, vars := .empty, history := [],
        config := .usual, clock := "" }
    let made := mkdirOne true env "projects//new/deep"
    let refused := mkdirOne true env ".bashrc/new"
    env.tree.root.isDirectory = true ∧ made.failure = none ∧
      made.tree.entry "/home/user/projects/new/deep" = .directory ∧
      made.tree.entry "/home/user/projects/game/main.py" = env.tree.entry "/home/user/projects/game/main.py" ∧
      (∃ entries, made.tree.lookup "/home/user/projects/new" = some (.directory entries) ∧
        Entries.names entries = ["deep"]) ∧
      refused.failure ≠ none ∧ refused.tree = env.tree := by
  intro env made refused
  have hroot : env.tree.root.isDirectory = true := rfl
  have hpath : env.absolute "projects//new/deep" = "/home/user/projects/new/deep" := by decide
  obtain ⟨-, -, heffect⟩ := directories_made_or_nothing env hroot "projects//new/deep"
  obtain ⟨-, hsame, -⟩ := directories_made_or_nothing env hroot ".bashrc/new"
  rw [hpath] at heffect
  have hdone : made.failure = none := by
    rw [← Option.isNone_iff_eq_none]
    decide
  have hrefused : refused.failure ≠ none := by
    rw [← Option.isSome_iff_ne_none]
    decide
  obtain ⟨hthere, hchanged, hfresh⟩ := heffect hdone
  refine ⟨hroot, hdone, hthere _ List.prefix_rfl, ?_, ?_, hrefused, hsame hrefused⟩
  · by_contra hne
    exact absurd ((hchanged _).1 hne).1 (by decide)
  · exact hfresh "/home/user/projects/new" ["deep"] (by decide) (by decide)

end Command

end VirtualShell
