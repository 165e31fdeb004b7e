import Mathlib.Data.List.DropRight
import VirtualShell.Proofs.Command.Steps
import VirtualShell.Proofs.Tree.Removal

/-!
# What removing achieves

The operands of a removal are handled one by one, on a tree that the earlier ones have changed. What comes of
them can be told from the tree before all the same. A removal leaves of a tree nothing but what was there
(`Filesystem.Pruned`), so an operand is refused later for no other reason than it would have been refused at
first, except that it may be gone, and then there is nothing left to take out. So the tree afterwards is the
one before without the paths of all operands that were `Removable` then (`runRm_tree`).

The paths are a set for that purpose, so neither the order nor the repetition of the operands matters, and a
second removal finds none of them removable.
-/

namespace VirtualShell

namespace Filesystem

/-- Every entry is gone or as it was. -/
def Pruned (before after : Filesystem) : Prop :=
  ∀ path, after.entry path = .absent ∨ after.entry path = before.entry path

variable {before after : Filesystem}

theorem Pruned.refl (fs : Filesystem) : Pruned fs fs :=
  fun _ => .inr rfl

theorem Pruned.without (h : Pruned before after) {path : String} (hnormal : Path.IsNormal path)
    (hroot : path ≠ Path.root) : Pruned before (after.without path) := by
  intro other
  rw [entry_without hnormal hroot]
  split
  next => exact .inl rfl
  next => exact h other

theorem pruned_withoutAll {paths : List String}
    (hpaths : ∀ path ∈ paths, Path.IsNormal path ∧ path ≠ Path.root) (fs : Filesystem) :
    Pruned fs (fs.withoutAll paths) := by
  intro other
  rw [entry_withoutAll hpaths]
  split
  next => exact .inl rfl
  next => exact .inr rfl

end Filesystem

namespace Command

/-! ## The last segment as typed -/

private theorem lastTyped_ofList (typed : List Char) :
    lastTyped (String.ofList typed) = (Path.segments (String.ofList typed)).getLast?.getD "" := by
  induction typed using List.reverseRecOn with
  | nil => rfl
  | append_singleton typed c ih =>
    by_cases hslash : c = '/'
    · subst hslash
      have htext : String.ofList (typed ++ ['/']) = String.ofList typed ++ "/" ++ "" := by
        apply String.toList_injective
        simp
      have hdrop : Text.dropEndWhile (· == '/') (typed ++ ['/']) = Text.dropEndWhile (· == '/') typed :=
        List.rdropWhile_concat_pos _ _ _ rfl
      rw [htext, Path.segments_append_slash, Path.segments_empty, List.append_nil, ← ih, lastTyped,
        lastTyped, ← htext, String.toList_ofList, String.toList_ofList, hdrop]
    · have hdrop : Text.dropEndWhile (· == '/') (typed ++ [c]) = typed ++ [c] :=
        List.rdropWhile_concat_neg _ _ _ (by simp [hslash])
      rw [lastTyped, String.toList_ofList, hdrop]
      split
      next before last hcut =>
        obtain ⟨htyped, hlast⟩ := Text.cutLast_eq_some_iff.1 hcut
        have hsegment : Path.IsSegment (String.ofList last) := by
          refine ⟨?_, by simpa using hlast⟩
          intro hempty
          obtain rfl : last = [] := by simpa using congrArg String.toList hempty
          exact hslash (List.singleton_inj.1 (List.append_inj_right' htyped rfl))
        have htext : String.ofList (typed ++ [c]) =
            String.ofList before ++ "/" ++ String.ofList last := by
          apply String.toList_injective
          simp [htyped]
        rw [htext, Path.segments_append_segment _ hsegment, List.getLast?_concat]
        rfl
      next hcut =>
        have hsegment : Path.IsSegment (String.ofList (typed ++ [c])) := by
          refine ⟨?_, by simpa using Text.mark_not_mem_of_cutLast_eq_none hcut⟩
          intro hempty
          simpa using congrArg String.toList hempty
        rw [Path.segments_segment hsegment]
        rfl

/-- What is typed last is the last segment, if there is one. -/
theorem lastTyped_eq (operand : String) :
    lastTyped operand = (Path.segments operand).getLast?.getD "" := by
  have h := lastTyped_ofList operand.toList
  rwa [String.ofList_toList] at h

theorem isDots_lastTyped (operand : String) :
    Path.isDots (lastTyped operand) = (Path.segments operand).getLast?.any Path.isDots := by
  rw [lastTyped_eq]
  cases (Path.segments operand).getLast? <;> rfl

/-! ## One operand -/

/-- How far a removal with some flags may go. -/
def Removal.ofFlags (flags : List Char) : Removal where
  recursive := flags.contains 'r' || flags.contains 'R'
  force := flags.contains 'f'

theorem Removal.recursive_ofFlags {flags : List Char} :
    (Removal.ofFlags flags).recursive = true ↔ 'r' ∈ flags ∨ 'R' ∈ flags := by
  simp [Removal.ofFlags]

/-- An operand that a removal with some flags takes out. -/
structure Removable (env : Environment) (flags : List Char) (operand : String) : Prop where
  /-- Something stands there. -/
  present : env.tree.entry (env.absolute operand) ≠ .absent
  /-- It is a file, or directories are removed too. -/
  whole : env.tree.entry (env.absolute operand) = .directory → 'r' ∈ flags ∨ 'R' ∈ flags
  not_root : env.absolute operand ≠ Path.root
  /-- The current directory does not lie within it. -/
  not_inUse : Path.isWithin env.cwd (env.absolute operand) = false
  /-- The last segment is not typed as `.` or `..`. -/
  not_dots : (Path.segments operand).getLast?.any Path.isDots = false

instance (env : Environment) (flags : List Char) (operand : String) :
    Decidable (Removable env flags operand) :=
  decidable_of_iff
    (env.tree.entry (env.absolute operand) ≠ .absent ∧
      (env.tree.entry (env.absolute operand) = .directory → 'r' ∈ flags ∨ 'R' ∈ flags) ∧
      env.absolute operand ≠ Path.root ∧ Path.isWithin env.cwd (env.absolute operand) = false ∧
      (Path.segments operand).getLast?.any Path.isDots = false)
    ⟨fun ⟨hpresent, hwhole, hroot, hunused, hdots⟩ => ⟨hpresent, hwhole, hroot, hunused, hdots⟩,
      fun h => ⟨h.present, h.whole, h.not_root, h.not_inUse, h.not_dots⟩⟩

variable {env next : Environment} {flags : List Char} {operand : String}

/-- A removable operand is taken out. -/
theorem removeOne_of_removable (h : Removable env flags operand) :
    removeOne (.ofFlags flags) env operand = .ok (env.tree.without (env.absolute operand)) := by
  have hdots : ¬ Path.isDots (lastTyped operand) = true := by
    rw [isDots_lastTyped, h.not_dots]
    exact Bool.false_ne_true
  cases hlookup : env.tree.lookup (env.absolute operand) with
  | none => exact absurd (Filesystem.entry_eq_absent_iff.2 hlookup) h.present
  | some node =>
    have hwhole : ¬ (node.isDirectory && !(Removal.ofFlags flags).recursive) = true := by
      rw [Bool.and_eq_true, Bool.not_eq_true']
      rintro ⟨hdirectory, hkept⟩
      have hentry : env.tree.entry (env.absolute operand) = .directory := by
        rw [← Filesystem.isDirectory_iff, Filesystem.isDirectory, hlookup]
        exact hdirectory
      rw [Removal.recursive_ofFlags.2 (h.whole hentry)] at hkept
      cases hkept
    have hunused : ¬ Path.isWithin env.cwd (env.absolute operand) = true := by
      rw [h.not_inUse]
      exact Bool.false_ne_true
    have hremove := Filesystem.remove_eq_without (env.isNormal_absolute operand) h.not_root hlookup
    simp only [removeOne, if_neg hdots, hlookup, if_neg hwhole, if_neg h.not_root, if_neg hunused, hremove,
      Except.map, Except.mapError]

/-- An operand that is not removable is refused, or it names nothing and is passed over. -/
theorem removeOne_of_not_removable {after : Filesystem} (h : ¬ Removable env flags operand)
    (hafter : removeOne (.ofFlags flags) env operand = .ok after) : after = env.tree := by
  rcases removeOne_eq_ok hafter with
    ⟨-, hnone⟩ | ⟨hdots, ⟨node, hlookup, hwhole⟩, hroot, hunused, -⟩
  · exact hnone
  · refine absurd ⟨?_, ?_, hroot, hunused, ?_⟩ h
    · intro habsent
      rw [Filesystem.entry_eq_absent_iff, hlookup] at habsent
      cases habsent
    · intro hdirectory
      rw [← Filesystem.isDirectory_iff, Filesystem.isDirectory, hlookup] at hdirectory
      exact Removal.recursive_ofFlags.1 (hwhole hdirectory)
    · rw [← isDots_lastTyped]
      exact hdots

/-- What a removal of one operand leaves. -/
theorem removeOne_tree (env : Environment) (flags : List Char) (operand : String) :
    (singly (removeOne (.ofFlags flags)) env operand).tree =
      if Removable env flags operand then env.tree.without (env.absolute operand) else env.tree := by
  rw [singly]
  split
  next h =>
    rw [removeOne_of_removable h, Edited.ofExcept]
  next h =>
    cases hresult : removeOne (.ofFlags flags) env operand with
    | error failure => rfl
    | ok after => exact removeOne_of_not_removable h hresult

/-! ## Operands on a pruned tree -/

/-- In a pruned tree the same operands are removable as before, except for those that are gone. -/
theorem removable_of_pruned (hpruned : env.tree.Pruned next.tree) (hcwd : next.cwd = env.cwd)
    (hconfig : next.config = env.config) {flags' : List Char}
    (hflags : ∀ flag, flag ∈ flags' ↔ flag ∈ flags) (operand : String) :
    Removable next flags' operand ↔
      Removable env flags operand ∧ next.tree.entry (env.absolute operand) ≠ .absent := by
  have habsolute := Environment.absolute_congr hcwd hconfig operand
  have hsame : next.tree.entry (env.absolute operand) ≠ .absent →
      next.tree.entry (env.absolute operand) = env.tree.entry (env.absolute operand) :=
    fun hpresent => (hpruned _).resolve_left hpresent
  constructor
  · rintro ⟨hpresent, hwhole, hroot, hunused, hdots⟩
    rw [habsolute] at hpresent hwhole hroot hunused
    rw [hsame hpresent, hflags, hflags] at hwhole
    rw [hcwd] at hunused
    exact ⟨⟨hsame hpresent ▸ hpresent, hwhole, hroot, hunused, hdots⟩, hpresent⟩
  · rintro ⟨⟨-, hwhole, hroot, hunused, hdots⟩, hpresent⟩
    rw [← hsame hpresent, ← hflags, ← hflags] at hwhole
    rw [← hcwd] at hunused
    rw [← habsolute] at hpresent hwhole hroot hunused
    exact ⟨hpresent, hwhole, hroot, hunused, hdots⟩

/-- The paths of the operands that are removable. -/
def removals (env : Environment) (flags : List Char) (operands : List String) : List String :=
  (operands.filter fun operand => Removable env flags operand).map env.absolute

theorem mem_removals {operands : List String} {path : String} :
    path ∈ removals env flags operands ↔
      ∃ operand ∈ operands, Removable env flags operand ∧ env.absolute operand = path := by
  simp [removals, and_assoc]

theorem normal_of_mem_removals {operands : List String} :
    ∀ path ∈ removals env flags operands, Path.IsNormal path ∧ path ≠ Path.root := by
  intro path hpath
  obtain ⟨operand, -, hremovable, rfl⟩ := mem_removals.1 hpath
  exact ⟨env.isNormal_absolute operand, hremovable.not_root⟩

/-- On a tree that is what some removals have left, the operands are handled as if nothing had been removed:
the verdict is the one for the tree before. -/
theorem removeOne_tree_of_pruned {tree : Filesystem} (hpruned : env.tree.Pruned tree)
    (flags : List Char) (operand : String) :
    (singly (removeOne (.ofFlags flags)) (env.withTree tree) operand).tree =
      if Removable env flags operand then tree.without (env.absolute operand) else tree := by
  have hiff : Removable (env.withTree tree) flags operand ↔
      Removable env flags operand ∧ tree.entry (env.absolute operand) ≠ .absent :=
    @removable_of_pruned env (env.withTree tree) flags hpruned rfl rfl flags (fun _ => Iff.rfl) operand
  have hpath : (env.withTree tree).absolute operand = env.absolute operand := rfl
  have htree : (env.withTree tree).tree = tree := rfl
  rw [removeOne_tree, hpath, htree]
  by_cases hremovable : Removable env flags operand
  · rw [if_pos hremovable]
    split
    next => rfl
    next hgone =>
      -- the operand was removable and is not any more, so an earlier one has taken it out
      rw [hiff, not_and_not_right] at hgone
      rw [Filesystem.without_eq_self (Filesystem.entry_eq_absent_iff.1 (hgone hremovable))]
  · rw [if_neg hremovable, if_neg fun h => hremovable (hiff.1 h).1]

/-- What removals of several operands leave of a tree that others have pruned. -/
theorem editEach_removeOne {tree : Filesystem} (hpruned : env.tree.Pruned tree) (flags : List Char)
    (operands : List String) :
    (editEach (singly (removeOne (.ofFlags flags))) (env.withTree tree) operands).1 =
      tree.withoutAll (removals env flags operands) := by
  -- what is kept along the operands is that the tree is pruned
  induction operands generalizing tree with
  | nil => rfl
  | cons operand rest ih =>
    rw [editEach_cons_tree, Environment.withTree_withTree, removeOne_tree_of_pruned hpruned]
    split
    next hremovable =>
      rw [ih (hpruned.without (env.isNormal_absolute operand) hremovable.not_root), removals, removals,
        List.filter_cons_of_pos (by simpa using hremovable), List.map_cons, Filesystem.withoutAll_cons]
    next hkept => rw [ih hpruned, removals, removals, List.filter_cons_of_neg (by simpa using hkept)]

/-! ## The command -/

/-- **What a removal leaves**: the tree without the operands that were removable in it. -/
theorem runRm_tree (env : Environment) (args : List String) :
    (runRm env args).1 = env.tree.withoutAll (removals env (flagsOf args) (operandsOf args)) := by
  have heach : (runRm env args).1 =
      (editEach (singly (removeOne (.ofFlags (flagsOf args)))) env (operandsOf args)).1 :=
    tree_editAll_unless_empty _ _ _ _
  rw [heach]
  exact editEach_removeOne (Filesystem.Pruned.refl env.tree) (flagsOf args) (operandsOf args)

/-- Nothing is left within a removable operand, and everything else is as it was. -/
theorem entry_runRm (env : Environment) (args : List String) (path : String) :
    (runRm env args).1.entry path =
      if ∃ operand ∈ operandsOf args, Removable env (flagsOf args) operand ∧
          Path.segments (env.absolute operand) <+: Path.segments path
        then .absent else env.tree.entry path := by
  rw [runRm_tree, Filesystem.entry_withoutAll normal_of_mem_removals]
  have hiff : (∃ removed ∈ removals env (flagsOf args) (operandsOf args),
      Path.segments removed <+: Path.segments path) ↔
      ∃ operand ∈ operandsOf args, Removable env (flagsOf args) operand ∧
        Path.segments (env.absolute operand) <+: Path.segments path := by
    constructor
    · rintro ⟨removed, hremoved, hwithin⟩
      obtain ⟨operand, hmem, hremovable, rfl⟩ := mem_removals.1 hremoved
      exact ⟨operand, hmem, hremovable, hwithin⟩
    · rintro ⟨operand, hmem, hremovable, hwithin⟩
      exact ⟨_, mem_removals.2 ⟨operand, hmem, hremovable, rfl⟩, hwithin⟩
  simp only [hiff]

/-- The order and the repetition of flags and operands do not matter. -/
theorem runRm_congr (htree : next.tree = env.tree) (hcwd : next.cwd = env.cwd)
    (hconfig : next.config = env.config) {args args' : List String}
    (hflags : ∀ flag, flag ∈ flagsOf args' ↔ flag ∈ flagsOf args)
    (hoperands : ∀ operand, operand ∈ operandsOf args' ↔ operand ∈ operandsOf args) :
    (runRm next args').1 = (runRm env args).1 := by
  have hpruned : env.tree.Pruned next.tree := by
    rw [htree]
    exact .refl env.tree
  rw [runRm_tree, runRm_tree, htree]
  apply Filesystem.withoutAll_congr
  intro path
  rw [mem_removals, mem_removals]
  refine exists_congr fun operand => ?_
  rw [hoperands, Environment.absolute_congr hcwd hconfig, removable_of_pruned hpruned hcwd hconfig hflags,
    htree, and_iff_left_of_imp Removable.present]

/-- What a removal has left, the same removal leaves as it is. -/
theorem runRm_again {args : List String} (htree : next.tree = (runRm env args).1)
    (hcwd : next.cwd = env.cwd) (hconfig : next.config = env.config) :
    (runRm next args).1 = next.tree := by
  have hpruned : env.tree.Pruned next.tree := by
    rw [htree, runRm_tree]
    exact Filesystem.pruned_withoutAll normal_of_mem_removals env.tree
  have hnone : removals next (flagsOf args) (operandsOf args) = [] := by
    rw [List.eq_nil_iff_forall_not_mem]
    intro path hpath
    obtain ⟨operand, hmem, hremovable, -⟩ := mem_removals.1 hpath
    obtain ⟨hbefore, hpresent⟩ :=
      (removable_of_pruned hpruned hcwd hconfig (fun _ => Iff.rfl) operand).1 hremovable
    apply hpresent
    rw [htree, entry_runRm, if_pos]
    exact ⟨operand, hmem, hbefore, List.prefix_rfl⟩
  rw [runRm_tree, hnone, Filesystem.withoutAll_nil]

end Command

end VirtualShell
