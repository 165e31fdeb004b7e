import VirtualShell.Proofs.Path.Joining
import VirtualShell.Proofs.Tree.Undo
import VirtualShell.Tree.Teaching

/-!
# Detachment

The one way in which anything leaves a tree, told by lookups: `remove` takes out exactly what a lookup of the
same path finds, although it splits the path and looks up the parent only. It is the inverse of insertion, in
both orders and up to equality of trees.

A last segment `.` or `..` is left out. A lookup finds nothing there, whereas a removal would find an entry
of that name. No tree with plain names has one.
-/

namespace VirtualShell.Filesystem

variable {fs after : Filesystem} {path : String} {node : Node}

/-! ## Success -/

/-- What is taken out is what stood at the path. -/
theorem lookup_of_remove (hnormal : Path.IsNormal path) (hname : Path.isDots (Path.fileName path) = false)
    (h : fs.remove path = .ok (node, after)) : fs.lookup path = some node := by
  obtain ⟨dir, name, entries, hsplit, hdir, hlookup, -⟩ := remove_eq_ok_iff.1 h
  obtain ⟨-, -, hpath⟩ := hnormal.of_splitParent hsplit
  rw [Path.fileName, hsplit] at hname
  rw [lookup_concat hpath hdir hname, hlookup]

/-- Where nothing stands, a removal fails. -/
theorem remove_eq_missing (hnormal : Path.IsNormal path) (hroot : path ≠ Path.root)
    (hname : Path.isDots (Path.fileName path) = false) (h : fs.lookup path = none) :
    fs.remove path = .error (.missing path) := by
  have hsplit := hnormal.splitParent_eq hroot
  obtain ⟨-, -, hpath⟩ := hnormal.of_splitParent hsplit
  cases hdir : fs.lookup (Path.parent path) with
  | none => simp only [remove, hsplit, hdir]
  | some above =>
    cases above with
    | file content mode => simp only [remove, hsplit, hdir]
    | directory entries =>
      have hfree : entries.lookup (Path.fileName path) = none := by
        rw [← lookup_concat hpath hdir hname, h]
      simp only [remove, hsplit, hdir, hfree]

/-- A removal of anything but the root succeeds with what a lookup finds. -/
theorem remove_succeeds_iff (hnormal : Path.IsNormal path) (hroot : path ≠ Path.root)
    (hname : Path.isDots (Path.fileName path) = false) :
    (∃ after, fs.remove path = .ok (node, after)) ↔ fs.lookup path = some node := by
  constructor
  · rintro ⟨after, hremove⟩
    exact lookup_of_remove hnormal hname hremove
  · exact remove_succeeds hnormal hroot

/-! ## Effect -/

/-- Through `.` and `..` nothing is reached. -/
theorem entry_of_isDots {path : String} (h : Path.isDots path = true) (fs : Filesystem) :
    fs.entry path = .absent := by
  rw [Path.isDots, Bool.or_eq_true, beq_iff_eq, beq_iff_eq] at h
  rcases h with rfl | rfl <;> rfl

/-- After a removal nothing stands within the path, and everything else is as it was. What lies within a path
is a matter of the normal form. -/
theorem entry_after_remove (hnormal : Path.IsNormal path) (h : fs.remove path = .ok (node, after))
    (other : String) :
    after.entry other =
      if Path.isWithin (Path.normalize other) path then .absent else fs.entry other := by
  cases hdots : Path.isDots other with
  | true => rw [entry_of_isDots hdots, entry_of_isDots hdots, ite_self]
  | false =>
    have hsegments : Path.segments (Path.normalize other) = Path.segments other := by
      rw [Path.normalize, hdots]
      exact Path.segments_ofSegments fun _ => Path.isSegment_of_mem_segments
    have hwithin := Path.isWithin_iff_segments (Path.isNormal_normalize other) hnormal
    rw [hsegments] at hwithin
    split
    next hbelow =>
      exact entry_eq_absent_iff.2 (lookup_eq_none_below (lookup_remove_self hnormal h) (hwithin.1 hbelow))
    next hbeside => exact entry_remove hnormal h fun hprefix => hbeside (hwithin.2 hprefix)

/-- What was taken out can be put back where it was, which gives the tree from before. -/
theorem insert_after_remove (hordered : fs.root.Ordered) (hnormal : Path.IsNormal path)
    (hroot : path ≠ Path.root) (hname : Path.isDots (Path.fileName path) = false)
    (h : fs.remove path = .ok (node, after)) :
    after.insert (Path.parent path) (Path.fileName path) node = .ok fs := by
  have hsplit := hnormal.splitParent_eq hroot
  obtain ⟨-, hsegment, -⟩ := hnormal.of_splitParent hsplit
  exact insert_of_remove hordered h hsplit (Path.isPlain_iff.2 ⟨hsegment, hname⟩)

/-- What was put in can be taken out again, which gives the tree from before. -/
theorem remove_after_insert {dir name : String} (hdir : Path.IsNormal dir)
    (h : fs.insert dir name node = .ok after) : after.remove (Path.join dir name) = .ok (node, fs) := by
  obtain ⟨hname, -⟩ := insert_eq_ok_iff.1 h
  exact remove_of_insert h (hdir.splitParent_join (Path.isPlain_iff.1 hname).1)

/-- **Removing and inserting are inverse to each other.** Let a path be in normal form, not the root, and not
end in `.` or `..`. It can be removed if and only if a lookup finds something there, and that is what the
removal gives. Afterwards nothing stands within the path, every other path has the entry that it had, and
inserting the node again under its name in its parent gives back the very same tree. If the removal fails, the
tree is as it was. Conversely, what was inserted into a directory with a normal path can be removed by joining
its name onto that path, which gives the node and the tree from before. That the tree is `Ordered` says that
the entries of its directories are finite maps. -/
theorem removal_insertion_inverse {fs : Filesystem} (hordered : fs.root.Ordered) :
    (∀ path, Path.IsNormal path → path ≠ Path.root → Path.isDots (Path.fileName path) = false →
      (∀ node, (∃ after, fs.remove path = .ok (node, after)) ↔ fs.lookup path = some node) ∧
      (∀ node after, fs.remove path = .ok (node, after) →
        (∀ other, after.entry other =
          if Path.isWithin (Path.normalize other) path then .absent else fs.entry other) ∧
        after.insert (Path.parent path) (Path.fileName path) node = .ok fs) ∧
      (fs.lookup path = none →
        Edited.ofExcept fs ((fs.remove path).map Prod.snd) = ⟨fs, some (.missing path)⟩)) ∧
    ∀ dir name node after, Path.IsNormal dir → fs.insert dir name node = .ok after →
      after.remove (Path.join dir name) = .ok (node, fs) := by
  refine ⟨fun path hnormal hroot hname => ⟨fun node => ?_, fun node after hremove => ?_, fun hnone => ?_⟩,
    fun dir name node after => remove_after_insert⟩
  · exact remove_succeeds_iff hnormal hroot hname
  · exact ⟨entry_after_remove hnormal hremove, insert_after_remove hordered hnormal hroot hname hremove⟩
  · rw [remove_eq_missing hnormal hroot hname hnone]
    rfl

/-- In the teaching tree a directory with files in it is removed and put back, and a new one is put in and
removed. What lay in the removed directory is gone under any spelling of its path, and what lay beside it is
there. -/
theorem removal_insertion_inverse_teaching :
    let fs : Filesystem := ⟨Node.teachingTree⟩
    let path := "/home/user/documents"
    fs.root.Ordered ∧ Path.IsNormal path ∧ path ≠ Path.root ∧
      Path.isDots (Path.fileName path) = false ∧ Path.IsNormal "/home/user" ∧
      (∃ node after, fs.lookup path = some node ∧ fs.remove path = .ok (node, after) ∧
        after.entry "/home//user/documents/notes.txt" = .absent ∧
        after.entry "/home//user/projects" = .directory ∧
        after.insert (Path.parent path) (Path.fileName path) node = .ok fs) ∧
      ∃ after, fs.insert "/home/user" "documents.old" Node.emptyDirectory = .ok after ∧
        after.remove "/home/user/documents.old" = .ok (Node.emptyDirectory, fs) := by
  intro fs path
  have hordered : fs.root.Ordered := Node.ordered_teachingTree
  have hnormal : Path.IsNormal path := by decide
  have hroot : path ≠ Path.root := by decide
  have hname : Path.isDots (Path.fileName path) = false := by decide
  have hdir : Path.IsNormal "/home/user" := by decide
  obtain ⟨hremoval, hinsertion⟩ := removal_insertion_inverse hordered
  obtain ⟨hsuccess, heffect, -⟩ := hremoval path hnormal hroot hname
  obtain ⟨node, hnode⟩ := Option.isSome_iff_exists.1 (show (fs.lookup path).isSome = true by decide)
  obtain ⟨after, hremove⟩ := (hsuccess node).2 hnode
  obtain ⟨hentry, hback⟩ := heffect node after hremove
  obtain ⟨made, hmade⟩ : ∃ made, fs.insert "/home/user" "documents.old" Node.emptyDirectory = .ok made :=
    insert_succeeds (by decide) (by decide) (by decide : Path.segments "/home/user/documents.old" = _)
      (by decide) _
  refine ⟨hordered, hnormal, hroot, hname, hdir, ⟨node, after, hnode, hremove, ?_, ?_, hback⟩, made, hmade,
    hinsertion _ _ _ _ hdir hmade⟩
  · rw [hentry]
    decide
  · rw [hentry]
    decide

end VirtualShell.Filesystem
