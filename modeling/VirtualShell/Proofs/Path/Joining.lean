import VirtualShell.Proofs.Path.Normal

/-!
# Paths made by joining

Joining a name onto a path adds one segment, however the path is spelled (`segments_join`), and what was
joined onto a normal path is split off again (`IsNormal.splitParent_join`). A walk joins one name after the
other onto the path that it starts from. The text that this makes is the start, as it was spelled, and a rest
that is the same for every start (`foldl_join_eq_append`), so that one start can be replaced by another
(`rebase`).
-/

namespace VirtualShell.Path

variable {dir name path : String} {names : List String}

/-! ## One name -/

/-- Every path but the root is split into its parent and its last segment. -/
theorem IsNormal.splitParent_eq (h : IsNormal path) (hne : path ≠ root) :
    splitParent path = some (Path.parent path, fileName path) := by
  obtain ⟨segs, name, hsegs, hpath⟩ := h.exists_segments_concat hne
  have hname : IsSegment name := isSegment_of_mem_segments (hsegs ▸ List.mem_concat_self)
  have hsplit : splitParent path = some (ofSegments segs, name) :=
    hpath ▸ splitParent_ofSegments_concat segs hname
  have hparent : Path.parent path = ofSegments segs := hpath ▸ parent_ofSegments_concat segs hname
  rw [fileName, hsplit, hparent]

/-- What was joined onto a directory is split off again. -/
theorem IsNormal.splitParent_join (h : IsNormal dir) (hname : IsSegment name) :
    splitParent (Path.join dir name) = some (dir, name) := by
  rw [h.join_eq, splitParent_ofSegments_concat _ hname, h]

theorem IsNormal.fileName_join (h : IsNormal dir) (hname : IsSegment name) :
    fileName (Path.join dir name) = name := by
  rw [fileName, h.splitParent_join hname]

/-- A name that is joined onto a path adds a segment, in whatever way the path is spelled. -/
theorem segments_join (dir : String) (h : IsSegment name) :
    segments (join dir name) = segments dir ++ [name] := by
  rw [join]
  split
  next hroot =>
    have hslash := segments_append_segment "" h
    rw [String.empty_append] at hslash
    rw [hslash, hroot]
    rfl
  next => exact segments_append_segment dir h

/-- The path and a slash, which is there already at the root, and the name. -/
theorem join_eq_append (dir name : String) : join dir name = join dir "" ++ name := by
  unfold join
  split <;> simp

/-- What has something behind its first slash is not the root. -/
private theorem join_append_ne_root (dir : String) {rest : String} (h : rest ≠ "") :
    join dir "" ++ rest ≠ root := by
  intro hroot
  have hslash : 1 ≤ (join dir "").length := by
    have hone : "/".length = 1 := rfl
    unfold join
    split <;> simp [hone]
  have hrest : rest.length ≠ 0 := fun hzero => h (String.length_eq_zero_iff.1 hzero)
  have hlength : (join dir "").length + rest.length = 1 := by
    rw [← String.length_append, hroot]
    rfl
  omega

/-! ## One name after the other -/

theorem segments_foldl_join (dir : String) (h : ∀ name ∈ names, IsSegment name) :
    segments (names.foldl join dir) = segments dir ++ names := by
  induction names generalizing dir with
  | nil => rw [List.foldl_nil, List.append_nil]
  | cons name rest ih =>
    obtain ⟨hname, hrest⟩ := List.forall_mem_cons.1 h
    rw [List.foldl_cons, ih _ hrest, segments_join dir hname, List.append_assoc, List.singleton_append]

theorem IsNormal.foldl_join (hdir : IsNormal dir) (h : ∀ name ∈ names, IsSegment name) :
    IsNormal (names.foldl Path.join dir) := by
  induction names generalizing dir with
  | nil => exact hdir
  | cons name rest ih =>
    obtain ⟨hname, hrest⟩ := List.forall_mem_cons.1 h
    exact ih (hdir.join hname).1 hrest

theorem foldl_join_ne_empty (h : dir ≠ "") (names : List String) : names.foldl join dir ≠ "" := by
  induction names generalizing dir with
  | nil => exact h
  | cons name rest ih =>
    apply ih
    rw [join_eq_append, join]
    split <;> simp

/-- The last name is what a path ends in that names were joined onto. -/
theorem IsNormal.fileName_foldl_join (hdir : IsNormal dir) (h : ∀ name ∈ names, IsSegment name)
    (hlast : names.getLast? = some name) : fileName (names.foldl Path.join dir) = name := by
  obtain ⟨before, rfl⟩ := List.getLast?_eq_some_iff.1 hlast
  have hbefore : ∀ other ∈ before, IsSegment other := by
    intro other hother
    exact h other (List.mem_append_left _ hother)
  rw [List.foldl_append, List.foldl_cons, List.foldl_nil]
  exact (hdir.foldl_join hbefore).fileName_join (h name List.mem_concat_self)

/-- The rest of the path after what it starts from does not depend on the start. -/
theorem foldl_join_eq_append (h : ∀ name ∈ names, name ≠ "") (hne : names ≠ []) :
    ∃ rest, rest ≠ "" ∧ ∀ dir, names.foldl join dir = join dir "" ++ rest := by
  induction names using List.reverseRecOn with
  | nil => exact absurd rfl hne
  | append_singleton before name ih =>
    have hname : name ≠ "" := h name List.mem_concat_self
    by_cases hbefore : before = []
    · subst hbefore
      exact ⟨name, hname, fun dir => join_eq_append dir name⟩
    · obtain ⟨rest, hrest, hall⟩ := ih (fun other hother => h other (List.mem_append_left _ hother)) hbefore
      refine ⟨rest ++ "/" ++ name, ?_, fun dir => ?_⟩
      · exact fun hempty => hname (String.append_eq_empty_iff.1 hempty).2
      · rw [List.foldl_append, hall, List.foldl_cons, List.foldl_nil, join,
          if_neg (join_append_ne_root dir hrest)]
        simp only [String.append_assoc]

/-! ## Replacing the start -/

/-- The path that begins with `new` where `path` begins with `old`. A path that does not lie below `old` is
left as it is. -/
def rebase (old new path : String) : String :=
  match Text.dropStart? (join old "") path with
  | some rest => join new rest
  | none => path

/-- Names that were joined onto one path are joined onto the other. -/
theorem rebase_foldl_join (h : ∀ name ∈ names, name ≠ "") (hne : names ≠ []) (old new : String) :
    rebase old new (names.foldl join old) = names.foldl join new := by
  obtain ⟨rest, -, hall⟩ := foldl_join_eq_append h hne
  have hdrop : Text.dropStart? (join old "") (join old "" ++ rest) = some rest :=
    Text.dropStart?_eq_some_iff.2 rfl
  rw [rebase, hall old, hdrop, hall new]
  exact join_eq_append new rest

end VirtualShell.Path
