import VirtualShell.Proofs.Path.Normal

/-!
# How normal paths are spelled

Whether a path is normal can be read off its text. It is `Tidy` if it begins with a slash, never has two slashes
in a row, and does not end in a slash unless it is the root. That is to be the normal form of one's own segments
(`isNormal_iff_tidy`), since the pieces between the slashes of a tidy path are its segments.

What an expression denotes is told by rules (`Denotes`). The rules for `.` and `..` ask for the directory in turn,
seen from the root, and the directory may be one of these expressions itself. That this comes to an end, with the
absolute form and with nothing else, is `denotes_iff`.
-/

namespace VirtualShell.Path

variable {path : String} {segs : List String}

/-! ## Tidy texts -/

/-- A text that spells a path without a slash too many. -/
structure Tidy (path : String) : Prop where
  begins : Text.startsWith path "/" = true
  /-- No segment is empty. -/
  single : ¬ ['/', '/'] <:+: path.toList
  ends : path ≠ root → path.toList.getLast? ≠ some '/'

theorem tidy_root : Tidy root where
  begins := by decide
  single := by decide
  ends h := absurd rfl h

/-- A normal form has nothing before its first slash and a segment behind each of them. -/
theorem ofSegments_eq_intercalate (h : segs ≠ []) : ofSegments segs = "/".intercalate ("" :: segs) := by
  rw [ofSegments_of_ne_nil h]
  clear h
  induction segs with
  | nil => rfl
  | cons first rest ih =>
    rw [List.map_cons, String.join_cons, ih, String.intercalate_cons_of_ne_nil (List.cons_ne_nil first rest),
      String.empty_append, String.append_assoc]
    by_cases hrest : rest = []
    · subst hrest
      rw [String.intercalate_singleton, String.intercalate_singleton, String.append_empty]
    · rw [String.intercalate_cons_of_ne_nil hrest, String.intercalate_cons_of_ne_nil hrest,
        String.empty_append, String.append_assoc]

/-- The pieces between the slashes of a normal form. -/
theorem splitOn_ofSegments (hne : segs ≠ []) (h : ∀ segment ∈ segs, IsSegment segment) :
    (ofSegments segs).toList.splitOn '/' = [] :: segs.map String.toList := by
  have hpieces : ∀ piece ∈ ("" :: segs).map String.toList, '/' ∉ piece := by
    rw [List.map_cons, List.forall_mem_cons, List.forall_mem_map]
    exact ⟨List.not_mem_nil, fun segment hsegment => (h segment hsegment).2⟩
  rw [ofSegments_eq_intercalate hne, String.toList_intercalate]
  exact List.splitOn_intercalate '/' hpieces (by simp)

/-- What stands behind a slash of a normal form splits into segments. -/
private theorem ne_nil_of_mem_behind (hne : segs ≠ []) (h : ∀ segment ∈ segs, IsSegment segment)
    {before behind piece : List Char} (htext : (ofSegments segs).toList = before ++ '/' :: behind)
    (hpiece : piece ∈ behind.splitOn '/') : piece ≠ [] := by
  have hsplit := splitOn_ofSegments hne h
  rw [htext, List.splitOn_append_cons_self] at hsplit
  obtain ⟨first, more, hfirst⟩ := List.exists_cons_of_ne_nil (List.splitOn_ne_nil '/' before)
  rw [hfirst, List.cons_append, List.cons.injEq] at hsplit
  have hmem : piece ∈ segs.map String.toList := by
    rw [← hsplit.2]
    exact List.mem_append_right _ hpiece
  obtain ⟨segment, hsegment, rfl⟩ := List.mem_map.1 hmem
  exact fun hempty => (h segment hsegment).1 (String.toList_eq_nil_iff.1 hempty)

theorem tidy_ofSegments (h : ∀ segment ∈ segs, IsSegment segment) : Tidy (ofSegments segs) := by
  by_cases hne : segs = []
  · rw [hne]
    exact tidy_root
  · refine ⟨(isNormal_ofSegments h).startsWith, ?_, fun _ => ?_⟩
    · rintro ⟨before, behind, hinfix⟩
      have htext : (ofSegments segs).toList = before ++ '/' :: '/' :: behind := by simp [← hinfix]
      refine ne_nil_of_mem_behind hne h htext ?_ rfl
      rw [← List.nil_append ('/' :: behind), List.splitOn_append_cons_self]
      exact List.mem_cons_self
    · intro hlast
      obtain ⟨before, htext⟩ := List.getLast?_eq_some_iff.1 hlast
      exact ne_nil_of_mem_behind hne h htext List.mem_cons_self rfl

/-- A text is what its pieces between slashes make when they are put together again. -/
private theorem intercalate_pieces (path : String) :
    "/".intercalate ((path.toList.splitOn '/').map String.ofList) = path := by
  apply String.toList_injective
  rw [String.toList_intercalate, List.map_map]
  simp [Function.comp_def, List.intercalate_splitOn]

/-- Behind its first slash, a tidy path other than the root has no empty piece. -/
private theorem Tidy.ne_empty_of_mem (h : Tidy path) (hroot : path ≠ root) {pieces : List String}
    (hpieces : "/".intercalate ("" :: pieces) = path) : ∀ piece ∈ pieces, piece ≠ "" := by
  rintro piece hpiece rfl
  obtain ⟨before, behind, rfl⟩ := List.append_of_mem hpiece
  rw [← List.cons_append, String.intercalate_append_of_ne_nil (List.cons_ne_nil _ _) (List.cons_ne_nil _ _)]
    at hpieces
  by_cases hbehind : behind = []
  · apply h.ends hroot
    rw [← hpieces, hbehind, String.intercalate_singleton, String.append_empty, String.toList_append]
    exact List.getLast?_concat
  · apply h.single
    rw [← hpieces, String.intercalate_cons_of_ne_nil hbehind]
    exact ⟨("/".intercalate ("" :: before)).toList, ("/".intercalate behind).toList, by simp⟩

/-- **Normal paths are the tidy ones.** -/
theorem isNormal_iff_tidy : IsNormal path ↔ Tidy path := by
  constructor
  · intro h
    rw [← h]
    exact tidy_ofSegments fun _ => isSegment_of_mem_segments
  · intro h
    by_cases hroot : path = root
    · rw [hroot]
      exact isNormal_root
    · obtain ⟨behind, hbehind⟩ : ['/'] <+: path.toList := List.isPrefixOf_iff_prefix.1 h.begins
      have hsplit : path.toList.splitOn '/' = [] :: behind.splitOn '/' := by
        rw [← hbehind]
        exact List.splitOn_append_cons_self [] behind
      have hpieces := intercalate_pieces path
      rw [hsplit, List.map_cons] at hpieces
      have hfull := h.ne_empty_of_mem hroot hpieces
      have hsegments : segments path = (behind.splitOn '/').map String.ofList := by
        rw [segments, hsplit, List.filter_cons_of_neg (by simp), List.filter_eq_self.2]
        intro piece hpiece
        have hne : String.ofList piece ≠ "" := hfull _ (List.mem_map_of_mem hpiece)
        simpa [String.ofList_eq_empty_iff] using hne
      rw [IsNormal, hsegments, ofSegments_eq_intercalate (by simp [List.splitOn_ne_nil])]
      exact hpieces

/-! ## What an expression denotes -/

/-- The rules by which an expression that is typed in a directory denotes a path. -/
inductive Denotes : (expr cwd path : String) → Prop
  /-- The directory itself, seen from the root. -/
  | here {cwd path : String} (h : Denotes cwd root path) : Denotes "." cwd path
  /-- The directory above it. -/
  | above {cwd path : String} (h : Denotes cwd root path) : Denotes ".." cwd (parent path)
  | rooted {expr : String} (cwd : String) (h : Text.startsWith expr "/" = true) :
    Denotes expr cwd (ofSegments (segments expr))
  | relative {expr : String} (cwd : String) (hdots : isDots expr = false)
    (h : Text.startsWith expr "/" = false) : Denotes expr cwd (ofSegments (segments cwd ++ segments expr))

/-- Seen from the root, the absolute form of an expression is its normal form. -/
theorem absolute_root (expr : String) : absolute expr root = normalize expr := by
  cases hdots : isDots expr with
  | true =>
    rw [isDots, Bool.or_eq_true, beq_iff_eq, beq_iff_eq] at hdots
    rcases hdots with rfl | rfl <;> rfl
  | false =>
    obtain ⟨hdot, hdotdot⟩ := isDots_eq_false_iff.1 hdots
    rw [absolute, if_neg hdot, if_neg hdotdot, segments_root, List.nil_append, ite_self, normalize, hdots]
    rfl

theorem absolute_of_denotes {expr cwd : String} (h : Denotes expr cwd path) : absolute expr cwd = path := by
  induction h with
  | here _ ih => rw [← ih, absolute_root, absolute, if_pos rfl]
  | above _ ih => rw [← ih, absolute_root, absolute, if_neg (by decide), if_pos rfl]
  | rooted cwd h =>
    obtain ⟨hdot, hdotdot⟩ := isDots_eq_false_iff.1 (isDots_eq_false_of_startsWith h)
    rw [absolute, if_neg hdot, if_neg hdotdot, if_pos h]
  | relative cwd hdots h =>
    obtain ⟨hdot, hdotdot⟩ := isDots_eq_false_iff.1 hdots
    rw [absolute, if_neg hdot, if_neg hdotdot, if_neg (by simp [h])]

/-- If the rules tell what a directory denotes, they tell what every expression denotes in it. -/
private theorem exists_denotes_of_root {cwd : String} (hcwd : ∃ path, Denotes cwd root path) (expr : String) :
    ∃ path, Denotes expr cwd path := by
  obtain ⟨path, hpath⟩ := hcwd
  cases hdots : isDots expr with
  | true =>
    rw [isDots, Bool.or_eq_true, beq_iff_eq, beq_iff_eq] at hdots
    rcases hdots with rfl | rfl
    · exact ⟨_, .here hpath⟩
    · exact ⟨_, .above hpath⟩
  | false =>
    cases hslash : Text.startsWith expr "/" with
    | true => exact ⟨_, .rooted cwd hslash⟩
    | false => exact ⟨_, .relative cwd hdots hslash⟩

/-- Every expression denotes its absolute form and nothing else. From any directory the rules lead to the root,
and from there to themselves no more. -/
theorem denotes_iff {expr cwd : String} : Denotes expr cwd path ↔ path = absolute expr cwd := by
  constructor
  · exact fun h => (absolute_of_denotes h).symm
  · rintro rfl
    have hroot : ∃ path, Denotes root root path := ⟨_, .rooted root (by decide)⟩
    obtain ⟨path, hpath⟩ := exists_denotes_of_root (exists_denotes_of_root hroot cwd) expr
    rwa [absolute_of_denotes hpath]

/-- **Absolute forms are canonical.** Whatever the expression and the directory are, the rules come to an end,
with one path, the absolute form. That path begins with a slash, has no empty segment, does not end in a slash
unless it is the root, and denotes itself in every directory. Two paths of this kind are equal if and only if
their segments are. Neither the expression nor the directory has to be spelled in any order. -/
theorem absolute_forms_canonical :
    (∀ expr cwd path, Denotes expr cwd path ↔ path = absolute expr cwd) ∧
    (∀ expr cwd, Tidy (absolute expr cwd) ∧
      ∀ dir, absolute (absolute expr cwd) dir = absolute expr cwd) ∧
    ∀ path other, Tidy path → Tidy other → (path = other ↔ segments path = segments other) := by
  refine ⟨fun expr cwd path => denotes_iff, fun expr cwd => ?_, fun path other hpath hother => ?_⟩
  · have hnormal : IsNormal (absolute expr cwd) := isNormal_absolute expr cwd
    exact ⟨isNormal_iff_tidy.1 hnormal, hnormal.absolute_eq⟩
  · refine ⟨congrArg segments, fun hsegments => ?_⟩
    exact (isNormal_iff_tidy.2 hpath).eq_of_segments_eq (isNormal_iff_tidy.2 hother) hsegments

/-- In a directory that is spelled without a slash in front, one at the end and two in between, an expression
with a dot in it and the path that it denotes. -/
theorem absolute_forms_canonical_untidy :
    let path := absolute "./b//" "x//a/"
    let other := "/x/a/./b"
    Denotes "./b//" "x//a/" other ∧ Tidy path ∧ Tidy other ∧ segments path = segments other ∧ path = other ∧
      absolute path ".." = path := by
  intro path other
  obtain ⟨hdenotes, hcanonical, hequal⟩ := absolute_forms_canonical
  obtain ⟨hpath, hfixed⟩ := hcanonical "./b//" "x//a/"
  have hother : Tidy other := isNormal_iff_tidy.1 (by decide)
  have hsegments : segments path = segments other := by decide
  exact ⟨(hdenotes _ _ _).2 (by decide), hpath, hother, hsegments, (hequal path other hpath hother).2 hsegments,
    hfixed ".."⟩

end VirtualShell.Path
