import Mathlib.Data.List.Induction
import VirtualShell.Path
import VirtualShell.Proofs.Text.Lines

/-!
# Paths in normal form

A path is in normal form if it is what `ofSegments` writes for its own segments. Every path that a
command works on is the absolute form of an operand, so the main statement here is `isNormal_absolute`:
absolute forms are normal, whatever the operand and the directory are.

Among normal paths, texts and lists of segments say the same. `IsNormal.eq_of_segments_eq` recovers the
text from the segments, `IsNormal.of_splitParent` reads a split as one more segment, and
`isWithin_iff_segments` turns the textual comparison with an ancestor into a prefix of segments. The
last one is what the refusals to remove or move a directory in use rest on.
-/

namespace VirtualShell.Path

/-- What a path can hold between two slashes. -/
def IsSegment (segment : String) : Prop :=
  segment ≠ "" ∧ '/' ∉ segment.toList

/-- A path that is the normal form with its own segments. -/
def IsNormal (path : String) : Prop :=
  ofSegments (segments path) = path

instance (path : String) : Decidable (IsNormal path) :=
  inferInstanceAs (Decidable (_ = _))

/-- A plain name is a segment that no position gives a meaning to. -/
theorem isPlain_iff {name : String} : isPlain name = true ↔ IsSegment name ∧ isDots name = false := by
  rw [isPlain, IsSegment, Bool.and_eq_true, Bool.and_eq_true]
  simp only [Bool.not_eq_true', String.isEmpty_eq_false_iff, List.contains_eq_mem,
    decide_eq_false_iff_not]
  exact ⟨fun ⟨⟨hne, hdots⟩, hslash⟩ => ⟨⟨hne, hslash⟩, hdots⟩,
    fun ⟨⟨hne, hslash⟩, hdots⟩ => ⟨⟨hne, hdots⟩, hslash⟩⟩

theorem isDots_of_isPlain {name : String} (h : isPlain name = true) : isDots name = false :=
  (isPlain_iff.1 h).2

theorem isDots_eq_false_iff {name : String} : isDots name = false ↔ name ≠ "." ∧ name ≠ ".." := by
  simp [isDots]

/-! ## Segments -/

theorem isSegment_of_mem_segments {path segment : String} (h : segment ∈ segments path) :
    IsSegment segment := by
  obtain ⟨piece, hpiece, rfl⟩ := List.mem_map.1 h
  obtain ⟨hmem, hne⟩ := List.mem_filter.1 hpiece
  refine ⟨fun hempty => ?_, by simpa using Text.not_mem_of_mem_splitOn hmem⟩
  have : piece = [] := by simpa using congrArg String.toList hempty
  simp [this] at hne

/-- A slash ends the segments before it and begins those behind it. -/
theorem segments_append_slash (before behind : String) :
    segments (before ++ "/" ++ behind) = segments before ++ segments behind := by
  have htext : (before ++ "/" ++ behind).toList = before.toList ++ '/' :: behind.toList := by simp
  rw [segments, htext, List.splitOn_append_cons_self, List.filter_append, List.map_append]
  rfl

@[simp]
theorem segments_empty : segments "" = [] := rfl

@[simp]
theorem segments_root : segments root = [] := rfl

/-- A segment is a path of one segment. -/
theorem segments_segment {segment : String} (h : IsSegment segment) :
    segments segment = [segment] := by
  have hne : segment.toList ≠ [] := fun e => h.1 (by simpa using e)
  simp [segments, List.splitOn_eq_singleton h.2, hne]

/-- One more segment after a slash. -/
theorem segments_append_segment (path : String) {segment : String} (h : IsSegment segment) :
    segments (path ++ "/" ++ segment) = segments path ++ [segment] := by
  rw [segments_append_slash, segments_segment h]

/-! ## Normal forms -/

@[simp]
theorem ofSegments_nil : ofSegments [] = root := rfl

/-- The normal form with at least one segment. -/
theorem ofSegments_of_ne_nil {segs : List String} (h : segs ≠ []) :
    ofSegments segs = String.join (segs.map ("/" ++ ·)) := by
  cases segs with
  | nil => exact absurd rfl h
  | cons _ _ => rfl

/-- Appending a segment to a normal form: the slash of the root is not doubled. -/
theorem ofSegments_concat (segs : List String) (segment : String) :
    ofSegments (segs ++ [segment]) =
      (if segs = [] then "" else ofSegments segs) ++ "/" ++ segment := by
  cases segs with
  | nil => simp [ofSegments, String.join]
  | cons first rest =>
    rw [ofSegments_of_ne_nil (by simp), List.map_append, String.join_append]
    simp [ofSegments, String.join, String.append_assoc]

/-- Writing segments and reading them again. -/
theorem segments_ofSegments {segs : List String} (h : ∀ segment ∈ segs, IsSegment segment) :
    segments (ofSegments segs) = segs := by
  induction segs using List.reverseRecOn with
  | nil => rfl
  | append_singleton segs segment ih =>
    have hsegs := ih fun s hs => h s (List.mem_append_left _ hs)
    rw [ofSegments_concat, segments_append_segment _ (h segment (by simp))]
    split
    next hnil => simp [hnil]
    next => rw [hsegs]

theorem isNormal_ofSegments {segs : List String} (h : ∀ segment ∈ segs, IsSegment segment) :
    IsNormal (ofSegments segs) := by
  rw [IsNormal, segments_ofSegments h]

theorem isNormal_root : IsNormal root := rfl

/-- A normal path is determined by its segments. -/
theorem IsNormal.eq_of_segments_eq {path other : String} (hpath : IsNormal path)
    (hother : IsNormal other) (h : segments path = segments other) : path = other := by
  rw [← hpath, ← hother, h]

/-- A normal path begins with a slash. -/
theorem IsNormal.startsWith {path : String} (h : IsNormal path) : Text.startsWith path "/" = true := by
  rw [Text.startsWith, List.isPrefixOf_iff_prefix, ← h]
  cases segments path with
  | nil => exact List.prefix_rfl
  | cons first rest =>
    exact ⟨first.toList ++ (String.join (rest.map ("/" ++ ·))).toList,
      by simp [ofSegments, String.join_cons]⟩

theorem IsNormal.ne_empty {path : String} (h : IsNormal path) : path ≠ "" := by
  rintro rfl
  cases h.startsWith

/-- What begins with a slash is none of the expressions with a meaning of their own. -/
theorem isDots_eq_false_of_startsWith {expr : String} (h : Text.startsWith expr "/" = true) :
    isDots expr = false := by
  rw [isDots_eq_false_iff]
  constructor
  · rintro rfl
    cases h
  · rintro rfl
    cases h

/-- Typed in any directory, a normal path means itself. -/
theorem IsNormal.absolute_eq {path : String} (h : IsNormal path) (cwd : String) :
    absolute path cwd = path := by
  obtain ⟨hdot, hdotdot⟩ := isDots_eq_false_iff.1 (isDots_eq_false_of_startsWith h.startsWith)
  rw [absolute, if_neg hdot, if_neg hdotdot, if_pos h.startsWith]
  exact h

theorem IsNormal.segments_eq_nil_iff {path : String} (h : IsNormal path) :
    segments path = [] ↔ path = root := by
  refine ⟨fun hnil => ?_, fun hroot => hroot ▸ rfl⟩
  rw [← h, hnil, ofSegments_nil]

/-- A normal path other than the root has a last segment. -/
theorem IsNormal.exists_segments_concat {path : String} (h : IsNormal path) (hne : path ≠ root) :
    ∃ segs name, segments path = segs ++ [name] ∧ path = ofSegments (segs ++ [name]) := by
  rcases List.eq_nil_or_concat (segments path) with hnil | ⟨segs, name, hconcat⟩
  · exact absurd (h.segments_eq_nil_iff.1 hnil) hne
  · rw [List.concat_eq_append] at hconcat
    exact ⟨segs, name, hconcat, by rw [← hconcat, h]⟩

/-- The text before the last slash of a normal form is empty only below the root. -/
private theorem ofSegments_ne_empty (segs : List String) : ofSegments segs ≠ "" := by
  cases segs with
  | nil => simp [root]
  | cons first rest =>
    intro h
    have := congrArg String.toList h
    simp [ofSegments, String.toList_join] at this

/-! ## Splitting off the last segment -/

/-- The cut of a normal form at its last slash. -/
private theorem cutLast_ofSegments_concat (segs : List String) {name : String} (h : IsSegment name) :
    Text.cutLast '/' (ofSegments (segs ++ [name])).toList =
      some ((if segs = [] then "" else ofSegments segs).toList, name.toList) := by
  refine Text.cutLast_eq_some_iff.2 ⟨?_, h.2⟩
  rw [ofSegments_concat]
  simp

private theorem ofSegments_concat_ne_root (segs : List String) {name : String} (h : IsSegment name) :
    ofSegments (segs ++ [name]) ≠ root := by
  intro heq
  have hcut := cutLast_ofSegments_concat segs h
  rw [heq] at hcut
  have hname : [] = name.toList := (Prod.mk.inj (Option.some.inj hcut)).2
  exact h.1 (by simpa using hname.symm)

theorem splitParent_ofSegments_concat (segs : List String) {name : String} (h : IsSegment name) :
    splitParent (ofSegments (segs ++ [name])) = some (ofSegments segs, name) := by
  rw [splitParent, if_neg (ofSegments_concat_ne_root segs h), cutLast_ofSegments_concat segs h]
  cases segs with
  | nil => simp
  | cons first rest =>
    have hne : (ofSegments (first :: rest)).toList ≠ [] :=
      fun e => ofSegments_ne_empty (first :: rest) (by simpa using e)
    simp [hne]

theorem parent_ofSegments_concat (segs : List String) {name : String} (h : IsSegment name) :
    parent (ofSegments (segs ++ [name])) = ofSegments segs := by
  rw [parent, cutLast_ofSegments_concat segs h]
  cases segs with
  | nil => rfl
  | cons first rest =>
    have hne : (ofSegments (first :: rest)).toList ≠ [] :=
      fun e => ofSegments_ne_empty (first :: rest) (by simpa using e)
    have htext : String.ofList (ofSegments (first :: rest)).toList = ofSegments (first :: rest) :=
      String.ofList_toList
    rw [if_neg (by simp)]
    cases hchars : (ofSegments (first :: rest)).toList with
    | nil => exact absurd hchars hne
    | cons c cs =>
      rw [hchars] at htext
      exact htext

/-- A split of a normal path: the directory is normal, the name is a segment, and together they have
the segments of the path. -/
theorem IsNormal.of_splitParent {path dir name : String} (h : IsNormal path)
    (hsplit : splitParent path = some (dir, name)) :
    IsNormal dir ∧ IsSegment name ∧ segments path = segments dir ++ [name] := by
  have hne : path ≠ root := by
    rintro rfl
    simp [splitParent] at hsplit
  obtain ⟨segs, last, hsegs, hpath⟩ := h.exists_segments_concat hne
  have hall : ∀ s ∈ segs ++ [last], IsSegment s :=
    fun s hs => isSegment_of_mem_segments (hsegs ▸ hs)
  have hlast : IsSegment last := hall last (by simp)
  have hfront := fun s hs => hall s (List.mem_append_left _ hs)
  rw [hpath, splitParent_ofSegments_concat segs hlast] at hsplit
  obtain ⟨rfl, rfl⟩ := Prod.mk.inj (Option.some.inj hsplit)
  exact ⟨isNormal_ofSegments hfront, hlast, by rw [hsegs, segments_ofSegments hfront]⟩

/-- Every normal path but the root can be split. -/
theorem IsNormal.exists_splitParent {path : String} (h : IsNormal path) (hne : path ≠ root) :
    ∃ dir name, splitParent path = some (dir, name) := by
  obtain ⟨segs, name, hsegs, hpath⟩ := h.exists_segments_concat hne
  have hmem : name ∈ segments path := by
    rw [hsegs]
    exact List.mem_concat_self
  have hname := isSegment_of_mem_segments hmem
  exact ⟨_, _, hpath ▸ splitParent_ofSegments_concat segs hname⟩

theorem IsNormal.parent {path : String} (h : IsNormal path) : IsNormal (parent path) := by
  by_cases hroot : path = root
  · rw [hroot]
    exact isNormal_root
  · obtain ⟨segs, name, hsegs, hpath⟩ := h.exists_segments_concat hroot
    have hall : ∀ s ∈ segs ++ [name], IsSegment s :=
      fun s hs => isSegment_of_mem_segments (hsegs ▸ hs)
    rw [hpath, parent_ofSegments_concat segs (hall name (by simp))]
    exact isNormal_ofSegments fun s hs => hall s (List.mem_append_left _ hs)

/-- The parent of a path has the segments of the path but the last one; the root is its own parent. -/
theorem IsNormal.segments_parent {path : String} (h : IsNormal path) :
    segments (Path.parent path) = (segments path).dropLast := by
  by_cases hroot : path = root
  · subst hroot
    rfl
  · obtain ⟨segs, name, hsegs, hpath⟩ := h.exists_segments_concat hroot
    have hall : ∀ segment ∈ segs ++ [name], IsSegment segment := by
      intro segment hmem
      exact isSegment_of_mem_segments (hsegs ▸ hmem)
    have hname : IsSegment name := hall name List.mem_concat_self
    have hfront : ∀ segment ∈ segs, IsSegment segment := by
      intro segment hmem
      exact hall segment (List.mem_append_left _ hmem)
    rw [hsegs, List.dropLast_concat, hpath, parent_ofSegments_concat segs hname]
    exact segments_ofSegments hfront

/-- Joining a segment onto a normal directory adds it to the segments. -/
theorem IsNormal.join_eq {dir name : String} (h : IsNormal dir) :
    join dir name = ofSegments (segments dir ++ [name]) := by
  rw [ofSegments_concat, join, h]
  by_cases hroot : dir = root
  · simp [hroot]
  · simp [hroot, h.segments_eq_nil_iff]

theorem IsNormal.join {dir name : String} (h : IsNormal dir) (hname : IsSegment name) :
    IsNormal (join dir name) ∧ segments (join dir name) = segments dir ++ [name] := by
  have hall : ∀ s ∈ segments dir ++ [name], IsSegment s := by
    intro s hs
    rcases List.mem_append.1 hs with hs | hs
    · exact isSegment_of_mem_segments hs
    · exact List.mem_singleton.1 hs ▸ hname
  rw [h.join_eq]
  exact ⟨isNormal_ofSegments hall, segments_ofSegments hall⟩

/-! ## Absolute forms -/

theorem isNormal_normalize (path : String) : IsNormal (normalize path) := by
  rw [normalize]
  split
  next => exact isNormal_root
  next => exact isNormal_ofSegments fun _ => isSegment_of_mem_segments

/-- The absolute form of any expression in any directory is normal. -/
theorem isNormal_absolute (expr cwd : String) : IsNormal (absolute expr cwd) := by
  rw [absolute]
  split
  next => exact isNormal_normalize cwd
  next =>
    split
    next => exact (isNormal_normalize cwd).parent
    next =>
      split
      next => exact isNormal_ofSegments fun _ => isSegment_of_mem_segments
      next =>
        refine isNormal_ofSegments fun s hs => ?_
        rcases List.mem_append.1 hs with hs | hs
        · exact isSegment_of_mem_segments hs
        · exact isSegment_of_mem_segments hs

/-- Alone, `.` and `..` stand for the directory in which they are typed or for one above it. -/
theorem segments_absolute_of_isDots {expr : String} (h : isDots expr = true) (cwd : String) :
    segments (absolute expr cwd) <+: segments cwd := by
  have hnormalize : segments (normalize cwd) <+: segments cwd := by
    rw [normalize]
    split
    next => exact List.nil_prefix
    next =>
      have hsame : segments (ofSegments (segments cwd)) = segments cwd :=
        segments_ofSegments fun _ => isSegment_of_mem_segments
      exact ⟨[], by rw [List.append_nil, hsame]⟩
  rw [isDots, Bool.or_eq_true, beq_iff_eq, beq_iff_eq] at h
  rcases h with rfl | rfl
  · exact hnormalize
  · rw [absolute, if_neg (by decide), if_pos rfl, (isNormal_normalize cwd).segments_parent]
    exact (List.dropLast_prefix _).trans hnormalize

/-- Any other expression ends as its absolute form does, if it has a segment. -/
theorem getLast?_segments_absolute {expr last : String} (hdots : isDots expr = false)
    (hlast : (segments expr).getLast? = some last) (cwd : String) :
    (segments (absolute expr cwd)).getLast? = some last := by
  have hplain : ∀ segment ∈ segments cwd ++ segments expr, IsSegment segment := by
    intro segment hmem
    exact (List.mem_append.1 hmem).elim isSegment_of_mem_segments isSegment_of_mem_segments
  obtain ⟨hdot, hdotdot⟩ := isDots_eq_false_iff.1 hdots
  rw [absolute, if_neg hdot, if_neg hdotdot]
  split
  next => rw [segments_ofSegments fun _ => isSegment_of_mem_segments, hlast]
  next => rw [segments_ofSegments hplain, List.getLast?_append, hlast, Option.some_or]

/-! ## Ancestors -/

/-- The normal form of two lists, each of which has a segment, one after the other. -/
private theorem ofSegments_append {segs rest : List String} (hsegs : segs ≠ []) (hrest : rest ≠ []) :
    ofSegments (segs ++ rest) = ofSegments segs ++ ofSegments rest := by
  rw [ofSegments_of_ne_nil (by simp [hsegs]), ofSegments_of_ne_nil hsegs,
    ofSegments_of_ne_nil hrest, List.map_append, String.join_append]

theorem isWithin_iff {path ancestor : String} :
    isWithin path ancestor = true ↔
      ancestor = root ∨ path = ancestor ∨ (ancestor ++ "/").toList <+: path.toList := by
  rw [isWithin, Bool.or_eq_true, Bool.or_eq_true, beq_iff_eq, beq_iff_eq, Text.startsWith,
    List.isPrefixOf_iff_prefix, or_assoc]

/-- What lies within an ancestor begins with its segments. -/
theorem segments_prefix_of_isWithin {path ancestor : String} (h : isWithin path ancestor = true) :
    segments ancestor <+: segments path := by
  rcases isWithin_iff.1 h with rfl | rfl | ⟨behind, hbehind⟩
  · exact List.nil_prefix
  · exact List.prefix_rfl
  · have htext : path = ancestor ++ "/" ++ String.ofList behind := by
      apply String.toList_injective
      simpa using hbehind.symm
    rw [htext, segments_append_slash]
    exact List.prefix_append _ _

/-- Among normal paths, lying within an ancestor is to begin with its segments. -/
theorem isWithin_iff_segments {path ancestor : String} (hpath : IsNormal path)
    (hancestor : IsNormal ancestor) :
    isWithin path ancestor = true ↔ segments ancestor <+: segments path := by
  refine ⟨segments_prefix_of_isWithin, ?_⟩
  rw [isWithin_iff]
  rintro ⟨rest, hrest⟩
  by_cases hroot : segments ancestor = []
  · exact .inl (hancestor.segments_eq_nil_iff.1 hroot)
  cases rest with
  | nil =>
    rw [List.append_nil] at hrest
    exact .inr (.inl (hpath.eq_of_segments_eq hancestor hrest.symm))
  | cons first more =>
    refine .inr (.inr ⟨(ofSegments (first :: more)).toList.tail, ?_⟩)
    rw [← hpath, ← hrest, ofSegments_append hroot (by simp), hancestor]
    simp [ofSegments, String.toList_join]

end VirtualShell.Path
