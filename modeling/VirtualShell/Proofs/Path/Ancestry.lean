import VirtualShell.Proofs.Path.Joining
import VirtualShell.Proofs.Path.Spelling

/-!
# Ancestors and names

Lying within an ancestor is compared by texts, and the parent and the name of a path are found at its last slash.
Among tidy paths both are matters of segments. An ancestor is a prefix of the segments, so that the comparison is
a partial order (`isPartialOrder_isWithin`) in which no entry of a directory lies within another one, whatever
their names have in common (`isWithin_join_eq_false`). The parent and the name are the segments but the last one
and the last one, and joining them gives back the path (`IsNormal.join_parent_fileName`).
-/

namespace VirtualShell.Path

variable {path other dir name : String}

/-! ## Ancestors -/

/-- Two normal paths that lie within each other are the same. -/
theorem IsNormal.eq_of_isWithin (hpath : IsNormal path) (hother : IsNormal other)
    (h : isWithin path other = true) (h' : isWithin other path = true) : path = other := by
  have hdown := segments_prefix_of_isWithin h
  have hup := segments_prefix_of_isWithin h'
  have hlength := Nat.le_antisymm hup.length_le hdown.length_le
  exact hpath.eq_of_segments_eq hother (hup.eq_of_length hlength)

/-- Tidy paths are partially ordered by lying within each other. -/
theorem isPartialOrder_isWithin :
    IsPartialOrder {path // Tidy path} fun path ancestor => isWithin path.1 ancestor.1 = true where
  refl path := by
    have hnormal := isNormal_iff_tidy.2 path.2
    exact (isWithin_iff_segments hnormal hnormal).2 List.prefix_rfl
  trans path middle ancestor hlower hupper := by
    refine (isWithin_iff_segments (isNormal_iff_tidy.2 path.2) (isNormal_iff_tidy.2 ancestor.2)).2 ?_
    exact (segments_prefix_of_isWithin hupper).trans (segments_prefix_of_isWithin hlower)
  antisymm path other h h' :=
    Subtype.ext ((isNormal_iff_tidy.2 path.2).eq_of_isWithin (isNormal_iff_tidy.2 other.2) h h')

/-- No entry of a directory lies within another one. -/
theorem isWithin_join_eq_false {sibling : String} (hname : IsSegment name) (hsibling : IsSegment sibling)
    (hne : name ≠ sibling) (dir : String) : isWithin (join dir name) (join dir sibling) = false := by
  rw [← Bool.not_eq_true]
  intro hwithin
  have hprefix := segments_prefix_of_isWithin hwithin
  rw [segments_join dir hname, segments_join dir hsibling, List.prefix_append_right_inj,
    List.singleton_prefix_cons_iff] at hprefix
  exact hne hprefix.symm

/-! ## Names -/

/-- The last segment of a path other than the root is its name. -/
theorem IsNormal.getLast?_segments (h : IsNormal path) (hne : path ≠ root) :
    (segments path).getLast? = some (fileName path) := by
  obtain ⟨-, -, hsegments⟩ := h.of_splitParent (h.splitParent_eq hne)
  rw [hsegments, List.getLast?_concat]

/-- Joining the name of a path onto its parent gives back the path. -/
theorem IsNormal.join_parent_fileName (h : IsNormal path) (hne : path ≠ root) :
    Path.join (Path.parent path) (fileName path) = path := by
  obtain ⟨hparent, -, hsegments⟩ := h.of_splitParent (h.splitParent_eq hne)
  rw [hparent.join_eq, ← hsegments, h]

/-- **Ancestors, parents and names are what the segments say.** Of paths that begin with a slash, have no empty
segment and do not end in a slash unless they are the root, one lies within another if and only if it begins with
its segments. So this is a partial order, and the entries of a directory are unrelated even if one name begins
with another. Each of these paths but the root is split into its parent, which is such a path too, and its last
segment, and joining the two gives back the path. Conversely, a name without a slash that is joined onto such a
path gives such a path, which is split into the two again. Every plain name is a segment, and so are `.` and
`..`. -/
theorem ancestry_by_segments :
    (∀ path ancestor, Tidy path → Tidy ancestor →
      (isWithin path ancestor = true ↔ segments ancestor <+: segments path)) ∧
    IsPartialOrder {path // Tidy path} (fun path ancestor => isWithin path.1 ancestor.1 = true) ∧
    (∀ dir name sibling, IsSegment name → IsSegment sibling → name ≠ sibling →
      isWithin (join dir name) (join dir sibling) = false) ∧
    (∀ path, Tidy path → path ≠ root →
      splitParent path = some (parent path, fileName path) ∧ Tidy (parent path) ∧
        (segments path).getLast? = some (fileName path) ∧ join (parent path) (fileName path) = path) ∧
    ∀ dir name, Tidy dir → IsSegment name →
      Tidy (join dir name) ∧ splitParent (join dir name) = some (dir, name) := by
  refine ⟨fun path ancestor hpath hancestor => ?_, isPartialOrder_isWithin,
    fun dir name sibling hname hsibling hne => isWithin_join_eq_false hname hsibling hne dir,
    fun path hpath hne => ?_, fun dir name hdir hname => ?_⟩
  · exact isWithin_iff_segments (isNormal_iff_tidy.2 hpath) (isNormal_iff_tidy.2 hancestor)
  · have hnormal : IsNormal path := isNormal_iff_tidy.2 hpath
    exact ⟨hnormal.splitParent_eq hne, isNormal_iff_tidy.1 hnormal.parent, hnormal.getLast?_segments hne,
      hnormal.join_parent_fileName hne⟩
  · have hnormal : IsNormal dir := isNormal_iff_tidy.2 hdir
    exact ⟨isNormal_iff_tidy.1 (hnormal.join hname).1, hnormal.splitParent_join hname⟩

/-- Two directories below the root, of which one name begins with the other, and a file in the one with the
longer name. -/
theorem ancestry_by_segments_common_start :
    let longer := join root "ab"
    let shorter := join root "a"
    let file := join longer "c"
    Tidy longer ∧ Tidy shorter ∧ IsSegment "ab" ∧ IsSegment "a" ∧ IsSegment "c" ∧
      isWithin longer shorter = false ∧ isWithin file longer = true ∧ isWithin file shorter = false ∧
      Tidy file ∧ file ≠ root ∧ splitParent file = some (parent file, fileName file) ∧
      splitParent file = some (longer, "c") := by
  intro longer shorter file
  have hab : IsSegment "ab" := ⟨by decide, by decide⟩
  have ha : IsSegment "a" := ⟨by decide, by decide⟩
  have hc : IsSegment "c" := ⟨by decide, by decide⟩
  obtain ⟨hwithin, -, hsiblings, hsplit, hjoin⟩ := ancestry_by_segments
  have hlonger : Tidy longer := (hjoin root "ab" tidy_root hab).1
  have hshorter : Tidy shorter := (hjoin root "a" tidy_root ha).1
  obtain ⟨hfile, hback⟩ := hjoin longer "c" hlonger hc
  have hne : file ≠ root := by decide
  refine ⟨hlonger, hshorter, hab, ha, hc, hsiblings root "ab" "a" hab ha (by decide),
    (hwithin file longer hfile hlonger).2 (by decide), ?_, hfile, hne, (hsplit file hfile hne).1, hback⟩
  rw [← Bool.not_eq_true, hwithin file shorter hfile hshorter]
  decide

end VirtualShell.Path
