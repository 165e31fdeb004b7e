import Mathlib.Computability.RegularExpressions

/-!
# Regular expressions over characters

What it is for a text to match a choice of characters, several of them, or words between marks. The last one is
the same as splitting the text at the marks if no word holds the mark (`mem_separated_iff`).
-/

namespace VirtualShell.Text

open RegularExpression

variable {cs word : List Char} {mark : Char} {P : RegularExpression Char}

/-- One of some characters. -/
def oneOf (cs : List Char) : RegularExpression Char :=
  (cs.map char).sum

/-- Words of an expression, at least one, with a mark between any two. -/
def separated (mark : Char) (P : RegularExpression Char) : RegularExpression Char :=
  P * star (char mark * P)

theorem mem_oneOf_iff : word ∈ (oneOf cs).matches' ↔ ∃ c ∈ cs, word = [c] := by
  induction cs with
  | nil => exact ⟨fun h => absurd h (Language.notMem_zero _), fun ⟨_, hc, _⟩ => nomatch hc⟩
  | cons first rest ih =>
    have hsum : (oneOf (first :: rest)).matches' = {[first]} + (oneOf rest).matches' := rfl
    rw [hsum, Language.mem_add, ih, List.exists_mem_cons_iff]
    exact Iff.rfl

/-- Any number of the characters. -/
theorem mem_star_oneOf_iff : word ∈ (star (oneOf cs)).matches' ↔ ∀ c ∈ word, c ∈ cs := by
  rw [matches'_star, Language.mem_kstar]
  constructor
  · rintro ⟨pieces, rfl, hpieces⟩ c hc
    obtain ⟨piece, hpiece, hmem⟩ := List.mem_flatten.1 hc
    obtain ⟨d, hd, rfl⟩ := mem_oneOf_iff.1 (hpieces piece hpiece)
    rwa [List.mem_singleton.1 hmem]
  · intro h
    refine ⟨word.map ([·]), ?_, ?_⟩
    · induction word with
      | nil => rfl
      | cons c word ih => exact congrArg (c :: ·) (ih (List.forall_mem_cons.1 h).2)
    · intro piece hpiece
      obtain ⟨c, hc, rfl⟩ := List.mem_map.1 hpiece
      exact mem_oneOf_iff.2 ⟨c, h c hc, rfl⟩

/-- So many of the characters at the most. -/
theorem mem_atMost_oneOf_iff (n : ℕ) :
    word ∈ ((1 + oneOf cs) ^ n).matches' ↔ word.length ≤ n ∧ ∀ c ∈ word, c ∈ cs := by
  rw [matches'_pow]
  induction n generalizing word with
  | zero =>
    rw [pow_zero, Language.mem_one]
    constructor
    · rintro rfl
      exact ⟨Nat.le_refl 0, List.forall_mem_nil _⟩
    · rintro ⟨hlength, -⟩
      exact List.length_eq_zero_iff.1 (Nat.le_zero.1 hlength)
  | succ n ih =>
    rw [pow_succ', Language.mem_mul]
    constructor
    · rintro ⟨first, hfirst, rest, hrest, rfl⟩
      obtain ⟨hlength, hmem⟩ := ih.1 hrest
      rw [matches'_add, Language.mem_add, mem_oneOf_iff] at hfirst
      obtain rfl | ⟨c, hc, rfl⟩ := hfirst
      · exact ⟨Nat.le_succ_of_le hlength, hmem⟩
      · exact ⟨Nat.succ_le_succ hlength, List.forall_mem_cons.2 ⟨hc, hmem⟩⟩
    · rintro ⟨hlength, hmem⟩
      cases word with
      | nil => exact ⟨[], .inl rfl, [], ih.2 ⟨Nat.zero_le n, hmem⟩, rfl⟩
      | cons c rest =>
        obtain ⟨hc, hrest⟩ := List.forall_mem_cons.1 hmem
        exact ⟨[c], .inr (mem_oneOf_iff.2 ⟨c, hc, rfl⟩), rest, ih.2 ⟨Nat.le_of_succ_le_succ hlength, hrest⟩, rfl⟩

theorem append_mem_star {rest : List Char} (hword : word ∈ P.matches') (hrest : rest ∈ (star P).matches') :
    word ++ rest ∈ (star P).matches' := by
  obtain ⟨pieces, rfl, hpieces⟩ := Language.mem_kstar.1 hrest
  exact Language.mem_kstar.2 ⟨word :: pieces, rfl, List.forall_mem_cons.2 ⟨hword, hpieces⟩⟩

/-- Words with marks between them are what the marks split a text into. -/
theorem mem_separated_iff (h : ∀ piece ∈ P.matches', mark ∉ piece) :
    word ∈ (separated mark P).matches' ↔ ∀ piece ∈ word.splitOn mark, piece ∈ P.matches' := by
  constructor
  · intro hword
    obtain ⟨first, hfirst, behind, hbehind, rfl⟩ := Language.mem_mul.1 hword
    obtain ⟨pieces, rfl, hpieces⟩ := Language.mem_kstar.1 hbehind
    clear hword hbehind
    induction pieces generalizing first with
    | nil =>
      rw [List.flatten_nil, List.append_nil, List.splitOn_eq_singleton (h first hfirst)]
      exact List.forall_mem_singleton.2 hfirst
    | cons marked pieces ih =>
      obtain ⟨hmarked, hothers⟩ := List.forall_mem_cons.1 hpieces
      obtain ⟨_, rfl, second, hsecond, rfl⟩ := Language.mem_mul.1 hmarked
      have htext : first ++ List.flatten (([mark] ++ second) :: pieces) =
          first ++ mark :: (second ++ pieces.flatten) := by simp
      rw [htext, List.splitOn_append_cons_self, List.splitOn_eq_singleton (h first hfirst)]
      exact List.forall_mem_cons.2 ⟨hfirst, ih second hsecond hothers⟩
  · intro hpieces
    have hne := List.splitOn_ne_nil mark word
    have hjoined : [mark].intercalate (word.splitOn mark) = word := List.intercalate_splitOn mark
    rw [← hjoined]
    generalize word.splitOn mark = pieces at hpieces hne ⊢
    induction pieces with
    | nil => exact absurd rfl hne
    | cons first rest ih =>
      obtain ⟨hfirst, hrest⟩ := List.forall_mem_cons.1 hpieces
      cases rest with
      | nil =>
        rw [List.intercalate_singleton]
        exact ⟨first, hfirst, [], Language.nil_mem_kstar _, List.append_nil _⟩
      | cons second more =>
        obtain ⟨next, hnext, behind, hbehind, heq⟩ := ih hrest (List.cons_ne_nil _ _)
        rw [List.intercalate_cons_cons, ← heq]
        refine ⟨first, hfirst, [mark] ++ next ++ behind, append_mem_star ?_ hbehind, ?_⟩
        · exact Language.append_mem_mul rfl hnext
        · simp

/-- Between words there are only marks. -/
theorem eq_mark_or_mem_of_separated {c : Char} (hword : word ∈ (separated mark P).matches') (hc : c ∈ word) :
    c = mark ∨ ∃ piece ∈ P.matches', c ∈ piece := by
  obtain ⟨first, hfirst, behind, hbehind, rfl⟩ := Language.mem_mul.1 hword
  obtain ⟨pieces, rfl, hpieces⟩ := Language.mem_kstar.1 hbehind
  obtain hc | hc := List.mem_append.1 hc
  · exact .inr ⟨first, hfirst, hc⟩
  · obtain ⟨marked, hmarked, hc⟩ := List.mem_flatten.1 hc
    obtain ⟨_, rfl, piece, hpiece, rfl⟩ := Language.mem_mul.1 (hpieces marked hmarked)
    obtain hc | hc := List.mem_cons.1 hc
    · exact .inl hc
    · exact .inr ⟨piece, hpiece, hc⟩

end VirtualShell.Text
