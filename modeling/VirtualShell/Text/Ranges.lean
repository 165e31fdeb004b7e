/-!
# Membership in character ranges

Character classes are kept as inclusive ranges of code points in increasing order. `inRanges` scans
such a list and stops at the first range that begins beyond the code point; that this loses nothing
rests on the order, which `Ascending` states.
-/

namespace VirtualShell.Text

/-- Each range is non-empty and ends before the next one begins. -/
def Ascending : List (Nat × Nat) → Prop
  | [] => True
  | [range] => range.1 ≤ range.2
  | range :: next :: rest => range.1 ≤ range.2 ∧ range.2 < next.1 ∧ Ascending (next :: rest)

/-- Decides the order of ranges by looking at neighbours. -/
def Ascending.decide : (ranges : List (Nat × Nat)) → Decidable (Ascending ranges)
  | [] => .isTrue trivial
  | [_] => inferInstanceAs (Decidable (_ ≤ _))
  | _ :: next :: rest =>
    have := Ascending.decide (next :: rest)
    inferInstanceAs (Decidable (_ ∧ _ ∧ _))

instance (ranges : List (Nat × Nat)) : Decidable (Ascending ranges) :=
  Ascending.decide ranges

/-- Whether `n` lies in one of the ranges of an ascending list. -/
def inRanges (n : Nat) : List (Nat × Nat) → Bool
  | [] => false
  | (first, last) :: rest =>
    if n < first then false else decide (n ≤ last) || inRanges n rest

/-- What follows a range is in order, too. -/
theorem Ascending.tail {range : Nat × Nat} :
    ∀ {rest : List (Nat × Nat)}, Ascending (range :: rest) → Ascending rest
  | [], _ => trivial
  | _ :: _, h => h.2.2

/-- All ranges after the first begin beyond its beginning. -/
theorem Ascending.head_lt {range : Nat × Nat} :
    ∀ {rest : List (Nat × Nat)}, Ascending (range :: rest) → ∀ r ∈ rest, range.1 < r.1
  | [], _, _, hr => absurd hr List.not_mem_nil
  | next :: rest, h, r, hr => by
    have hnext : range.1 < next.1 := Nat.lt_of_le_of_lt h.1 h.2.1
    rcases List.mem_cons.1 hr with rfl | hmem
    · exact hnext
    · exact Nat.lt_trans hnext (Ascending.head_lt h.2.2 r hmem)

/-- On an ascending list the early exit is harmless: the scan finds every range that holds `n`. -/
theorem inRanges_iff {n : Nat} :
    ∀ {ranges : List (Nat × Nat)}, Ascending ranges →
      (inRanges n ranges = true ↔ ∃ r ∈ ranges, r.1 ≤ n ∧ n ≤ r.2)
  | [], _ => by simp [inRanges]
  | (first, last) :: rest, h => by
    have ih := @inRanges_iff n rest h.tail
    unfold inRanges
    split
    next hlt =>
      refine ⟨fun hfalse => by simp at hfalse, fun ⟨r, hr, hlow, _⟩ => ?_⟩
      rcases List.mem_cons.1 hr with rfl | hmem
      · exact absurd hlow (Nat.not_le.2 hlt)
      · exact absurd (Nat.lt_of_lt_of_le (h.head_lt r hmem) hlow) (Nat.lt_asymm hlt)
    next hge =>
      simp only [Bool.or_eq_true, decide_eq_true_eq, ih, List.mem_cons, exists_eq_or_imp]
      exact or_congr ⟨fun hle => ⟨Nat.not_lt.1 hge, hle⟩, fun hle => hle.2⟩ Iff.rfl

end VirtualShell.Text
