import Mathlib.Algebra.Order.Field.Power
import Mathlib.Algebra.Order.Field.Rat
import Mathlib.Data.Int.Log
import Mathlib.Data.Rat.Floor
import Mathlib.Tactic.FieldSimp
import Mathlib.Tactic.Linarith
import Mathlib.Tactic.Positivity
import Mathlib.Tactic.Ring
import VirtualShell.Number.Binary

/-!
# Rounding keeps the order

The bit pattern that is nearest to a quotient is found in two steps: a power of two is chosen from the size of the
quotient, its unit (`unit`), and the quotient counted in units is rounded to a natural number (`RoundsTo`). Both
steps are monotone and so is the whole (`nearestBits_le`). A quotient below a natural number of at most 53 bits
rounds to a smaller pattern unless it lies closer to this number than one part in `2 ^ 53` of it
(`le_of_nearestBits_eq`).
-/

namespace VirtualShell.Number

/-! ## The nearest natural number -/

/-- A number rounds to the nearest natural number, a tie going to the even one. -/
structure RoundsTo (x : ℚ) (m : ℕ) : Prop where
  lower : (m : ℚ) - 1 / 2 ≤ x
  upper : x ≤ m + 1 / 2
  even_of_tie : (x = m - 1 / 2 ∨ x = m + 1 / 2) → Even m

namespace RoundsTo

variable {x y : ℚ} {m n : ℕ}

theorem mono (hx : RoundsTo x m) (hy : RoundsTo y n) (h : x ≤ y) : m ≤ n := by
  by_contra hlt
  have hsucc : (n : ℚ) + 1 ≤ m := by exact_mod_cast Nat.lt_of_not_le hlt
  -- then both are ties, between the same two neighbours
  have hxm := hx.lower
  have hyn := hy.upper
  have heq : (m : ℚ) = n + 1 := by linarith
  have hm : Even m := hx.even_of_tie (.inl (by linarith))
  have hn : Even n := hy.even_of_tie (.inr (by linarith))
  have hmn : m = n + 1 := by exact_mod_cast heq
  rw [hmn, Nat.even_add_one] at hm
  exact hm hn

/-- A natural number rounds to itself. -/
theorem natCast (n : ℕ) : RoundsTo n n where
  lower := by linarith
  upper := by linarith
  even_of_tie := by
    rintro (h | h)
    · linarith
    · linarith

theorem eq_of_natCast (h : RoundsTo (n : ℚ) m) : m = n :=
  le_antisymm (h.mono (natCast n) le_rfl) ((natCast n).mono h le_rfl)

variable {t : ℚ}

/-- A small rest is dropped. -/
theorem add_of_le_half (n : ℕ) (ht : 0 ≤ t) (hhalf : t ≤ 1 / 2) (htie : t = 1 / 2 → Even n) :
    RoundsTo (n + t) n where
  lower := by linarith
  upper := by linarith
  even_of_tie := by
    rintro (h | h)
    · linarith
    · exact htie (by linarith)

/-- A large rest is filled up. -/
theorem add_of_half_le (n : ℕ) (hhalf : 1 / 2 ≤ t) (ht : t < 1) (htie : t = 1 / 2 → ¬ Even n) :
    RoundsTo (n + t) (n + 1 : ℕ) where
  lower := by
    push_cast
    linarith
  upper := by
    push_cast
    linarith
  even_of_tie := by
    push_cast
    rintro (h | h)
    · exact Nat.even_add_one.2 (htie (by linarith))
    · linarith

end RoundsTo

theorem roundsTo_divideToEven (num : ℕ) {den : ℕ} (h : 0 < den) :
    RoundsTo ((num : ℚ) / den) (divideToEven num den) := by
  have hden : (0 : ℚ) < den := by exact_mod_cast h
  let t : ℚ := (num % den : ℕ) / den
  have hx : (num : ℚ) / den = (num / den : ℕ) + t := by
    have hsplit : ((den * (num / den) + num % den : ℕ) : ℚ) = num := by exact_mod_cast Nat.div_add_mod num den
    rw [← hsplit, Nat.cast_add, Nat.cast_mul, add_div, mul_div_cancel_left₀ _ hden.ne']
  have htie : t = 1 / 2 ↔ den = 2 * (num % den) := by
    rw [div_eq_div_iff hden.ne' two_ne_zero, one_mul, mul_comm, eq_comm]
    exact_mod_cast Iff.rfl
  rw [hx, divideToEven]
  split
  next hup =>
    apply RoundsTo.add_of_half_le
    · rw [div_le_div_iff₀ two_pos hden, one_mul, mul_comm]
      exact_mod_cast hup.elim le_of_lt fun hup => hup.1.le
    · rw [div_lt_one hden]
      exact_mod_cast Nat.mod_lt num h
    · intro heq
      rw [Nat.not_even_iff]
      have := htie.1 heq
      omega
  next hdown =>
    apply RoundsTo.add_of_le_half
    · positivity
    · rw [div_le_div_iff₀ hden two_pos, one_mul, mul_comm]
      exact_mod_cast Nat.le_of_not_lt fun hlt => hdown (.inl hlt)
    · intro heq
      rw [Nat.even_iff]
      have := htie.1 heq
      omega

/-! ## Units -/

/-- The power of two in whose multiples a number is counted, by its exponent. -/
def unit (x : ℚ) : ℤ :=
  max (-1074) (Int.log 2 x - 52)

theorem scaleByTwo_pos (num : ℕ) {den : ℕ} (h : 0 < den) (e : ℤ) : 0 < (scaleByTwo num den e).2 := by
  cases e with
  | ofNat k => exact h
  | negSucc k => exact Nat.mul_pos h (Nat.pow_pos Nat.two_pos)

theorem scaleByTwo_div (num den : ℕ) (e : ℤ) :
    ((scaleByTwo num den e).1 : ℚ) / (scaleByTwo num den e).2 = num / den * 2 ^ e := by
  cases e with
  | ofNat k =>
    simp only [scaleByTwo, Nat.pow_eq, Int.ofNat_eq_natCast, zpow_natCast]
    push_cast
    ring
  | negSucc k =>
    simp only [scaleByTwo, Nat.pow_eq, zpow_negSucc]
    push_cast
    rw [div_mul_eq_div_div, div_eq_mul_inv (_ / _)]

theorem log_eq_of_le_of_lt {x : ℚ} {k : ℤ} (hle : 2 ^ k ≤ x) (hlt : x < 2 ^ (k + 1)) : Int.log 2 x = k := by
  have hx : 0 < x := lt_of_lt_of_le (zpow_pos two_pos k) hle
  have hlower := (Int.zpow_le_iff_le_log Nat.one_lt_two hx).1 (by exact_mod_cast hle)
  have hupper := (Int.lt_zpow_iff_log_lt Nat.one_lt_two hx).1 (by exact_mod_cast hlt)
  omega

/-- A quotient counted in a power of two is at least one if it is no less than this power. -/
theorem scaleByTwo_neg_le_iff (num : ℕ) {den : ℕ} (h : 0 < den) (k : ℤ) :
    (scaleByTwo num den (-k)).2 ≤ (scaleByTwo num den (-k)).1 ↔ (2 : ℚ) ^ k ≤ num / den := by
  have hpos : (0 : ℚ) < (scaleByTwo num den (-k)).2 := by exact_mod_cast scaleByTwo_pos num h (-k)
  have hpower : (0 : ℚ) < 2 ^ k := zpow_pos two_pos k
  rw [← one_le_div hpower, div_eq_mul_inv _ ((2 : ℚ) ^ k), ← zpow_neg, ← scaleByTwo_div, one_le_div hpos, Nat.cast_le]

theorem floorLogTwo_eq {num den : ℕ} (hnum : 0 < num) (hden : 0 < den) :
    floorLogTwo num den = Int.log 2 ((num : ℚ) / den) := by
  have hden' : (0 : ℚ) < den := by exact_mod_cast hden
  let k : ℤ := (num.log2 : ℤ) - den.log2
  have hupper : (num : ℚ) / den < 2 ^ (k + 1) := by
    rw [div_lt_iff₀ hden']
    calc (num : ℚ) < 2 ^ (num.log2 + 1) := by exact_mod_cast Nat.lt_log2_self
      _ = 2 ^ (k + 1) * 2 ^ den.log2 := by
        rw [← zpow_natCast, ← zpow_natCast, ← zpow_add₀ two_ne_zero]
        congr 1
        simp only [k]
        push_cast
        ring
      _ ≤ 2 ^ (k + 1) * den := by
        have hle : (2 : ℚ) ^ den.log2 ≤ den := by exact_mod_cast Nat.log2_self_le hden.ne'
        gcongr
  have hlower : (2 : ℚ) ^ (k - 1) ≤ num / den := by
    rw [le_div_iff₀ hden']
    calc (2 : ℚ) ^ (k - 1) * den ≤ 2 ^ (k - 1) * 2 ^ (den.log2 + 1) := by
          have hlt : (den : ℚ) < 2 ^ (den.log2 + 1) := by exact_mod_cast Nat.lt_log2_self
          gcongr
      _ = 2 ^ num.log2 := by
        rw [← zpow_natCast, ← zpow_natCast, ← zpow_add₀ two_ne_zero]
        congr 1
        simp only [k]
        push_cast
        ring
      _ ≤ num := by exact_mod_cast Nat.log2_self_le hnum.ne'
  have hchoice : floorLogTwo num den =
      if (scaleByTwo num den (-k)).2 ≤ (scaleByTwo num den (-k)).1 then k else k - 1 := rfl
  rw [hchoice]
  split
  next hle => exact (log_eq_of_le_of_lt ((scaleByTwo_neg_le_iff num hden k).1 hle) hupper).symm
  next hlt =>
    rw [scaleByTwo_neg_le_iff num hden k, not_le] at hlt
    exact (log_eq_of_le_of_lt hlower (by rwa [sub_add_cancel])).symm

/-! ## Bit patterns -/

section

variable {x y : ℚ}

theorem le_unit (x : ℚ) : -1074 ≤ unit x :=
  le_max_left _ _

theorem unit_mono (hx : 0 < x) (h : x ≤ y) : unit x ≤ unit y :=
  max_le_max le_rfl (sub_le_sub_right (Int.log_mono_right hx h) 52)

/-- A number of units takes at most 53 bits. -/
theorem mul_unit_lt (x : ℚ) : x * 2 ^ (-unit x) < (2 ^ 53 : ℕ) := by
  have hlog : Int.log 2 x - 52 ≤ unit x := le_max_right _ _
  have hpower : (0 : ℚ) < 2 ^ unit x := zpow_pos two_pos _
  rw [zpow_neg, ← div_eq_mul_inv, div_lt_iff₀ hpower]
  calc x < 2 ^ (Int.log 2 x + 1) := by exact_mod_cast Int.lt_zpow_succ_log_self Nat.one_lt_two x
    _ ≤ 2 ^ (53 + unit x) := zpow_le_zpow_right₀ one_le_two (by omega)
    _ = (2 ^ 53 : ℕ) * 2 ^ unit x := by
      rw [zpow_add₀ two_ne_zero]
      norm_cast

/-- Above the least unit a number of units takes 53 bits. -/
theorem le_mul_unit (hx : 0 < x) (h : -1074 < unit x) : (2 ^ 52 : ℕ) ≤ x * 2 ^ (-unit x) := by
  have hlog : unit x = Int.log 2 x - 52 := (max_choice _ _).resolve_left h.ne'
  have hpower : (0 : ℚ) < 2 ^ unit x := zpow_pos two_pos _
  rw [zpow_neg, ← div_eq_mul_inv, le_div_iff₀ hpower]
  calc ((2 ^ 52 : ℕ) : ℚ) * 2 ^ unit x = 2 ^ (52 + unit x) := by
        rw [zpow_add₀ two_ne_zero]
        norm_cast
    _ = 2 ^ Int.log 2 x := by rw [hlog, add_sub_cancel]
    _ ≤ x := by exact_mod_cast Int.zpow_log_le_self Nat.one_lt_two hx

end

/-- The bit pattern of a positive quotient, by its unit and the number of units that it is rounded to. -/
theorem nearestBits_eq {num den : ℕ} (hnum : 0 < num) (hden : 0 < den) :
    ∃ m, RoundsTo (num / den * 2 ^ (-unit (num / den))) m ∧
      nearestBits num den = min infinityBits ((unit (num / den) + 1074).toNat * 2 ^ 52 + m) := by
  have hunit : max (-1074) (floorLogTwo num den - 52) = unit (num / den) := by rw [floorLogTwo_eq hnum hden, unit]
  let scaled := scaleByTwo num den (-unit (num / den))
  refine ⟨divideToEven scaled.1 scaled.2, ?_, ?_⟩
  · rw [← scaleByTwo_div]
    exact roundsTo_divideToEven scaled.1 (scaleByTwo_pos num hden _)
  · rw [nearestBits, if_neg hnum.ne', hunit]
    rfl

/-- Rounding to the nearest bit pattern keeps the order. -/
theorem nearestBits_le {num den num' den' : ℕ} (hden : 0 < den) (hden' : 0 < den')
    (h : num * den' ≤ num' * den) : nearestBits num den ≤ nearestBits num' den' := by
  obtain rfl | hnum := Nat.eq_zero_or_pos num
  · exact Nat.zero_le _
  have hnum' : 0 < num' := Nat.pos_of_mul_pos_right (lt_of_lt_of_le (Nat.mul_pos hnum hden') h)
  have hx : (0 : ℚ) < num / den := by positivity
  have hxy : (num : ℚ) / den ≤ num' / den' := by
    rw [div_le_div_iff₀ (by exact_mod_cast hden) (by exact_mod_cast hden')]
    exact_mod_cast h
  obtain ⟨m, hm, hbits⟩ := nearestBits_eq hnum hden
  obtain ⟨m', hm', hbits'⟩ := nearestBits_eq hnum' hden'
  have hleast := le_unit (num / den)
  rw [hbits, hbits']
  apply min_le_min_left
  obtain heq | hlt := (unit_mono hx hxy).eq_or_lt
  · have hpower : (0 : ℚ) ≤ 2 ^ (-unit (num / den)) := zpow_nonneg two_pos.le _
    rw [← heq] at hm' ⊢
    have hmono : m ≤ m' := hm.mono hm' (mul_le_mul_of_nonneg_right hxy hpower)
    omega
  · -- a greater unit outweighs all numbers of units below it
    have hupper : m ≤ 2 ^ 53 := hm.mono (.natCast _) (mul_unit_lt _).le
    have hlower : 2 ^ 52 ≤ m' := RoundsTo.mono (.natCast _) hm' (le_mul_unit (hx.trans_le hxy) (by omega))
    omega

section

variable {n : ℕ}

/-- The unit of a natural number of at most 53 bits is no more than one, so that it is a whole number of units. -/
theorem unit_natCast (hpos : 0 < n) (hn : n < 2 ^ 53) : -1074 < unit (n : ℚ) ∧ unit (n : ℚ) ≤ 0 := by
  have hn' : (0 : ℚ) < n := by exact_mod_cast hpos
  have hlower : 0 ≤ Int.log 2 (n : ℚ) := by
    rw [← Int.zpow_le_iff_le_log Nat.one_lt_two hn', zpow_zero]
    exact_mod_cast hpos
  have hupper : Int.log 2 (n : ℚ) < 53 := by
    rw [← Int.lt_zpow_iff_log_lt Nat.one_lt_two hn']
    exact_mod_cast hn
  unfold unit
  omega

/-- A natural number of at most 53 bits has a bit pattern of its own. -/
theorem nearestBits_natCast (hpos : 0 < n) (hn : n < 2 ^ 53) :
    ∃ m : ℕ, (n : ℚ) * 2 ^ (-unit n) = m ∧ 2 ^ 52 ≤ m ∧
      nearestBits n 1 = (unit (n : ℚ) + 1074).toNat * 2 ^ 52 + m ∧ nearestBits n 1 < infinityBits := by
  obtain ⟨hleast, hone⟩ := unit_natCast hpos hn
  have hn' : (0 : ℚ) < n := by exact_mod_cast hpos
  obtain ⟨m, hm, hbits⟩ := nearestBits_eq hpos Nat.one_pos
  rw [Nat.cast_one, div_one] at hm hbits
  have hunits : (n : ℚ) * 2 ^ (-unit (n : ℚ)) = (n * 2 ^ (-unit (n : ℚ)).toNat : ℕ) := by
    have hexponent : -unit (n : ℚ) = ((-unit (n : ℚ)).toNat : ℤ) := by omega
    push_cast
    rw [← zpow_natCast, ← hexponent]
  have hwhole : m = n * 2 ^ (-unit (n : ℚ)).toNat := by
    rw [hunits] at hm
    exact hm.eq_of_natCast
  rw [← hwhole] at hunits
  have hlower : 2 ^ 52 ≤ m := by exact_mod_cast hunits ▸ le_mul_unit hn' hleast
  have hupper : m < 2 ^ 53 := by exact_mod_cast hunits ▸ mul_unit_lt (n : ℚ)
  have hinfinity : infinityBits = 0x7FF * 2 ^ 52 := rfl
  exact ⟨m, hunits, hlower, by omega, by omega⟩

end

section

variable {num den n : ℕ}

/-- A quotient below a natural number that has the same bit pattern is less than it by half a unit at most. -/
theorem sub_half_le_of_nearestBits_eq (hden : 0 < den) (hn : n < 2 ^ 53) (hlt : (num : ℚ) / den < n)
    (h : nearestBits num den = nearestBits n 1) :
    (n : ℚ) * 2 ^ (-unit (n : ℚ)) - 1 / 2 ≤ num / den * 2 ^ (-unit (n : ℚ)) := by
  have hpos : 0 < n := by
    have hn' : (0 : ℚ) < n := lt_of_le_of_lt (by positivity) hlt
    exact_mod_cast hn'
  obtain ⟨k, hk, hlower, hbits, hfinite⟩ := nearestBits_natCast hpos hn
  have hnum : 0 < num := by
    by_contra hzero
    rw [Nat.eq_zero_of_not_pos hzero, nearestBits, if_pos rfl] at h
    omega
  have hx : (0 : ℚ) < num / den := by positivity
  obtain ⟨m, hm, hpattern⟩ := nearestBits_eq hnum hden
  have hsame : (unit ((num : ℚ) / den) + 1074).toNat * 2 ^ 52 + m = (unit (n : ℚ) + 1074).toNat * 2 ^ 52 + k := by
    omega
  have hleast := le_unit ((num : ℚ) / den)
  rw [hk]
  obtain heq | hless := (unit_mono hx hlt.le).eq_or_lt
  · rw [heq] at hm hsame
    have hmk : m = k := by omega
    exact hmk ▸ hm.lower
  · -- the quotient is rounded up to the power of two at which the unit doubles
    have hupper : m ≤ 2 ^ 53 := hm.mono (.natCast _) (mul_unit_lt _).le
    have hstep : unit (n : ℚ) = unit ((num : ℚ) / den) + 1 := by omega
    have hmk : m = 2 * k := by omega
    have hhalf : (num : ℚ) / den * 2 ^ (-unit (n : ℚ)) = num / den * 2 ^ (-unit ((num : ℚ) / den)) / 2 := by
      rw [hstep, neg_add, zpow_add₀ two_ne_zero, zpow_neg_one]
      ring
    have hlow := hm.lower
    rw [hmk, Nat.cast_mul, Nat.cast_two] at hlow
    linarith

/-- A quotient below a natural number of at most 53 bits that has the same bit pattern is less than it by one part
in `2 ^ 53` at most. -/
theorem le_of_nearestBits_eq (hden : 0 < den) (hn : n < 2 ^ 53) (hlt : num < n * den)
    (h : nearestBits num den = nearestBits n 1) : 2 ^ 53 * (n * den - num) ≤ n * den := by
  have hpos : 0 < n := Nat.pos_of_mul_pos_right (Nat.zero_lt_of_lt hlt)
  have hden' : (0 : ℚ) < den := by exact_mod_cast hden
  have hxn : (num : ℚ) / den < n := by
    rw [div_lt_iff₀ hden']
    exact_mod_cast hlt
  have hclose := sub_half_le_of_nearestBits_eq hden hn hxn h
  have hlarge := le_mul_unit (x := (n : ℚ)) (by exact_mod_cast hpos) (unit_natCast hpos hn).1
  push_cast at hlarge
  have hunits : 2 ^ 53 * ((n : ℚ) - num / den) * 2 ^ (-unit (n : ℚ)) ≤ n * 2 ^ (-unit (n : ℚ)) := by
    rw [mul_assoc, sub_mul]
    linarith
  have hpart : 2 ^ 53 * ((n : ℚ) - num / den) ≤ n := le_of_mul_le_mul_right hunits (zpow_pos two_pos _)
  have hscaled : 2 ^ 53 * ((n : ℚ) - num / den) * den ≤ n * den := mul_le_mul_of_nonneg_right hpart hden'.le
  have hcast : ((n : ℚ) - num / den) * den = (n * den - num : ℕ) := by
    rw [sub_mul, div_mul_cancel₀ _ hden'.ne', Nat.cast_sub hlt.le, Nat.cast_mul]
  rw [mul_assoc, hcast] at hscaled
  exact_mod_cast hscaled

end

end VirtualShell.Number
