import Mathlib.Data.List.TakeWhile
import VirtualShell.Proofs.Number.Rounding

/-!
# Digits before and after a point

A run of digits spells less than the power of ten with one more digit, and digits behind a point add less than one
to those before it (`digitsValue_lt`, `digitsValue_append_bounds`). Such a number rounds to the bit pattern that is
nearest to its quotient, or counts as zero if it is far too small for any other (`magnitudeBits_eq_ite`).
-/

namespace VirtualShell.Number

/-! ## Runs of digits -/

variable {digits whole fraction : List Char}

theorem digitsValue_append (digits more : List Char) :
    digitsValue (digits ++ more) = digitsValue digits * 10 ^ more.length + digitsValue more := by
  have hfold : ∀ n, more.foldl (fun n c => 10 * n + digitValue c) n = n * 10 ^ more.length + digitsValue more := by
    induction more with
    | nil => simp [digitsValue]
    | cons c rest ih =>
      intro n
      rw [digitsValue, List.foldl_cons, List.foldl_cons, ih, ih (10 * 0 + digitValue c), List.length_cons]
      ring
  rw [digitsValue, List.foldl_append, hfold]
  rfl

theorem digitValue_lt {c : Char} (h : c.isDigit = true) : digitValue c < 10 := by
  simp only [Char.isDigit, Bool.and_eq_true, decide_eq_true_eq, UInt32.le_iff_toNat_le] at h
  have hnine : c.toNat ≤ '9'.toNat := h.2
  have hzero : '0'.toNat = 48 := rfl
  have hlast : '9'.toNat = 57 := rfl
  unfold digitValue
  omega

theorem digitsValue_lt (h : ∀ c ∈ digits, c.isDigit = true) : digitsValue digits < 10 ^ digits.length := by
  induction digits with
  | nil => exact Nat.one_pos
  | cons c rest ih =>
    obtain ⟨hc, hrest⟩ := List.forall_mem_cons.1 h
    have hvalue : digitsValue (c :: rest) = digitValue c * 10 ^ rest.length + digitsValue rest := by
      have happend := digitsValue_append [c] rest
      simpa [digitsValue] using happend
    have hcarry : (digitValue c + 1) * 10 ^ rest.length ≤ 10 * 10 ^ rest.length :=
      Nat.mul_le_mul_right _ (digitValue_lt hc)
    rw [hvalue, List.length_cons, Nat.pow_succ]
    have := ih hrest
    linarith

/-- The usual numeral of a number spells it. -/
theorem digitsValue_toDigits (n : ℕ) : digitsValue (Nat.toDigits 10 n) = n := by
  induction n using Nat.strong_induction_on with
  | _ n ih =>
    by_cases hlast : n < 10
    · have hvalue : ∀ m < 10, digitsValue [m.digitChar] = m := by decide
      rw [Nat.toDigits_of_lt_base hlast, hvalue n hlast]
    · have hdigit : digitsValue [(n % 10).digitChar] = n % 10 := by
        rw [← Nat.toDigits_of_lt_base (Nat.mod_lt n (by omega))]
        exact ih (n % 10) (by omega)
      rw [Nat.toDigits_of_base_le (by omega) (by omega), digitsValue_append, hdigit, ih (n / 10) (by omega),
        List.length_singleton]
      omega

/-- Digits behind a point make a number of the integer before it and something less than one. -/
theorem digitsValue_append_bounds (hfraction : ∀ c ∈ fraction, c.isDigit = true) :
    digitsValue whole * 10 ^ fraction.length ≤ digitsValue (whole ++ fraction) ∧
      digitsValue (whole ++ fraction) < (digitsValue whole + 1) * 10 ^ fraction.length := by
  rw [digitsValue_append, Nat.add_one_mul]
  have hless := digitsValue_lt hfraction
  omega

/-! ## Numbers of digits -/

namespace Decimal

section

variable (negative : Bool)

/-- Digits alone are a number. -/
theorem ofDigits?_digits (hne : digits ≠ []) (h : ∀ c ∈ digits, c.isDigit = true) :
    ofDigits? negative digits = some ⟨negative, digitsValue digits, 0⟩ := by
  have htaken : digits.takeWhile Char.isDigit = digits := List.takeWhile_eq_self_iff.2 h
  have hleft : digits.dropWhile Char.isDigit = [] := List.dropWhile_eq_nil_iff.2 h
  simp [ofDigits?, htaken, hleft, hne, ofParts]

/-- With a point behind them they are a number if nothing but digits follows. -/
theorem ofDigits?_point (hne : digits ≠ []) (h : ∀ c ∈ digits, c.isDigit = true) (fraction : List Char) :
    ofDigits? negative (digits ++ '.' :: fraction) =
      if fraction.all Char.isDigit then some ⟨negative, digitsValue (digits ++ fraction), -fraction.length⟩
      else none := by
  have htaken : (digits ++ '.' :: fraction).takeWhile Char.isDigit = digits := by
    rw [List.takeWhile_append_of_pos h]
    exact List.append_nil digits
  have hleft : (digits ++ '.' :: fraction).dropWhile Char.isDigit = '.' :: fraction := by
    rw [List.dropWhile_append_of_pos h]
    rfl
  simp [ofDigits?, htaken, hleft, hne, ofParts]

end

section

variable {mantissa places : ℕ} (negative : Bool)

theorem digitCount_le_iff {k : ℕ} (hpos : 0 < k) : digitCount mantissa ≤ k ↔ mantissa < 10 ^ k :=
  Nat.length_toDigits_le_iff (by decide) hpos

/-- A number that is not too great is rounded, or else it is so small that it counts as zero. -/
theorem magnitudeBits_eq_ite (h : mantissa < 10 ^ (309 + places)) :
    (Decimal.mk negative mantissa (-places)).magnitudeBits =
      if (digitCount mantissa : ℤ) - places < -400 then 0 else nearestBits mantissa (10 ^ places) := by
  have hcount : digitCount mantissa ≤ 309 + places := (digitCount_le_iff (by omega)).2 h
  have hsmall : ¬ 310 ≤ (digitCount mantissa : ℤ) + -places := by omega
  unfold magnitudeBits
  dsimp only
  rw [sub_eq_add_neg, if_neg hsmall]
  split
  next hzero => simp [hzero, nearestBits]
  next =>
    split
    next => rfl
    next =>
      cases places with
      | zero => exact congrArg (nearestBits · 1) (Nat.mul_one mantissa)
      | succ e => rfl

theorem magnitudeBits_le (h : mantissa < 10 ^ (309 + places)) :
    (Decimal.mk negative mantissa (-places)).magnitudeBits ≤ nearestBits mantissa (10 ^ places) := by
  rw [magnitudeBits_eq_ite negative h]
  split
  next => exact Nat.zero_le _
  next => exact le_rfl

/-- A number that is at least one is rounded. -/
theorem magnitudeBits_of_one_le (h : mantissa < 10 ^ (309 + places)) (hone : 10 ^ places ≤ mantissa) :
    (Decimal.mk negative mantissa (-places)).magnitudeBits = nearestBits mantissa (10 ^ places) := by
  have hcount : places ≤ digitCount mantissa := by
    obtain rfl | hpos := Nat.eq_zero_or_pos places
    · exact Nat.zero_le _
    · by_contra hlt
      have hshort : digitCount mantissa ≤ places := by omega
      have := (digitCount_le_iff hpos).1 hshort
      omega
  rw [magnitudeBits_eq_ite negative h, if_neg (by omega)]

end

end Decimal

end VirtualShell.Number
