import VirtualShell.Number.Binary

/-!
# Numbers with a significand of one machine word

The digits of a number are gathered in a significand of 64 bits, and a power of ten says where the
point stands. Digits that come too late to fit are left out: before the point each of them still
counts as a factor of ten, behind it none counts at all.

The value of such a pair is found by one multiplication, its factors and its result being rounded to
the 64-bit binary format. That is coarser than rounding the number that the text spells
(`VirtualShell.Number.Decimal.magnitudeBits`), and next to the greatest finite number the two can
disagree on whether the result is finite.
-/

namespace VirtualShell.Number

/-- The number `significand * 10 ^ exponent`, its significand fitting in 64 bits. -/
structure Scaled where
  significand : Nat
  exponent : Int
  fits : significand ≤ largestCount

namespace Scaled

/-- Appends digits to a significand until the next one would not fit, and gives the digits that are
left. -/
def gather (n : Nat) : List Char → Nat × List Char
  | [] => (n, [])
  | c :: rest =>
    let next := 10 * n + digitValue c
    if next ≤ largestCount then gather next rest else (n, c :: rest)

/-- A significand that fits still does with more digits. -/
theorem gather_le {n : Nat} {cs : List Char} (h : n ≤ largestCount) :
    (gather n cs).1 ≤ largestCount := by
  induction cs generalizing n with
  | nil => exact h
  | cons c rest ih =>
    unfold gather
    simp only
    split
    next hnext => exact ih hnext
    · exact h

/-- The number with these digits before and after the point, times a power of ten. -/
def ofParts (whole fraction : List Char) (exponent : Int) : Scaled where
  significand := (gather (gather 0 whole).1 fraction).1
  exponent :=
    let dropped := (gather 0 whole).2
    let unused := (gather (gather 0 whole).1 fraction).2
    exponent + dropped.length - (fraction.length - unused.length)
  fits := gather_le (gather_le (Nat.zero_le _))

/-- The greatest power of ten that is a finite number of the format. -/
def greatestPower : Nat := 308

/-- Whether significand times power of ten, rounded at each step, is a finite number. A negative
power makes the significand smaller, and zero stays zero. -/
def isFinite (s : Scaled) : Bool :=
  match s.exponent with
  | .negSucc _ => true
  | .ofNat e =>
    s.significand == 0 || (decide (e ≤ greatestPower) &&
      decide (nearestNat (nearestNat s.significand * nearestNat (Nat.pow 10 e)) < Nat.pow 2 1024))

end Scaled

end VirtualShell.Number
