import VirtualShell.Number.Decimal

/-!
# Rounding to binary

A non-negative number is rounded to the nearest number of the 64-bit binary format, a tie going to
the even neighbour. `nearestNat` does so for natural numbers and lets them grow beyond the format;
for quotients the result is given by its bit pattern, which grows with the number: subnormal
numbers, normal numbers and infinity follow each other without a gap.
-/

namespace VirtualShell.Number

/-- The bit pattern of infinity. -/
def infinityBits : Nat := 0x7FF * Nat.pow 2 52

/-- The quotient rounded to the nearest natural number, a tie going to the even one. -/
def divideToEven (num den : Nat) : Nat :=
  let q := num / den
  let r := num % den
  if den < 2 * r ∨ (den = 2 * r ∧ q % 2 = 1) then q + 1 else q

/-- The natural number with at most 53 significant bits that is nearest to `n`, a tie going to the
one whose last bit is even. -/
def nearestNat (n : Nat) : Nat :=
  let unit := Nat.pow 2 (n.log2 - 52)
  divideToEven n unit * unit

/-- The quotient scaled by a power of two, as a new quotient. -/
def scaleByTwo (num den : Nat) : Int → Nat × Nat
  | .ofNat k => (num * Nat.pow 2 k, den)
  | .negSucc k => (num, den * Nat.pow 2 (k + 1))

/-- The greatest `k` with `2 ^ k ≤ num / den`, for a positive quotient. -/
def floorLogTwo (num den : Nat) : Int :=
  let k : Int := (num.log2 : Int) - den.log2
  let (n, d) := scaleByTwo num den (-k)
  if d ≤ n then k else k - 1

/-- The bit pattern of the number nearest to a quotient. -/
def nearestBits (num den : Nat) : Nat :=
  if num = 0 then 0
  else
    let unit : Int := max (-1074) (floorLogTwo num den - 52)
    let (n, d) := scaleByTwo num den (-unit)
    min infinityBits ((unit + 1074).toNat * Nat.pow 2 52 + divideToEven n d)

namespace Decimal

/-- The number of decimal digits. -/
def digitCount (n : Nat) : Nat :=
  (Nat.toDigits 10 n).length

/-- The bit pattern nearest to the magnitude of a decimal number. Numbers of 310 or more digits
before the point are beyond the greatest finite one, and numbers that begin more than 400 places
behind the point are nearest to zero, so neither is expanded. -/
def magnitudeBits (d : Decimal) : Nat :=
  if d.mantissa = 0 then 0
  else
    let leading : Int := digitCount d.mantissa + d.exponent
    if 310 ≤ leading then infinityBits
    else if leading < -400 then 0
    else
      match d.exponent with
      | .ofNat e => nearestBits (d.mantissa * Nat.pow 10 e) 1
      | .negSucc e => nearestBits d.mantissa (Nat.pow 10 (e + 1))

/-- Whether a number rounds to infinity. -/
def overflows (d : Decimal) : Bool :=
  d.magnitudeBits == infinityBits

/-- A key that grows with the rounded number, the negative zero coming before the positive one. -/
def orderKey (d : Decimal) : Int :=
  if d.negative then -(d.magnitudeBits + 1 : Int) else d.magnitudeBits

end Decimal

end VirtualShell.Number
