import VirtualShell.Number.Count

/-!
# Decimal numbers

A decimal number is a sign, a natural number and a power of ten, as a text such as `-12.50e3` spells
it. The value is exact; `VirtualShell.Number.Binary` rounds it.
-/

namespace VirtualShell.Number

/-- The number `mantissa * 10 ^ exponent`, or its negative. -/
structure Decimal where
  negative : Bool
  mantissa : Nat
  exponent : Int

namespace Decimal

/-- The number with these digits before and after the point, times a power of ten. -/
def ofParts (negative : Bool) (whole fraction : List Char) (exponent : Int) : Decimal where
  negative
  mantissa := digitsValue (whole ++ fraction)
  exponent := exponent - fraction.length

/-- The number that digits with at most one point among them spell, at least one digit being
required. -/
def ofDigits? (negative : Bool) (cs : List Char) : Option Decimal :=
  let whole := cs.takeWhile Char.isDigit
  match cs.dropWhile Char.isDigit with
  | [] => if whole.isEmpty then none else some (ofParts negative whole [] 0)
  | '.' :: fraction =>
    if fraction.all Char.isDigit && !(whole.isEmpty && fraction.isEmpty) then
      some (ofParts negative whole fraction 0)
    else none
  | _ => none

/-- The value of an exponent: digits after an optional sign. -/
def exponentValue : List Char → Int
  | '-' :: digits => -(digitsValue digits : Int)
  | '+' :: digits => digitsValue digits
  | digits => digitsValue digits

end Decimal

end VirtualShell.Number
