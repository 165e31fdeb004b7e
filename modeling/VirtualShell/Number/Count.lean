/-!
# Counts written in decimal

A count is a run of ASCII digits, perhaps after one plus sign, whose value fits in 64 bits. Nothing
else is accepted: no blanks, no other digits, no separators.
-/

namespace VirtualShell.Number

/-- The largest count. -/
def largestCount : Nat := Nat.pow 2 64 - 1

/-- The value of an ASCII digit. -/
def digitValue (c : Char) : Nat :=
  c.toNat - '0'.toNat

/-- The value of a run of decimal digits, most significant first. -/
def digitsValue (digits : List Char) : Nat :=
  digits.foldl (fun n c => 10 * n + digitValue c) 0

/-- The count that a run of digits alone spells. -/
def unsignedCount? (digits : List Char) : Option Nat :=
  if digits.isEmpty || !digits.all Char.isDigit then none
  else
    let n := digitsValue digits
    if n ≤ largestCount then some n else none

/-- The count that a text spells. -/
def readCount? (s : String) : Option Nat :=
  match s.toList with
  | '+' :: digits => unsignedCount? digits
  | digits => unsignedCount? digits

end VirtualShell.Number
