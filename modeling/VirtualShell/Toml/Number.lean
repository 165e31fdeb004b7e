import VirtualShell.Number.Binary
import VirtualShell.Number.Hexadecimal
import VirtualShell.Toml.Basic
import VirtualShell.Toml.Scan

/-!
# Numbers in TOML

Digits may be grouped by single underscores between them. A decimal number does not begin with a
zero that another digit follows. Hexadecimal, octal and binary numbers have no sign. Integers are
those of 64 bits, and a number with a fraction or an exponent must not round to positive infinity.
-/

namespace VirtualShell.Toml.Scan

/-- Digits, with single underscores between them. -/
def digitRun (p : Char → Bool) : Scan (List Char) := do
  let first ← charIf p
  let rest ← many do
    match ← get with
    | '_' :: c :: rest => guard (p c); set rest; return some c
    | c :: rest => if p c then set rest; return some c else return none
    | [] => return none
  return first :: rest

/-- The digits before the point. -/
def wholeDigits : Scan (List Char) := do
  if ← optionalWord "0" then return ['0'] else digitRun Char.isDigit

/-- A sign, if there is one: whether it is a minus. -/
def optionalSign : Scan Bool := do
  if ← optionalWord "-" then return true
  else
    let _ ← optionalWord "+"
    return false

/-- A point and the digits after it. -/
def fraction : Scan (List Char) := do
  word "."
  digitRun Char.isDigit

/-- The mark of an exponent and the exponent. -/
def exponent : Scan Int := do
  let _ ← charIf fun c => c == 'e' || c == 'E'
  let negative ← optionalSign
  let value := Number.digitsValue (← digitRun Char.isDigit)
  return if negative then -(value : Int) else value

/-- The greatest integer. -/
def greatestInteger : Nat := Nat.pow 2 63 - 1

/-- An integer in a base that a mark announces. -/
def basedInteger (mark : String) (base : Nat) : Scan Toml := do
  word mark
  let isDigit (c : Char) : Bool := ((Number.hexValue? c).map (decide <| · < base)).getD false
  let digits ← digitRun isDigit
  let value := digits.foldl (fun n c => base * n + (Number.hexValue? c).getD 0) 0
  guard (value ≤ greatestInteger)
  return .integer value

/-- A decimal integer, or a number with a fraction or an exponent. -/
def decimalNumber : Scan Toml := do
  let before ← get
  let negative ← optionalSign
  let whole ← wholeDigits
  let fraction ← optional fraction
  let exponent ← optional exponent
  if fraction.isNone && exponent.isNone then
    let value := Number.digitsValue whole
    guard (value ≤ if negative then greatestInteger + 1 else greatestInteger)
    return .integer (if negative then -(value : Int) else value)
  else
    let number := Number.Decimal.ofParts negative whole (fraction.getD []) (exponent.getD 0)
    guard (negative || !number.overflows)
    return .float (String.ofList (before.take (before.length - (← get).length)))

/-- Infinity, or what is not a number. -/
def specialNumber : Scan Toml :=
  Toml.float <$> spelled do
    let _ ← optionalSign
    word "inf" <|> word "nan"

/-- A number of any sort. -/
def number : Scan Toml := do
  if ← ahead "0x" then basedInteger "0x" 16
  else if ← ahead "0o" then basedInteger "0o" 8
  else if ← ahead "0b" then basedInteger "0b" 2
  else decimalNumber <|> specialNumber

end VirtualShell.Toml.Scan
