import VirtualShell.Number.Count
import VirtualShell.Toml.Scan

/-!
# Dates and times in TOML

A date, a time of day, or both with a `T` or a space between them and perhaps an offset. Days exist
in the calendar, and a minute may have a second 60.
-/

namespace VirtualShell.Toml.Scan

/-- The value of exactly so many digits. -/
def fixedDigits (count : Nat) : Scan Nat := do
  let cs ← get
  let digits := cs.take count
  guard (digits.length = count && digits.all Char.isDigit)
  set (cs.drop count)
  return Number.digitsValue digits

/-- Two digits whose value lies between two bounds. -/
def twoDigits (least greatest : Nat) : Scan Nat := do
  let value ← fixedDigits 2
  guard (least ≤ value && value ≤ greatest)
  return value

/-- Whether a year has a 29th of February. -/
def isLeapYear (year : Nat) : Bool :=
  year % 4 = 0 && (year % 100 ≠ 0 || year % 400 = 0)

/-- The number of days in a month. -/
def daysIn (year month : Nat) : Nat :=
  if month = 2 then (if isLeapYear year then 29 else 28)
  else if month = 4 || month = 6 || month = 9 || month = 11 then 30
  else 31

/-- A day of the calendar. -/
def date : Scan Unit := do
  let year ← fixedDigits 4
  word "-"
  let month ← twoDigits 1 12
  word "-"
  let _ ← twoDigits 1 (daysIn year month)

/-- A time of day, perhaps with a fraction of a second. -/
def time : Scan Unit := do
  let _ ← twoDigits 0 23
  word ":"
  let _ ← twoDigits 0 59
  word ":"
  let _ ← twoDigits 0 60
  let _ ← optional do
    word "."
    let _ ← charIf Char.isDigit
    let _ ← stretch Char.isDigit

/-- The offset of a time. -/
def offset : Scan Unit :=
  (do let _ ← charIf fun c => c == 'Z' || c == 'z') <|> do
    let _ ← charIf fun c => c == '+' || c == '-'
    let _ ← twoDigits 0 23
    word ":"
    let _ ← twoDigits 0 59

/-- A time after a date. -/
def timeOfDate : Scan Unit := do
  let _ ← charIf fun c => c == 'T' || c == 't' || c == ' '
  time
  let _ ← optional offset

/-- A date, a time of day, or both. -/
def moment : Scan Unit :=
  (do date; let _ ← optional timeOfDate) <|> time

end VirtualShell.Toml.Scan
