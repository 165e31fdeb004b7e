import VirtualShell.Text.Pad

/-!
# Telling the time

The date and time, in universal time, of a number of seconds after the beginning of 1970.
-/

namespace VirtualShell.Clock

/-- A day of the calendar. -/
structure Day where
  year : Nat
  month : Nat
  day : Nat
  deriving DecidableEq

/-- The day that comes so many days after the first of January 1970. Years are counted from March,
so that the leap day is the last one of its year. -/
def dayAfter (days : Nat) : Day :=
  let shifted := days + 719468
  let era := shifted / 146097
  let dayOfEra := shifted % 146097
  let yearOfEra := (dayOfEra - dayOfEra / 1460 + dayOfEra / 36524 - dayOfEra / 146096) / 365
  let dayOfYear := dayOfEra - (365 * yearOfEra + yearOfEra / 4 - yearOfEra / 100)
  let fromMarch := (5 * dayOfYear + 2) / 153
  let month := if fromMarch < 10 then fromMarch + 3 else fromMarch - 9
  let year := yearOfEra + era * 400
  { year := if month ≤ 2 then year + 1 else year
    month
    day := dayOfYear - (153 * fromMarch + 2) / 5 + 1 }

/-- The days of the week, beginning with that of the first of January 1970. -/
def weekdays : List String := ["Thu", "Fri", "Sat", "Sun", "Mon", "Tue", "Wed"]

/-- The months. -/
def months : List String :=
  ["Jan", "Feb", "Mar", "Apr", "May", "Jun", "Jul", "Aug", "Sep", "Oct", "Nov", "Dec"]

/-- A number with two digits. -/
def twoDigits (n : Nat) : String :=
  if n < 10 then "0" ++ toString n else toString n

/-- The weekday, month, day, time and year of a number of seconds. -/
def text (seconds : Nat) : String :=
  let day := dayAfter (seconds / 86400)
  let second := seconds % 86400
  let time := ":".intercalate
    [twoDigits (second / 3600), twoDigits (second / 60 % 60), twoDigits (second % 60)]
  " ".intercalate
    [(weekdays[seconds / 86400 % 7]?).getD "", (months[day.month - 1]?).getD "",
     Text.padLeft 2 (toString day.day), time, "UTC", toString day.year]

/-- The fourth of July 2026 was a Saturday. -/
example : dayAfter 20638 = ⟨2026, 7, 4⟩ ∧ weekdays[20638 % 7]? = some "Sat" := by decide

end VirtualShell.Clock
