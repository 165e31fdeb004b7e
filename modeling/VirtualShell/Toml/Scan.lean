import VirtualShell.Text.Search

/-!
# Scanning

A scan takes characters off the front of a text and gives a result, or fails. Where a choice has two
alternatives, the second begins where the first began.
-/

namespace VirtualShell.Toml

/-- Takes a result off the front of a text. -/
abbrev Scan := StateT (List Char) Option

namespace Scan

/-- The next character. -/
def char : Scan Char
  | [] => none
  | c :: rest => some (c, rest)

/-- The next character, which must satisfy `p`. -/
def charIf (p : Char → Bool) : Scan Char := do
  let c ← char
  guard (p c)
  return c

/-- A known text. -/
def word (text : String) : Scan Unit := fun cs =>
  (Text.after? text.toList cs).map fun rest => ((), rest)

/-- A known text, if it comes next. -/
def optionalWord (text : String) : Scan Bool :=
  (do word text; return true) <|> return false

/-- The longest stretch of characters that satisfy `p`. -/
def stretch (p : Char → Bool) : Scan (List Char) := fun cs =>
  some (cs.takeWhile p, cs.dropWhile p)

/-- Whether a known text comes next; nothing is taken. -/
def ahead (text : String) : Scan Bool := do
  return text.toList.isPrefixOf (← get)

/-- The text that a scan takes. -/
def spelled (scan : Scan Unit) : Scan String := do
  let before ← get
  scan
  let behind ← get
  return String.ofList (before.take (before.length - behind.length))

/-- The results of a step that is repeated until it says that it was the last, but at most as often
as `fuel` says. -/
def repeatedly {α : Type} (step : Scan (Option α)) : Nat → Scan (List α)
  | 0 => failure
  | fuel + 1 => do
    match ← step with
    | none => return []
    | some result => return result :: (← repeatedly step fuel)

/-- The results of a step that is repeated until it says that it was the last. Every other step has
to take a character, so that there are no more steps than characters, and one. -/
def many {α : Type} (step : Scan (Option α)) : Scan (List α) := do
  repeatedly step ((← get).length + 1)

end Scan

end VirtualShell.Toml
