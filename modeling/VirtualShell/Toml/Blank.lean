import VirtualShell.Toml.Scan

/-!
# What stands between values

Spaces and tabs, line ends, and comments, which reach to the end of their line. Inside an array all
of these may separate values; elsewhere only spaces and tabs do, and a line ends what stands on it.
-/

namespace VirtualShell.Toml.Scan

/-- A space or a tab. -/
def isSpace (c : Char) : Bool :=
  c == ' ' || c == '\t'

/-- A character of a comment: no control character but the tab. -/
def isComment (c : Char) : Bool :=
  c == '\t' || (0x20 ≤ c.toNat && c.toNat ≠ 0x7F)

/-- Spaces and tabs, if any. -/
def spaces : Scan Unit := do
  let _ ← stretch isSpace

/-- A line feed, perhaps after a carriage return. -/
def lineFeed : Scan Unit :=
  word "\n" <|> word "\x0d\n"

/-- A comment, if there is one. -/
def optionalComment : Scan Unit := do
  if ← optionalWord "#" then
    let _ ← stretch isComment

/-- The end of a line or of the document, perhaps after spaces and a comment. -/
def lineEnd : Scan Unit := do
  spaces
  optionalComment
  match ← get with
  | [] => return ()
  | _ => lineFeed

/-- Spaces, line ends and whole comments, if any. -/
def breaks : Scan Unit := do
  let _ ← many do
    match ← get with
    | ' ' :: rest | '\t' :: rest | '\n' :: rest => set rest; return some ()
    | '\r' :: '\n' :: rest => set rest; return some ()
    | '#' :: _ => optionalComment; lineFeed; return some ()
    | _ => return none

/-- Spaces and line ends, if any. -/
def spacesAndLines : Scan Unit := do
  let _ ← many do
    match ← get with
    | ' ' :: rest | '\t' :: rest | '\n' :: rest => set rest; return some ()
    | '\r' :: '\n' :: rest => set rest; return some ()
    | _ => return none

end VirtualShell.Toml.Scan
