import VirtualShell.Number.Hexadecimal
import VirtualShell.Toml.Blank

/-!
# Texts in TOML

Between double quotes a backslash begins an escape; between single quotes it does not. A text
between three quotes of either sort may run over several lines. Then a line feed right after the
opening quotes does not count, every line ends with a plain line feed however it was written, and up
to two quotes may stand before the closing ones.
-/

namespace VirtualShell.Toml.Scan

/-- A character with the given number of hexadecimal digits. Surrogates are no characters. -/
def hexChar (digits : Nat) : Scan Char := do
  let cs ← get
  let values ← (cs.take digits).mapM fun c => (Number.hexValue? c : Option Nat)
  guard (values.length = digits)
  set (cs.drop digits)
  let n := values.foldl (fun n value => 16 * n + value) 0
  guard n.isValidChar
  return Char.ofNat n

/-- The character that stands after a backslash. -/
def escape : Scan Char := do
  match ← char with
  | 'b' => return '\x08'
  | 't' => return '\t'
  | 'n' => return '\n'
  | 'f' => return '\x0c'
  | 'r' => return '\r'
  | '"' => return '"'
  | '\\' => return '\\'
  | 'u' => hexChar 4
  | 'U' => hexChar 8
  | _ => failure

/-- What follows an opening double quote. -/
def escapedLine : Scan String := do
  let content ← many do
    match ← char with
    | '"' => return none
    | '\\' => return some (← escape)
    | c => guard (isComment c); return some c
  return String.ofList content

/-- What follows an opening single quote. -/
def literalLine : Scan String := do
  let content ← many do
    match ← char with
    | '\'' => return none
    | c => guard (isComment c); return some c
  return String.ofList content

/-- The closing quotes of a text over several lines. Up to five may stand there, and the last three
close. -/
def closingQuotes (quote : Char) : Scan (List Char) := do
  let run ← stretch (· == quote)
  guard (3 ≤ run.length && run.length ≤ 5)
  return run.drop 3

/-- A backslash at the end of a line takes the line end and all white space after it away. -/
def lineContinuation : Scan Unit := do
  spaces
  lineFeed
  spacesAndLines

/-- What follows three opening quotes, given what a backslash means. -/
def severalLines (quote : Char) (backslash : Scan (List Char)) : Scan String := do
  let closing := String.ofList [quote, quote, quote]
  let _ ← optional lineFeed
  let content ← many do
    if ← ahead closing then return none
    else
      match ← char with
      | '\n' => return some ['\n']
      | '\r' => word "\n"; return some ['\n']
      | '\\' => return some (← backslash)
      | c => guard (isComment c); return some [c]
  return String.ofList (content.flatten ++ (← closingQuotes quote))

/-- A text of any of the four sorts. -/
def text : Scan String := do
  if ← optionalWord "\"\"\"" then
    severalLines '"' ((do lineContinuation; return []) <|> (do return [← escape]))
  else if ← optionalWord "'''" then
    severalLines '\'' (return ['\\'])
  else if ← optionalWord "\"" then escapedLine
  else
    word "'"
    literalLine

/-- A text on one line, as a key may be given. -/
def lineText : Scan String := do
  if ← optionalWord "\"" then escapedLine
  else
    word "'"
    literalLine

end VirtualShell.Toml.Scan
