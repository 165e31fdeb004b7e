import VirtualShell.Toml.Assembly
import VirtualShell.Toml.Moment
import VirtualShell.Toml.Number
import VirtualShell.Toml.Quoted

/-!
# Reading TOML

A document is a sequence of lines. A line may be blank, give a key its value, or be the header of a
table. Arrays and tables between braces may be nested up to a depth, and a key has a greatest number
of names.
-/

namespace VirtualShell.Toml

namespace Scan

/-- The greatest depth of arrays and tables between braces. -/
def deepest : Nat := 79

/-- The greatest number of names in a key. -/
def mostNames : Nat := 79

/-- A character of a name without quotes. -/
def isNameChar (c : Char) : Bool :=
  c.isAlphanum || c == '_' || c == '-'

/-- One name of a key. -/
def name : Scan String := do
  match ← get with
  | '"' :: _ | '\'' :: _ => lineText
  | _ =>
    let name ← stretch isNameChar
    guard !name.isEmpty
    return String.ofList name

/-- A key: names between points, with spaces around them. -/
def key : Scan (List String) := do
  spaces
  let first ← name
  spaces
  let rest ← many do
    if ← optionalWord "." then
      spaces
      let next ← name
      spaces
      return some next
    else return none
  guard (rest.length < mostNames)
  return first :: rest

/-- The items of an array, after its opening bracket. -/
def items (value : Scan Toml) : Scan (List Toml) := do
  breaks
  if ← optionalWord "]" then return []
  let first ← value
  breaks
  let rest ← many do
    if ← optionalWord "]" then return none
    word ","
    breaks
    if ← ahead "]" then return some []
    let next ← value
    breaks
    return some [next]
  return first :: rest.flatten

/-- A key with its value, inside braces. -/
def inlinePair (value : Scan Toml) : Scan (List String × Toml) := do
  let key ← key
  word "="
  spaces
  let value ← value
  spaces
  return (key, value)

/-- The pairs of a table, after its opening brace. -/
def inlinePairs (value : Scan Toml) : Scan (List (List String × Toml)) := do
  spaces
  if ← optionalWord "\x7d" then return []
  let first ← inlinePair value
  let rest ← many do
    if ← optionalWord "\x7d" then return none
    word ","
    return some (← inlinePair value)
  return first :: rest

/-- A table between braces, after the opening one. -/
def inlineTable (value : Scan Toml) : Scan Toml := do
  match assignAll (← inlinePairs value) with
  | some entries => return .table .inline entries
  | none => failure

/-- A value that holds no other values. -/
def simpleValue : Scan Toml := do
  match ← get with
  | '"' :: _ | '\'' :: _ => return .text (← text)
  | 't' :: _ => word "true"; return .bool true
  | 'f' :: _ => word "false"; return .bool false
  | _ => Toml.moment <$> spelled moment <|> number

/-- A value in which arrays and tables are nested no deeper than `depth`. -/
def value : (depth : Nat) → Scan Toml
  | 0 => simpleValue
  | depth + 1 => do
    if ← optionalWord "[" then return .array (← items (value depth))
    else if ← optionalWord "\x7b" then inlineTable (value depth)
    else simpleValue

/-- The path of a header, split into the tables outside and the last name. -/
def headerPath : Scan (List String × String) := do
  let path ← key
  match path.getLast? with
  | some name => return (path.dropLast, name)
  | none => failure

/-- What a line says, up to its end. -/
def statement : Scan Line := do
  match ← get with
  | [] | '#' :: _ | '\n' :: _ | '\r' :: _ => return .blank
  | '[' :: '[' :: rest =>
    set rest
    let (outer, name) ← headerPath
    word "]]"
    return .element outer name
  | '[' :: rest =>
    set rest
    let (outer, name) ← headerPath
    word "]"
    return .header outer name
  | _ =>
    let key ← key
    word "="
    spaces
    return .pair key (← value deepest)

/-- The lines of a document. A byte order mark may stand before them. -/
def document : Scan (List Line) := do
  let _ ← optionalWord "\uFEFF"
  many do
    if (← get).isEmpty then return none
    spaces
    let line ← statement
    lineEnd
    return some line

end Scan

/-- The entries of the root table of a document. -/
def parse? (document : String) : Option Entries := do
  let (lines, _) ← Scan.document document.toList
  ofLines lines

end VirtualShell.Toml
