import VirtualShell.Command.Arguments
import VirtualShell.Text.Case

/-!
# Selecting lines

A line is selected if it contains the pattern as it stands, or if it does not and the selection is
inverted. With several files every line is labelled with its file, and a file that cannot be read
leaves a complaint in its place.
-/

namespace VirtualShell.Command

/-- How lines are selected and shown. -/
structure Selection where
  ignoreCase : Bool
  numbers : Bool
  inverted : Bool
  countOnly : Bool

/-- Whether an argument is made of the letters of selection flags. -/
def selectionLetters? (arg : String) : Option (List Char) :=
  (flagLetters? arg).filter fun letters =>
    letters.all fun c => c == 'i' || c == 'v' || c == 'n' || c == 'c'

/-- The flags at the beginning of the arguments and what follows them. Two dashes end the flags, and
so does the first argument of any other form, which may begin with a dash. -/
def selectionFlags : List String → List Char × List String
  | [] => ([], [])
  | arg :: rest =>
    if arg = "--" then ([], rest)
    else
      match selectionLetters? arg with
      | some letters =>
        let (flags, operands) := selectionFlags rest
        (letters ++ flags, operands)
      | none => ([], arg :: rest)

namespace Selection

/-- The selection that flags ask for. -/
def ofFlags (flags : List Char) : Selection where
  ignoreCase := flags.contains 'i'
  numbers := flags.contains 'n'
  inverted := flags.contains 'v'
  countOnly := flags.contains 'c'

/-- Whether a line contains the pattern. -/
def isMatch (selection : Selection) (pattern line : String) : Bool :=
  if selection.ignoreCase then Text.contains (Text.lowercase line) (Text.lowercase pattern)
  else Text.contains line pattern

/-- The selected lines of a text with their numbers, counted from one. -/
def select (selection : Selection) (pattern text : String) : List (String × Nat) :=
  ((Text.lines text).zipIdx 1).filter fun (line, _) =>
    selection.isMatch pattern line != selection.inverted

/-- What is shown for a text: its selected lines, or how many there are, each after the label. -/
def listing (selection : Selection) (label pattern text : String) : String :=
  let selected := selection.select pattern text
  if selection.countOnly then label ++ toString selected.length
  else
    Text.unlines <| selected.map fun (line, number) =>
      if selection.numbers then s!"{label}{number}:{line}" else label ++ line

end Selection

/-- What is shown for one of several files, if anything is. -/
def labelledListing (env : Environment) (selection : Selection) (pattern file : String) :
    Option String :=
  match readFile env file s!"grep: {file}" s!"grep: {file}" with
  | .ok text =>
    let found := selection.listing (file ++ ":") pattern text
    if found.isEmpty then none else some found
  | .error error => some error.message

/-- Shows the lines of files that contain a pattern. -/
def runGrep (env : Environment) (args : List String) : Except CommandError Output :=
  let (flags, operands) := selectionFlags args
  let selection := Selection.ofFlags flags
  match operands with
  | [] | [_] => .error (.usage "Usage: grep [pattern] [file...]")
  | [pattern, file] => do
    let text ← readFile env file s!"grep: {file}" s!"grep: {file}"
    return .text (selection.listing "" pattern text)
  | pattern :: files =>
    .ok (.text (Text.unlines (files.filterMap (labelledListing env selection pattern))))

@[inherit_doc runGrep]
def grep : Command where
  name := "grep"
  description := "print lines that contain a pattern"
  usage := "grep [-i] [-n] [-v] [-c] <pattern> <file>..."
  category := "text"
  manual := some <| Text.unlines [
    "Print the lines of each FILE that contain PATTERN as a literal substring.",
    "-i  ignore case",
    "-n  prefix each line with its line number",
    "-v  select non-matching lines",
    "-c  print only a count of selected lines"]
  action := .query runGrep

end VirtualShell.Command
