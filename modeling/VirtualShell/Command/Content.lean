import VirtualShell.Command.Arguments

/-!
# Showing what files hold

Whole files, the lines at their beginning or end, and how much they hold.
-/

namespace VirtualShell.Command

/-- What is shown for one operand: the content of a file, or a complaint. -/
def contentOrComplaint (env : Environment) (operand : String) : String :=
  let context := s!"cat: {operand}"
  match readFile env operand context context with
  | .ok content => content
  | .error error => error.message

/-- Shows the contents of files one below the other. -/
def runCat (env : Environment) (args : List String) : Except CommandError Output :=
  if args.isEmpty then .error (.missingOperand "cat" "file operand")
  else .ok (.text (Text.unlines (args.map (contentOrComplaint env))))

@[inherit_doc runCat]
def cat : Command where
  name := "cat"
  description := "concatenate files and print"
  usage := "cat <file>..."
  category := "files"
  manual := some <| Text.unlines [
    "Concatenate FILE(s) to standard output.",
    "Each unreadable argument produces one error line in place."]
  action := .query runCat

/-- How many lines are shown of which file. -/
structure Excerpt where
  count : Nat
  file : Option String

/-- The count that an argument spells. -/
def excerptCount (command argument : String) (cs : List Char) : Except CommandError Nat :=
  match Number.readCount? (String.ofList cs) with
  | some count => .ok count
  | none => .error (.refused (.badCount command argument))

/-- Reads arguments in turn: a count is given as `-n 5`, `-n5` or `-5`, and the last one counts; the
first argument of any other form is the file. -/
def readExcerpt (command : String) (excerpt : Excerpt) : List String → Except CommandError Excerpt
  | [] => .ok excerpt
  | arg :: rest =>
    match arg.toList, rest with
    | ['-', 'n'], [] => .error (.refused (.noCount command))
    | ['-', 'n'], value :: rest => do
      let count ← excerptCount command value value.toList
      readExcerpt command { excerpt with count := count } rest
    | '-' :: 'n' :: value, rest => do
      let count ← excerptCount command (String.ofList value) value
      readExcerpt command { excerpt with count := count } rest
    | '-' :: c :: value, rest => do
      let count ← excerptCount command (String.ofList (c :: value)) (c :: value)
      readExcerpt command { excerpt with count := count } rest
    | _, rest =>
      readExcerpt command { excerpt with file := some (excerpt.file.getD arg) } rest

/-- The number of lines shown if none is given. -/
def usualCount : Nat := 10

/-- Shows the lines that `choose` takes, given their number. -/
def runExcerpt (command : String) (choose : Nat → List String → List String) (env : Environment)
    (args : List String) : Except CommandError Output := do
  let excerpt ← readExcerpt command ⟨usualCount, none⟩ args
  let some file := excerpt.file | throw (.missingOperand command "file operand")
  let text ← readFile env file s!"{command}: cannot open '{file}' for reading"
    s!"{command}: error reading '{file}'"
  return .text (Text.unlines (choose excerpt.count (Text.lines text)))

/-- Shows the first lines of a file. -/
def head : Command where
  name := "head"
  description := "output the first part of a file"
  usage := "head [-n N] <file>"
  category := "text"
  action := .query (runExcerpt "head" fun count lines => lines.take count)

/-- Shows the last lines of a file. -/
def tail : Command where
  name := "tail"
  description := "output the last part of a file"
  usage := "tail [-n N] <file>"
  category := "text"
  action := .query (runExcerpt "tail" fun count lines => lines.drop (lines.length - count))

/-- Counts the lines, words and bytes of a file, or those of the three that flags ask for. -/
def runWc (env : Environment) (args : List String) : Except CommandError Output := do
  let flags := flagsOf args
  let some file := (operandsOf args).head? | throw (.missingOperand "wc" "file operand")
  let text ← readFile env file s!"wc: {file}" s!"wc: {file}"
  let counts := [('l', (Text.lines text).length), ('w', (Text.words text).length),
    ('c', text.utf8ByteSize)]
  let asked := counts.filter fun (flag, _) => flags.contains flag
  let shown := if asked.isEmpty then counts else asked
  let columns := shown.map fun (_, count) => Text.padLeft 7 (toString count) ++ " "
  return .text (String.join columns ++ file)

@[inherit_doc runWc]
def wc : Command where
  name := "wc"
  description := "print line, word, and byte counts"
  usage := "wc [-l] [-w] [-c] <file>"
  category := "text"
  manual := some <| Text.unlines [
    "Print line, word and byte counts for FILE.",
    "-l  lines",
    "-w  words",
    "-c  bytes",
    "Without any of these flags all three counts are printed."]
  action := .query runWc

end VirtualShell.Command
