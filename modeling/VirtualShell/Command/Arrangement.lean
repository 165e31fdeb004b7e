import VirtualShell.Command.Arguments
import VirtualShell.Number.Binary

/-!
# Arranging lines

Sorting lines and collapsing equal neighbours. Lines are compared by code point, or by the number
they begin with and only then by code point.
-/

namespace VirtualShell.Command

/-- The number that a line begins with, as a key: digits and points after an optional minus sign.
What does not spell a number counts as zero. -/
def leadingKey (line : String) : Int :=
  let isPart (c : Char) : Bool := c.isDigit || c == '.'
  let number? := match line.toList.dropWhile Text.isBlank with
    | '-' :: rest => Number.Decimal.ofDigits? true (rest.takeWhile isPart)
    | cs => Number.Decimal.ofDigits? false (cs.takeWhile isPart)
  match number? with
  | some number => number.orderKey
  | none => 0

/-- Whether a line with its key may stand before another. -/
def keyedLe (a b : Int × String) : Bool :=
  a.1 < b.1 || (a.1 == b.1 && a.2 ≤ b.2)

/-- The lines by the numbers they begin with. -/
def sortByNumber (lines : List String) : List String :=
  ((lines.map fun line => (leadingKey line, line)).mergeSort keyedLe).map (·.2)

/-- The lines by code point. -/
def sortByText (lines : List String) : List String :=
  lines.mergeSort fun a b => a ≤ b

/-- The lines in the order that flags ask for. -/
def arrange (flags : List Char) (lines : List String) : List String :=
  let sorted := if flags.contains 'n' then sortByNumber lines else sortByText lines
  if flags.contains 'r' then sorted.reverse else sorted

/-- Sorts the lines of a file. -/
def runSort (env : Environment) (args : List String) : Except CommandError Output := do
  let some file := (operandsOf args).head? | throw (.missingOperand "sort" "file operand")
  let text ← readFile env file s!"sort: cannot read: {file}" s!"sort: read failed: {file}"
  return .text (Text.unlines (arrange (flagsOf args) (Text.lines text)))

@[inherit_doc runSort]
def sort : Command where
  name := "sort"
  description := "sort lines of a file"
  usage := "sort [-r] [-n] <file>"
  category := "text"
  action := .query runSort

/-- Stretches with one more line, which lengthens the last one or begins another. -/
def addLine (runs : List (Nat × String)) (line : String) : List (Nat × String) :=
  match runs.getLast? with
  | some (count, last) =>
    if last = line then runs.dropLast ++ [(count + 1, last)] else runs ++ [(1, line)]
  | none => runs ++ [(1, line)]

/-- The stretches of equal neighbours, each as its length and its line. -/
def stretches (lines : List String) : List (Nat × String) :=
  lines.foldl addLine []

/-- Shows one line for each stretch of equal lines of a file, perhaps with its length. -/
def runUniq (env : Environment) (args : List String) : Except CommandError Output := do
  let counted := (flagsOf args).contains 'c'
  let some file := (operandsOf args).head? | throw (.missingOperand "uniq" "file operand")
  let text ← readFile env file s!"uniq: {file}" s!"uniq: {file}"
  return .text <| Text.unlines <| (stretches (Text.lines text)).map fun (count, line) =>
    if counted then Text.padLeft 7 (toString count) ++ " " ++ line else line

@[inherit_doc runUniq]
def uniq : Command where
  name := "uniq"
  description := "collapse adjacent duplicate lines"
  usage := "uniq [-c] <file>"
  category := "text"
  action := .query runUniq

end VirtualShell.Command
