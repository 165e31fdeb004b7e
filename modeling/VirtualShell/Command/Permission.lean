import VirtualShell.Command.Arguments

/-!
# Modes

A mode is octal, one to four digits, or symbolic: clauses between commas, each of them the letters
of some users, perhaps none, and then operators, each followed by some permissions, perhaps none.
Modes are recorded on files and never enforced.
-/

namespace VirtualShell.Command

/-- A letter for users. -/
def isUserLetter (c : Char) : Bool :=
  c == 'u' || c == 'g' || c == 'o' || c == 'a'

/-- What is done with permissions: they are added, taken away or set. -/
def isModeOperator (c : Char) : Bool :=
  c == '+' || c == '-' || c == '='

/-- A letter for a permission. -/
def isPermission (c : Char) : Bool :=
  c == 'r' || c == 'w' || c == 'x' || c == 'X' || c == 's' || c == 't'

/-- Whether a text can stand behind an operator: permissions, as long as there are any, and then
nothing or another operator, behind which it goes on in the same way. -/
def followsOperator : List Char → Bool
  | [] => true
  | c :: rest =>
    if isPermission c then followsOperator rest else isModeOperator c && followsOperator rest

/-- Whether a text is a symbolic clause. -/
def isModeClause (clause : List Char) : Bool :=
  match clause.dropWhile isUserLetter with
  | [] => false
  | c :: rest => isModeOperator c && followsOperator rest

/-- Whether a text of digits is an octal mode. -/
def isOctalMode (digits : List Char) : Bool :=
  1 ≤ digits.length && digits.length ≤ 4 && digits.all (· < '8')

/-- Whether a text is a mode. -/
def isMode (mode : String) : Bool :=
  let cs := mode.toList
  if cs.all Char.isDigit then isOctalMode cs else (cs.splitOn ',').all isModeClause

/-- Records a mode on what one operand names; a directory keeps none. -/
def recordMode (mode : String) (env : Environment) (operand : String) :
    Except CommandError Filesystem :=
  let path := env.absolute operand
  match env.tree.lookup path with
  | some (.file content _) => .ok (env.tree.overwrite path (.file content (some mode)))
  | some (.directory _) => .ok env.tree
  | none => .error (.missing s!"chmod: cannot access '{operand}'")

/-- Records a mode on each file. -/
def runChmod (env : Environment) (args : List String) : Filesystem × Except CommandError Output :=
  match args with
  | [] => (env.tree, .error (.missingOperand "chmod" "operand"))
  | [mode] => (env.tree, .error (.refused (.noFiles mode)))
  | mode :: files =>
    if isMode mode then editAll (singly (recordMode mode)) env files
    else (env.tree, .error (.refused (.badMode mode)))

@[inherit_doc runChmod]
def chmod : Command where
  name := "chmod"
  description := "change file mode bits"
  usage := "chmod <mode> <file>..."
  category := "files"
  manual := some <| Text.unlines [
    "Record MODE on each FILE. MODE is octal (e.g. 755) or symbolic",
    "(e.g. u+x,go-w). Modes are stored but never enforced."]
  action := .edit runChmod

end VirtualShell.Command
