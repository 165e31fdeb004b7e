import VirtualShell.Command.Basic
import VirtualShell.Number.Count

/-!
# Arguments

Most commands take flags, single letters that may be written together after a dash, and operands.
The two may be mixed in any order. A dash alone is an operand.
-/

namespace VirtualShell

/-- The letters of an argument that gives flags. -/
def flagLetters? (arg : String) : Option (List Char) :=
  match arg.toList with
  | '-' :: c :: rest => some (c :: rest)
  | _ => none

/-- The flags among arguments, letter by letter. -/
def flagsOf (args : List String) : List Char :=
  args.flatMap fun arg => (flagLetters? arg).getD []

/-- The arguments that give no flags. -/
def operandsOf (args : List String) : List String :=
  args.filter fun arg => (flagLetters? arg).isNone

/-- The content of the file that an expression stands for. Where there is none, the context says how
to complain about a missing entry and about a directory. -/
def readFile (env : Environment) (operand missing directory : String) :
    Except CommandError String :=
  match env.resolve operand with
  | some (.file content _) => .ok content
  | some (.directory _) => .error (.isDirectory directory)
  | none => .error (.missing missing)

/-- The content of a file is read, whatever the complaints would be. -/
theorem readFile_of_resolve {env : Environment} {operand content : String} {mode : Option String}
    (h : env.resolve operand = some (.file content mode)) (missing directory : String) :
    readFile env operand missing directory = .ok content := by
  rw [readFile, h]

end VirtualShell
