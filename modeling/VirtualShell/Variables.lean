import VirtualShell.Config
import VirtualShell.Entries

/-!
# Shell variables

Variables in the order in which they were first set. A text is expanded in one pass: what a variable
puts in is not looked at again.
-/

namespace VirtualShell

/-- The variables, each with its value. -/
structure Variables where
  bindings : List (String × String)
  deriving DecidableEq

namespace Variables

/-- A character of a variable's name. -/
def isNameChar (c : Char) : Bool :=
  c.isAlphanum || c == '_'

/-- Whether a text can name a variable: name characters, the first one not a digit. -/
def isValidName (name : String) : Bool :=
  match name.toList with
  | [] => false
  | c :: rest => (c.isAlpha || c == '_') && rest.all isNameChar

/-- No variables. -/
def empty : Variables := ⟨[]⟩

/-- The value of a variable. -/
def get? (vars : Variables) (name : String) : Option String :=
  vars.bindings.lookup name

/-- Gives a variable a value. One that has a value keeps its position. -/
def set (vars : Variables) (name value : String) : Variables :=
  ⟨Entries.put name value vars.bindings⟩

/-- The variables of a shell that begins in the directory `cwd`. -/
def initial (config : Config) (cwd : String) : Variables :=
  (((empty.set "HOME" config.home).set "USER" config.user).set "PATH" config.path).set "PWD" cwd

/-- The characters of a text in which every `$` with a name after it is replaced by the value of the
longest such name. A name without a value leaves nothing, and a `$` without a name stays. -/
def expandChars (vars : Variables) : List Char → List Char
  | [] => []
  | c :: rest =>
    if c ≠ '$' then c :: expandChars vars rest
    else
      let name := rest.takeWhile isNameChar
      if name.isEmpty then '$' :: expandChars vars rest
      else
        ((vars.get? (String.ofList name)).getD "").toList ++
          expandChars vars (rest.dropWhile isNameChar)
termination_by cs => cs.length
decreasing_by
  · simp
  · simp
  · exact Nat.lt_succ_of_le (List.dropWhile_suffix isNameChar).length_le

/-- The text with its variables replaced. -/
def expand (vars : Variables) (text : String) : String :=
  String.ofList (vars.expandChars text.toList)

/-- The lines that list the variables. -/
def listing (vars : Variables) : List String :=
  vars.bindings.map fun (name, value) => name ++ "=" ++ value

end Variables

end VirtualShell
