import VirtualShell.Number.Count

/-!
# JSON values

A number is kept as the text that spells it: which numbers there are is a question for whoever reads
the document. The members of an object are in the order in which their names first occurred, each
with the last value it was given.
-/

namespace VirtualShell

/-- A JSON value without parts. -/
inductive Scalar
  | null
  | bool (value : Bool)
  | number (literal : String)
  | text (content : String)
  deriving DecidableEq

/-- A JSON value. -/
inductive Json
  | scalar (value : Scalar)
  | array (items : List Json)
  | object (members : List (String × Json))

namespace Json

/-- The value without meaning. -/
def null : Json := scalar .null

/-- A truth value. -/
def bool (value : Bool) : Json := scalar (.bool value)

/-- A text. -/
def text (content : String) : Json := scalar (.text content)

/-- A natural number. -/
def nat (n : Nat) : Json := scalar (.number (toString n))

/-- The texts as an array. -/
def texts (contents : List String) : Json := array (contents.map text)

/-- The content of a text. -/
def text? : Json → Option String
  | scalar (.text content) => some content
  | _ => none

/-- The truth value that a value is. -/
def bool? : Json → Option Bool
  | scalar (.bool value) => some value
  | _ => none

/-- The count that a number without sign, point and exponent spells. -/
def count? : Json → Option Nat
  | scalar (.number literal) => Number.unsignedCount? literal.toList
  | _ => none

/-- The members of an object. -/
def members? : Json → Option (List (String × Json))
  | object members => some members
  | _ => none

/-- The items of an array. -/
def items? : Json → Option (List Json)
  | array items => some items
  | _ => none

/-- The member of an object with a name. -/
def member? (value : Json) (name : String) : Option Json :=
  match value with
  | object members => members.lookup name
  | _ => none

end Json

end VirtualShell
