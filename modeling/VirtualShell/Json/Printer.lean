import VirtualShell.Json.Basic
import VirtualShell.Json.Quoted

/-!
# Writing JSON

There are two layouts. The compact one has no white space. The indented one gives every item and
member a line of its own, two spaces further in than the array or object that holds it; an empty
array or object is written without a break.
-/

namespace VirtualShell.Json

/-- A scalar. -/
def Scalar.write : Scalar → String
  | .null => "null"
  | .bool true => "true"
  | .bool false => "false"
  | .number literal => literal
  | .text content => Quoted.encode content

mutual

/-- A value without white space. -/
def compact : Json → String
  | scalar value => Scalar.write value
  | array items => "[" ++ compactItems items ++ "]"
  | object members => "\x7b" ++ compactMembers members ++ "\x7d"

/-- Items separated by commas. -/
def compactItems : List Json → String
  | [] => ""
  | [item] => compact item
  | item :: next :: rest => compact item ++ "," ++ compactItems (next :: rest)

/-- Members separated by commas. -/
def compactMembers : List (String × Json) → String
  | [] => ""
  | [(name, value)] => Quoted.encode name ++ ":" ++ compact value
  | (name, value) :: next :: rest =>
    Quoted.encode name ++ ":" ++ compact value ++ "," ++ compactMembers (next :: rest)

end

/-- A line break and the spaces before a line at a depth. -/
def newline (depth : Nat) : String :=
  String.ofList ('\n' :: List.replicate (2 * depth) ' ')

mutual

/-- A value that begins on a line at a depth. -/
def indentedAt (depth : Nat) : Json → String
  | scalar value => Scalar.write value
  | array [] => "[]"
  | array (item :: rest) => "[" ++ indentedItems (depth + 1) (item :: rest) ++ newline depth ++ "]"
  | object [] => "\x7b\x7d"
  | object (member :: rest) =>
    "\x7b" ++ indentedMembers (depth + 1) (member :: rest) ++ newline depth ++ "\x7d"

/-- Items, each on a line at a depth. -/
def indentedItems (depth : Nat) : List Json → String
  | [] => ""
  | [item] => newline depth ++ indentedAt depth item
  | item :: next :: rest =>
    newline depth ++ indentedAt depth item ++ "," ++ indentedItems depth (next :: rest)

/-- Members, each on a line at a depth. -/
def indentedMembers (depth : Nat) : List (String × Json) → String
  | [] => ""
  | [(name, value)] => newline depth ++ Quoted.encode name ++ ": " ++ indentedAt depth value
  | (name, value) :: next :: rest =>
    newline depth ++ Quoted.encode name ++ ": " ++ indentedAt depth value ++ "," ++
      indentedMembers depth (next :: rest)

end

/-- A value over several lines. -/
def indented (value : Json) : String :=
  indentedAt 0 value

end VirtualShell.Json
