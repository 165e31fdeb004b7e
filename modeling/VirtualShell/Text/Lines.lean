/-!
# Lines of a text

A line ends at a line feed, which may be preceded by one carriage return that belongs to the ending.
What follows the last line feed is a line of its own unless it is empty, and keeps a carriage return
at its end, since no line feed follows it.
-/

namespace VirtualShell.Text

/-- A piece that a line feed ended, without the one carriage return that may stand before it. -/
def dropReturn (piece : List Char) : List Char :=
  if piece.getLast? = some '\r' then piece.dropLast else piece

/-- The lines that the pieces between line feeds stand for: all but the last were ended. -/
def linesOfPieces : List (List Char) → List (List Char)
  | [] => []
  | [last] => if last.isEmpty then [] else [last]
  | piece :: next :: rest => dropReturn piece :: linesOfPieces (next :: rest)

/-- The lines of a text. -/
def lines (s : String) : List String :=
  (linesOfPieces (s.toList.splitOn '\n')).map String.ofList

/-- The text whose lines are joined by line feeds, with none after the last. -/
def unlines (ls : List String) : String :=
  "\n".intercalate ls

end VirtualShell.Text
