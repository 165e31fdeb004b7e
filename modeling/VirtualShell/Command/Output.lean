import VirtualShell.Text.Blank
import VirtualShell.Text.Lines
import VirtualShell.Text.Pad

/-!
# What a command puts out

Text, a table, nothing, or the wish that the screen be cleared. A column of a table is as wide as
the longest of its cells, measured in bytes, and two spaces stand between columns; cells are filled
up to the width by characters. A row may have more or fewer cells than the headers.
-/

namespace VirtualShell

/-- The result of a command. -/
inductive Output
  | text (content : String)
  | table (headers : List String) (rows : List (List String))
  | nothing
  | clear
  deriving DecidableEq

namespace Table

/-- The widths of columns that also have to hold the cells of one more row. -/
def widen : List Nat → List String → List Nat
  | widths, [] => widths
  | [], cell :: cells => cell.utf8ByteSize :: widen [] cells
  | width :: widths, cell :: cells => max width cell.utf8ByteSize :: widen widths cells

/-- The widths of the columns of a table. -/
def widths (rows : List (List String)) : List Nat :=
  rows.foldl widen []

/-- A row before the blanks at its end are cut. -/
def fullRow (widths : List Nat) (cells : List String) : String :=
  "  ".intercalate (List.zipWith Text.padRight widths cells)

/-- A row as it is shown. -/
def row (widths : List Nat) (cells : List String) : String :=
  Text.trimEnd (fullRow widths cells)

/-- The lines of a table, the headers first. -/
def lines (headers : List String) (rows : List (List String)) : List String :=
  (headers :: rows).map (row (widths (headers :: rows)))

end Table

/-- The sequence that clears a terminal and puts its cursor into the first place. -/
def clearScreen : String := "\x1b[2J\x1b[H"

/-- The text that a terminal shows for a result. -/
def Output.render : Output → String
  | text content => content
  | table headers rows => Text.unlines (Table.lines headers rows)
  | nothing => ""
  | clear => clearScreen

end VirtualShell
