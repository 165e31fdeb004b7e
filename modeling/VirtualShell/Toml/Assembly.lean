import VirtualShell.Entries
import VirtualShell.Toml.Basic

/-!
# Tables from keys

The lines of a document add to its root table one at a time. Nothing is ever given twice: a key has
one value, a table one header, and a table made by dotted keys or between braces is not added to by
a header of its own.
-/

namespace VirtualShell.Toml

/-- The entries of a table. -/
abbrev Entries := List (String × Toml)

/-- Changes the value of a name, or gives it one, or refuses to. -/
def alter (name : String) (change : Option Toml → Option Toml) (entries : Entries) :
    Option Entries :=
  (change (entries.lookup name)).map fun value => VirtualShell.Entries.put name value entries

/-- Changes the entries that a header path leads to. Tables on the way that are not there come into
being, and the way through an array of tables is through its newest one. -/
def along (change : Entries → Option Entries) : List String → Entries → Option Entries
  | [], entries => change entries
  | name :: path, entries => entries |> alter name fun
    | none => (along change path []).map (.table .outer)
    | some (.table .inline _) => none
    | some (.table origin inner) => (along change path inner).map (.table origin)
    | some (.tables newest older) => (along change path newest).map (.tables · older)
    | some _ => none

/-- Begins the table of a header: a new one, or one that has only been passed through so far. -/
def openTable (name : String) : Entries → Option Entries :=
  alter name fun
    | none => some (.table .header [])
    | some (.table .outer entries) => some (.table .header entries)
    | some _ => none

/-- Begins the next table of an array of tables. -/
def openElement (name : String) : Entries → Option Entries :=
  alter name fun
    | none => some (.tables [] [])
    | some (.tables newest older) => some (.tables [] (newest :: older))
    | some _ => none

/-- Gives a dotted key a value. Its last name must be new, and must go into a table that dotted keys
make, or into the one that the key starts from; `mayHold` says whether this is such a table. -/
def assign (value : Toml) : (mayHold : Bool) → List String → Entries → Option Entries
  | _, [], _ => none
  | mayHold, [name], entries =>
    if mayHold && (entries.lookup name).isNone then
      some (VirtualShell.Entries.put name value entries)
    else none
  | _, name :: path, entries => entries |> alter name fun
    | none => (assign value true path []).map (.table .dotted)
    | some (.table .dotted inner) => (assign value true path inner).map (.table .dotted)
    | some (.table .outer inner) => (assign value false path inner).map (.table .outer)
    | some (.tables newest older) => (assign value false path newest).map (.tables · older)
    | some _ => none

/-- The entries that keys and their values make, one after the other. -/
def assignAll (pairs : List (List String × Toml)) : Option Entries :=
  pairs.foldlM (fun entries (key, value) => assign value true key entries) []

/-- A line of a document. -/
inductive Line
  | blank
  | pair (key : List String) (value : Toml)
  | header (outer : List String) (name : String)
  | element (outer : List String) (name : String)

/-- The root table so far, and the path of the table that keys are added to. -/
structure Assembly where
  root : Entries
  current : List String

/-- Adds a line. -/
def Assembly.add (assembly : Assembly) : Line → Option Assembly
  | .blank => some assembly
  | .pair key value => do
    return { assembly with root := ← along (assign value true key) assembly.current assembly.root }
  | .header outer name => do
    return ⟨← along (openTable name) outer assembly.root, outer ++ [name]⟩
  | .element outer name => do
    return ⟨← along (openElement name) outer assembly.root, outer ++ [name]⟩

/-- The root table that lines make. -/
def ofLines (lines : List Line) : Option Entries :=
  (lines.foldlM Assembly.add ⟨[], []⟩).map (·.root)

end VirtualShell.Toml
