import VirtualShell.Registry.Basic
import VirtualShell.Text.Case

/-!
# What a registry says about its commands

The overview of all commands, the manual page of one, and where a command is to be found.
-/

namespace VirtualShell.Registry

/-- The line of the overview about one command. -/
def overviewLine (synopsis : Synopsis) : String :=
  "  " ++ Text.padRight 28 synopsis.usage ++ " " ++ synopsis.description ++ "\n"

/-- The commands of one category, under its heading. -/
def sectionOf (all : List Synopsis) (category : String) : String :=
  let members := sortByName (all.filter (·.category == category))
  "\n" ++ Text.uppercase category ++ ":\n" ++ String.join (members.map overviewLine)

/-- The categories of some commands, each once and in order. -/
def categories (all : List Synopsis) : List String :=
  (all.map (·.category)).eraseDups.mergeSort fun a b => a ≤ b

/-- The overview of all commands by category. -/
def help (registry : Registry) : String :=
  let all := ownSynopses ++ registry.synopses
  let total := toString all.length
  s!"Linux Command Reference ({total} commands)\n" ++
    String.join ((categories all).map (sectionOf all)) ++
    "\nType 'man <command>' for detailed help on any command."

/-- The synopsis that a manual page is made of; a registered command comes before one that the
registry answers itself. -/
def topic? (registry : Registry) (name : String) : Option Synopsis :=
  match registry.find? name with
  | some command => some command.toSynopsis
  | none => ownSynopses.find? (·.name == name)

/-- A text whose lines after the first are indented like the first one of a section. -/
def indentLines (text : String) : String :=
  "\n    ".intercalate ((text.toList.splitOn '\n').map String.ofList)

/-- The manual page about a command. -/
def page (synopsis : Synopsis) : String :=
  let body := indentLines (synopsis.manual.getD synopsis.description)
  s!"NAME\n    {synopsis.name} - {synopsis.description}\n\nSYNOPSIS\n    {synopsis.usage}\n\n" ++
    "DESCRIPTION\n    " ++ body

/-- Shows the manual page that the first argument names. -/
def man (registry : Registry) (args : List String) : Except CommandError Output :=
  match args.head? with
  | none => .error (.usage "What manual page do you want?")
  | some name =>
    match registry.topic? name with
    | some synopsis => .ok (.text (page synopsis))
    | none => .error (.noManual name)

/-- Where a name is to be found, given where was looked. -/
def whichLine (registry : Registry) (searched name : String) : String :=
  if registry.contains name then "/usr/bin/" ++ name else s!"which: no {name} in ({searched})"

/-- Tells for each argument where that command is to be found. -/
def which (registry : Registry) (env : Environment) (args : List String) : Output :=
  if args.isEmpty then .nothing
  else
    let searched := (env.vars.get? "PATH").getD ""
    .text (Text.unlines (args.map (registry.whichLine searched)))

end VirtualShell.Registry
