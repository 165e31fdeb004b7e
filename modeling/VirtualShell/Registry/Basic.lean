import VirtualShell.Command.Basic

/-!
# Registries

A registry holds commands by name. Registering a command under a name that is taken replaces the
command that had it. Three names are answered by the registry itself, since the answer is about the
commands it holds.

The order of registration is not meant to show, so every list of commands that is put out is sorted.
-/

namespace VirtualShell

/-- The commands that can be called. -/
structure Registry where
  commands : List Command

namespace Registry

/-- No commands. -/
def empty : Registry := ⟨[]⟩

/-- The commands in which one takes the place of the one that has its name, or comes last. -/
def replaceOrAppend (command : Command) : List Command → List Command
  | [] => [command]
  | other :: rest =>
    if other.name = command.name then command :: rest else other :: replaceOrAppend command rest

/-- Adds a command. -/
def register (registry : Registry) (command : Command) : Registry :=
  ⟨replaceOrAppend command registry.commands⟩

/-- Adds commands in order. -/
def registerAll (registry : Registry) (commands : List Command) : Registry :=
  commands.foldl register registry

/-- The command with a name. -/
def find? (registry : Registry) (name : String) : Option Command :=
  registry.commands.find? (·.name == name)

/-- The commands that the registry answers itself. -/
def ownSynopses : List Synopsis :=
  [{ name := "help", description := "list available commands", usage := "help",
     category := "shell" },
   { name := "man", description := "show the manual page for a command",
     usage := "man <command>", category := "shell" },
   { name := "which", description := "locate a command", usage := "which <command>...",
     category := "shell" }]

/-- What there is to say about the registered commands. -/
def synopses (registry : Registry) : List Synopsis :=
  registry.commands.map (·.toSynopsis)

/-- Whether a name can be called. -/
def contains (registry : Registry) (name : String) : Bool :=
  (registry.find? name).isSome || ownSynopses.any (·.name == name)

/-- Synopses in the order of names; those of one name keep their order. -/
def sortByName (list : List Synopsis) : List Synopsis :=
  list.mergeSort fun a b => a.name ≤ b.name

/-- Everything that can be called, by name. -/
def listing (registry : Registry) : List Synopsis :=
  sortByName (registry.synopses ++ ownSynopses)

/-- The names that begin with a text, in order. -/
def completions (registry : Registry) (start : String) : List String :=
  (registry.listing.filter fun synopsis => Text.startsWith synopsis.name start).map (·.name)

end Registry

end VirtualShell
