import VirtualShell.Registry.Manual
import VirtualShell.Text.Blank

/-!
# Calling commands

The words of a line are the name of a command and its arguments. There are no quotes, pipes or
redirections: a word is what stands between blanks. A line without words does nothing.
-/

namespace VirtualShell.Registry

/-- Carries out the command that words call. -/
def call (registry : Registry) (env : Environment) : List String → Outcome
  | [] => ⟨env.toWorld, .ok .nothing⟩
  | "help" :: _ => ⟨env.toWorld, .ok (.text registry.help)⟩
  | "man" :: args => ⟨env.toWorld, registry.man args⟩
  | "which" :: args => ⟨env.toWorld, .ok (registry.which env args)⟩
  | name :: args =>
    match registry.find? name with
    | some command => command.action.run env args
    | none => ⟨env.toWorld, .error (.unknownCommand name)⟩

/-- Carries out a line. -/
def execute (registry : Registry) (env : Environment) (line : String) : Outcome :=
  registry.call env (Text.words line)

end VirtualShell.Registry
