import VirtualShell.Command.Arguments

/-!
# Variables on the command line

Setting variables, listing them, and putting them into a text.
-/

namespace VirtualShell.Command

/-- Shows the arguments with their quotes dropped and their variables replaced. -/
def runEcho (env : Environment) (args : List String) : Except CommandError Output :=
  let unquoted := (" ".intercalate args).toList.filter fun c => c != '"' && c != '\''
  .ok (.text (env.vars.expand (String.ofList unquoted)))

@[inherit_doc runEcho]
def echo : Command where
  name := "echo"
  description := "display a line of text"
  usage := "echo [text...]"
  category := "shell"
  manual := some <| Text.unlines [
    "Print the arguments separated by single spaces.",
    "Quote characters are dropped and $NAME is replaced by the",
    "value of the shell variable NAME (empty if unset)."]
  action := .query runEcho

/-- Lists the variables. -/
def env : Command where
  name := "env"
  description := "print environment variables"
  usage := "env"
  category := "shell"
  action := .query fun env _ => .ok (.text (Text.unlines env.vars.listing))

/-- The name and the value that an argument assigns; the value follows the first equals sign. -/
def assignment (arg : String) : Except CommandError (String × String) :=
  match Text.cutFirst '=' arg.toList with
  | some (name, value) =>
    if Variables.isValidName (String.ofList name) then .ok (String.ofList name, String.ofList value)
    else .error (.badIdentifier "export" arg)
  | none => .error (.badIdentifier "export" arg)

/-- Makes all the assignments, or none of them if one is not well formed. Without arguments, lists
the variables. -/
def runExport (env : Environment) (args : List String) : Outcome :=
  if args.isEmpty then ⟨env.toWorld, .ok (.text (Text.unlines env.vars.listing))⟩
  else
    match args.mapM assignment with
    | .error error => ⟨env.toWorld, .error error⟩
    | .ok assignments =>
      let vars := assignments.foldl (fun vars (name, value) => vars.set name value)
        env.vars
      ⟨{ env.toWorld with vars := vars }, .ok .nothing⟩

@[inherit_doc runExport]
def exportCommand : Command where
  name := "export"
  description := "set environment variables"
  usage := "export [NAME=VALUE]..."
  category := "shell"
  manual := some <| Text.unlines [
    "Set each NAME to VALUE. Everything after the first '=' is the value.",
    "With no arguments, print all variables like env."]
  action := .update runExport

end VirtualShell.Command
