import VirtualShell.Command.Arguments

/-!
# Finding one's way

The current directory, how to change it, and what a directory holds.
-/

namespace VirtualShell.Command

/-- Says where the shell is. -/
def pwd : Command where
  name := "pwd"
  description := "print working directory"
  usage := "pwd"
  category := "navigation"
  manual := some "Print the full pathname of the current working directory."
  action := .query fun env _ => .ok (.text env.cwd)

/-- One entry in the long form of a listing. -/
def longEntry (user : String) : String × Node → String
  | (name, node) =>
    let kind := if node.isDirectory then "d" else "-"
    let size := Text.padLeft 5 (toString node.size)
    s!"{kind}rwxr-xr-x 1 {user} {user} {size} Jan 01 12:00 {name}"

/-- One entry in the short form of a listing: a directory has a slash, and perhaps a color. -/
def shortEntry (color : Bool) : String × Node → String
  | (name, node) =>
    if !node.isDirectory then name
    else if color then s!"\x1b[1;34m{name}/\x1b[0m"
    else s!"{name}/"

/-- Lists the entries of a directory. -/
def runLs (env : Environment) (args : List String) : Except CommandError Output :=
  let flags := flagsOf args
  let target := (operandsOf args).head?
  let node := match target with
    | some operand => env.resolve operand
    | none => env.tree.lookup env.cwd
  match node.bind Node.entries? with
  | none =>
    let shown := target.getD env.cwd
    .error (.missing s!"ls: cannot access '{shown}'")
  | some entries =>
    let visible := entries.filter fun (name, _) =>
      flags.contains 'a' || !Text.startsWith name "."
    if flags.contains 'l' then .ok (.text (Text.unlines (visible.map (longEntry env.config.user))))
    else .ok (.text ("  ".intercalate (visible.map (shortEntry env.config.color))))

@[inherit_doc runLs]
def ls : Command where
  name := "ls"
  description := "list directory contents"
  usage := "ls [-a] [-l] [path]"
  category := "navigation"
  manual := some <| Text.unlines [
    "List the entries of a directory, sorted by name.",
    "-a  include entries whose names begin with '.'",
    "-l  use a long listing format"]
  action := .query runLs

/-- Goes to a directory, by default the home directory, and tells the variable PWD. -/
def runCd (env : Environment) (args : List String) : Outcome :=
  let operand := args.head?.getD "~"
  match env.resolve operand with
  | some (.directory _) =>
    let cwd := env.absolute operand
    ⟨{ env.toWorld with cwd := cwd, vars := env.vars.set "PWD" cwd }, .ok .nothing⟩
  | _ => ⟨env.toWorld, .error (.missing s!"bash: cd: {operand}")⟩

@[inherit_doc runCd]
def cd : Command where
  name := "cd"
  description := "change directory"
  usage := "cd [directory]"
  category := "navigation"
  manual := some <| Text.unlines [
    "Change the current directory to the specified path.",
    "With no argument, or '~', change to the home directory."]
  action := .update runCd

end VirtualShell.Command
