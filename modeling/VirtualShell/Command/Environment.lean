import VirtualShell.Tree.Filesystem
import VirtualShell.Variables

/-!
# What a command sees and may change

A command may change the world: the current directory, the tree and the variables. Around it are
things that it can only look at: the lines entered so far, the settings and the time of day.
-/

namespace VirtualShell

/-- What commands change. -/
structure World where
  cwd : String
  tree : Filesystem
  vars : Variables

/-- A world and what surrounds it. -/
structure Environment extends World where
  /-- The lines entered so far, oldest first. -/
  history : List String
  config : Config
  /-- The date and time as a command that is asked for them tells them. -/
  clock : String

namespace Environment

/-- The surroundings with another tree. -/
def withTree (env : Environment) (tree : Filesystem) : Environment :=
  { env with tree := tree }

/-- An expression in which a `~` at its beginning, alone or before a slash, is replaced by the home
directory. -/
def expandHome (env : Environment) (expr : String) : String :=
  if expr = "~" then env.config.home
  else
    match Text.dropStart? "~/" expr with
    | some rest => env.config.home ++ "/" ++ rest
    | none => expr

/-- The absolute form of an expression. -/
def absolute (env : Environment) (expr : String) : String :=
  Path.absolute (env.expandHome expr) env.cwd

/-- The node that an expression stands for. -/
def resolve (env : Environment) (expr : String) : Option Node :=
  env.tree.resolve (env.expandHome expr) env.cwd

end Environment

end VirtualShell
