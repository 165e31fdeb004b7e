import VirtualShell.Command.Arrangement
import VirtualShell.Command.Assignment
import VirtualShell.Command.Content
import VirtualShell.Command.Creation
import VirtualShell.Command.Navigation
import VirtualShell.Command.Permission
import VirtualShell.Command.Removal
import VirtualShell.Command.Search
import VirtualShell.Command.Selection
import VirtualShell.Command.Status
import VirtualShell.Command.Transfer
import VirtualShell.Registry.Dispatch

/-!
# The standard commands
-/

namespace VirtualShell.Registry

/-- The commands that work on the text of files. -/
def textCommands : List Command :=
  [Command.grep, Command.head, Command.tail, Command.wc, Command.sort, Command.uniq]

/-- The commands about the state of the shell. -/
def systemCommands : List Command :=
  [Command.whoami, Command.date, Command.history, Command.ps, Command.df, Command.du, Command.env,
   Command.exportCommand]

/-- The commands to find one's way and to change the tree. -/
def fileCommands : List Command :=
  [Command.pwd, Command.ls, Command.cd, Command.cat, Command.echo, Command.mkdir, Command.touch,
   Command.rm, Command.cp, Command.mv, Command.find, Command.chmod, Command.clear]

/-- All commands that a session offers. -/
def standardCommands : List Command :=
  fileCommands ++ textCommands ++ systemCommands

/-- The registry of a session. -/
def standard : Registry :=
  empty.registerAll standardCommands

end VirtualShell.Registry
