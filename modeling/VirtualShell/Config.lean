import VirtualShell.Json.Basic
import VirtualShell.LoadError
import VirtualShell.Text.Blank
import VirtualShell.Text.Search
import VirtualShell.Toml.Reader

/-!
# Settings

Who uses the shell, where it begins, and how it behaves. Whatever a document leaves out has its
usual value. A document of the right shape may still say what no shell can work with; `validate`
finds that.
-/

namespace VirtualShell

/-- The settings of a shell. -/
structure Config where
  user : String
  hostname : String
  /-- The directory in which a session begins and to which `~` leads. -/
  home : String
  /-- The first value of the variable PATH. -/
  path : String
  /-- How many lines the history keeps. -/
  historyLimit : Nat
  /-- Whether listings and the prompt are colored. -/
  color : Bool
  deriving DecidableEq

namespace Config

/-- The usual settings. -/
def usual : Config where
  user := "user"
  hostname := "linux"
  home := "/home/user"
  path := "/usr/bin:/usr/local/bin"
  historyLimit := 100
  color := true

/-- The first fault in what the settings say, if there is one. -/
def fault? (config : Config) : Option ConfigFault :=
  if !Text.startsWith config.home "/" then some (.relativeHome config.home)
  else if config.user.isEmpty || config.user.toList.any Text.isBlank then
    some (.badUser config.user)
  else if config.historyLimit = 0 then some .noHistory
  else none

/-- The settings, if they have no fault. -/
def validate (config : Config) : Except LoadError Config :=
  match config.fault? with
  | some fault => .error (.config fault)
  | none => .ok config

/-- A setting that a document may leave out, but may not give a value of another type. -/
def setting {α β : Type} (usual : α) (read? : β → Option α) : Option β → Option α
  | none => some usual
  | some value => read? value

/-- The settings that the values of some names make. -/
def ofLookup? {β : Type} (lookup : String → Option β) (text? : β → Option String)
    (count? : β → Option Nat) (bool? : β → Option Bool) : Option Config := do
  return {
    user := ← setting usual.user text? (lookup "user")
    hostname := ← setting usual.hostname text? (lookup "hostname")
    home := ← setting usual.home text? (lookup "home")
    path := ← setting usual.path text? (lookup "path")
    historyLimit := ← setting usual.historyLimit count? (lookup "history_limit")
    color := ← setting usual.color bool? (lookup "color") }

/-- The settings in a JSON object. -/
def ofJson? (value : Json) : Option Config :=
  value.members?.bind fun members =>
    ofLookup? (List.lookup · members) Json.text? Json.count? Json.bool?

/-- The content of a text in a TOML document. -/
def tomlText? : Toml → Option String
  | .text content => some content
  | _ => none

/-- The count that an integer in a TOML document is. -/
def tomlCount? : Toml → Option Nat
  | .integer value => if 0 ≤ value then some value.toNat else none
  | _ => none

/-- The truth value in a TOML document. -/
def tomlBool? : Toml → Option Bool
  | .bool value => some value
  | _ => none

/-- The settings in a TOML document, without fault. -/
def ofToml (document : String) : Except LoadError Config :=
  match (Toml.parse? document).bind fun entries =>
    ofLookup? (List.lookup · entries) tomlText? tomlCount? tomlBool? with
  | some config => config.validate
  | none => .error .badToml

/-- The settings as a JSON object. -/
def toJson (config : Config) : Json :=
  .object [
    ("user", .text config.user), ("hostname", .text config.hostname), ("home", .text config.home),
    ("path", .text config.path), ("history_limit", .nat config.historyLimit),
    ("color", .bool config.color)]

end Config

end VirtualShell
