/-!
# Failures to load

What can be wrong with the documents that a shell starts from: the tree it is given and its
settings.
-/

namespace VirtualShell

/-- Why a well-formed document is no tree to start from. -/
inductive SeedFault
  /-- An object without a type that does not have exactly one member. -/
  | notSingle
  /-- An object without a type whose one member is not named `/`. -/
  | noRootEntry
  /-- The root is a file. -/
  | rootNotDirectory

/-- The text of a fault. -/
def SeedFault.message : SeedFault → String
  | notSingle => "expected a root node or a single \"/\" entry"
  | noRootEntry => "missing \"/\" entry"
  | rootNotDirectory => "root node must be a directory"

/-- Why settings cannot be worked with. -/
inductive ConfigFault
  | relativeHome (home : String)
  | badUser (user : String)
  | noHistory

/-- The text of a fault. -/
def ConfigFault.message : ConfigFault → String
  | relativeHome home => s!"home must be an absolute path, got '{home}'"
  | badUser user => s!"invalid user name '{user}'"
  | noHistory => "history_limit must be at least 1"

/-- Why loading failed: a fault in what a document says, or a document that cannot be read as JSON
or TOML of the expected shape. -/
inductive LoadError
  | seed (fault : SeedFault)
  | config (fault : ConfigFault)
  | badJson
  | badToml

/-- The text of a failure, where the failure is one of meaning. -/
def LoadError.message? : LoadError → Option String
  | seed fault => some s!"seed error: {fault.message}"
  | config fault => some s!"config error: {fault.message}"
  | badJson => none
  | badToml => none

end VirtualShell
