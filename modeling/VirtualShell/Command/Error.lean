import VirtualShell.Tree.Filesystem

/-!
# Why a command fails

A failure is a cause; `message` is the one place that puts causes into words. Where a cause has a
`context`, it is the part of the message that says who complains about what.
-/

namespace VirtualShell

/-- Why a command will not do what it is asked to do, although everything it needs is there. -/
inductive Refusal
  /-- A name that cannot be given to an entry. -/
  | badName (context : String)
  /-- Removal of `.` or `..`. -/
  | removeDots (operand : String)
  /-- Removal of the root. -/
  | removeRoot
  /-- Removal or renaming of a directory that is in use. -/
  | busy (context : String)
  /-- A copy or move onto itself. -/
  | sameFile (command source destination : String)
  /-- A copy of a directory into itself. -/
  | copyIntoItself (source destination : String)
  /-- A move of a directory into itself. -/
  | moveIntoItself (source destination : String)
  /-- A directory in the place of a directory. -/
  | replaceDirectory (command destination : String)
  /-- A file in the place of a directory. -/
  | replaceDirectoryByFile (command destination : String)
  /-- A directory in the place of a file. -/
  | replaceFileByDirectory (command source destination : String)
  /-- A kind of entry that is not searched for. -/
  | unknownKind (argument : String)
  /-- A kind of entry that is not given. -/
  | noKind
  /-- A mode without files to record it on. -/
  | noFiles (mode : String)
  /-- A text that is no mode. -/
  | badMode (mode : String)
  /-- A text that is no number of lines. -/
  | badCount (command argument : String)
  /-- A number of lines that is not given. -/
  | noCount (command : String)
  /-- A text that is no number of lines of the history. -/
  | badHistoryCount (argument : String)
  /-- Any other reason, in its own words. -/
  | other (text : String)

/-- The words for a refusal. -/
def Refusal.message : Refusal → String
  | badName context => s!"{context}: Invalid argument"
  | removeDots operand => s!"rm: refusing to remove '.' or '..' directory: skipping '{operand}'"
  | removeRoot => "rm: it is dangerous to operate recursively on '/'"
  | busy context => s!"{context}: Device or resource busy"
  | sameFile command source destination =>
    s!"{command}: '{source}' and '{destination}' are the same file"
  | copyIntoItself source destination =>
    s!"cp: cannot copy a directory, '{source}', into itself, '{destination}'"
  | moveIntoItself source destination =>
    s!"mv: cannot move '{source}' to a subdirectory of itself, '{destination}'"
  | replaceDirectory command destination =>
    s!"{command}: cannot overwrite directory '{destination}'"
  | replaceDirectoryByFile command destination =>
    s!"{command}: cannot overwrite directory '{destination}' with non-directory"
  | replaceFileByDirectory command source destination =>
    s!"{command}: cannot overwrite non-directory '{destination}' with directory '{source}'"
  | unknownKind argument => s!"find: Unknown argument to -type: {argument}"
  | noKind => "find: missing argument to `-type'"
  | noFiles mode => s!"chmod: missing operand after '{mode}'"
  | badMode mode => s!"chmod: invalid mode: '{mode}'"
  | badCount command argument => s!"{command}: invalid number of lines: '{argument}'"
  | noCount command => s!"{command}: option requires an argument -- 'n'"
  | badHistoryCount argument => s!"bash: history: {argument}: numeric argument required"
  | other text => text

/-- Why a command fails. -/
inductive CommandError
  | missing (context : String)
  | isDirectory (context : String)
  | notDirectory (context : String)
  | occupied (context : String)
  | missingOperand (command operand : String)
  | unknownCommand (name : String)
  | badIdentifier (command argument : String)
  | refused (reason : Refusal)
  | usage (text : String)
  | noManual (topic : String)

/-- The words for a failure. -/
def CommandError.message : CommandError → String
  | missing context => s!"{context}: No such file or directory"
  | isDirectory context => s!"{context}: Is a directory"
  | notDirectory context => s!"{context}: Not a directory"
  | occupied context => s!"{context}: File exists"
  | missingOperand command operand => s!"{command}: missing {operand}"
  | unknownCommand name => s!"bash: {name}: command not found"
  | badIdentifier command argument => s!"{command}: '{argument}': not a valid identifier"
  | refused reason => reason.message
  | usage text => text
  | noManual topic => s!"No manual entry for {topic}"

/-- The failure of a command whose edit of the tree is impossible. -/
def TreeError.inContext (context : String) : TreeError → CommandError
  | missing _ => .missing context
  | notDirectory _ => .notDirectory context
  | occupied _ => .occupied context
  | badName _ => .refused (.badName context)

/-- An edit in place whose failure is that of a command. -/
def Edited.inContext (context : String) (edited : Edited TreeError) : Edited CommandError :=
  ⟨edited.tree, edited.failure.map (TreeError.inContext context)⟩

end VirtualShell
