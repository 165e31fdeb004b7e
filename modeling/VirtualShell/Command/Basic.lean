import VirtualShell.Command.Environment
import VirtualShell.Command.Error
import VirtualShell.Command.Output

/-!
# Commands

A command has a name, texts about itself, and an action. What an action may change is part of its
type: a query changes nothing, an edit changes the tree only, and an update may change the whole
world. The history and the settings are out of reach of every action.

An action may change something and fail all the same, when only some of its operands cannot be
handled.
-/

namespace VirtualShell

/-- The world after an action, and its result. -/
structure Outcome where
  world : World
  result : Except CommandError Output

/-- What a command does with its arguments. -/
inductive Action
  | query (run : Environment → List String → Except CommandError Output)
  | edit (run : Environment → List String → Filesystem × Except CommandError Output)
  | update (run : Environment → List String → Outcome)

/-- Carries an action out. -/
def Action.run (action : Action) (env : Environment) (args : List String) : Outcome :=
  match action with
  | query run => ⟨env.toWorld, run env args⟩
  | edit run =>
    let (tree, result) := run env args
    ⟨{ env.toWorld with tree := tree }, result⟩
  | update run => run env args

/-- What there is to say about a command. -/
structure Synopsis where
  name : String
  /-- One line about what it is for. -/
  description : String
  /-- How it is called. -/
  usage : String
  /-- The section of the overview that it belongs to. -/
  category : String := "general"
  /-- A longer text about what it does. -/
  manual : Option String := none
  deriving DecidableEq

/-- A command. -/
structure Command extends Synopsis where
  action : Action

/-- The result of a command that handles several operands: one failure is the failure of the
command, and several are put out as lines. -/
def report : List CommandError → Except CommandError Output
  | [] => .ok .nothing
  | [error] => .error error
  | errors => .ok (.text (Text.unlines (errors.map CommandError.message)))

/-- The edit in place of one operand that is a single step. -/
def singly (edit : Environment → String → Except CommandError Filesystem) (env : Environment)
    (operand : String) : Edited CommandError :=
  .ofExcept env.tree (edit env operand)

/-- Edits the tree for each operand in turn. An operand that fails does not keep the others from
being handled. -/
def editEach (edit : Environment → String → Edited CommandError) (env : Environment) :
    List String → Filesystem × List CommandError
  | [] => (env.tree, [])
  | operand :: rest =>
    let edited := edit env operand
    let (tree, errors) := editEach edit (env.withTree edited.tree) rest
    (tree, edited.failure.toList ++ errors)

/-- The edit that handles every operand and reports what failed. -/
def editAll (edit : Environment → String → Edited CommandError) (env : Environment)
    (operands : List String) : Filesystem × Except CommandError Output :=
  let (tree, errors) := editEach edit env operands
  (tree, report errors)

end VirtualShell
