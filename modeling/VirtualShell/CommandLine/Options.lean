import VirtualShell.Text.Search

/-!
# Arguments of the program

Options are read from left to right, and the first argument that decides something decides: a
request for help or for the version, or a mistake. An option with a value has it in the same argument or in the
next one, which must not look like an option. Each option may be given once.
-/

namespace VirtualShell.CommandLine

/-- What a run is asked to do. -/
structure Options where
  /-- The one line to carry out, instead of those of the input. -/
  command : Option String := none
  /-- The file that holds the tree to start from. -/
  seed : Option String := none
  /-- The file that holds the settings. -/
  config : Option String := none
  /-- Answers are put out as JSON. -/
  json : Bool := false
  /-- The tree is put out at the end. -/
  dump : Bool := false

/-- What the arguments ask for. -/
inductive Request
  | run (options : Options)
  | help
  | version
  | mistake

/-- The options that have a value. -/
inductive Valued
  | command
  | seed
  | config

/-- The options that have none. -/
inductive Switch
  | json
  | dump

/-- One argument by itself. -/
inductive Argument
  | valued (option : Valued) (value : Option String)
  | switch (option : Switch)
  | help
  | version
  /-- The end of the options. -/
  | stop
  | unknown

/-- The long names of the options with a value. -/
def Valued.ofName? : String → Option Valued
  | "command" => some command
  | "seed" => some seed
  | "config" => some config
  | _ => none

/-- An argument that begins with two dashes, without them. -/
def longArgument (name : List Char) : Argument :=
  match Text.cutFirst '=' name with
  | some (name, value) =>
    match Valued.ofName? (String.ofList name) with
    | some option => .valued option (some (String.ofList value))
    | none => .unknown
  | none =>
    match String.ofList name with
    | "" => .stop
    | "json" => .switch .json
    | "dump" => .switch .dump
    | "help" => .help
    | "version" => .version
    | name =>
      match Valued.ofName? name with
      | some option => .valued option none
      | none => .unknown

/-- What an argument is by itself. -/
def Argument.ofText (arg : String) : Argument :=
  match arg.toList with
  | '-' :: '-' :: name => longArgument name
  | ['-', 'c'] => .valued .command none
  | '-' :: 'c' :: '=' :: value => .valued .command (some (String.ofList value))
  | '-' :: 'c' :: value => .valued .command (some (String.ofList value))
  | '-' :: 'h' :: _ => .help
  | '-' :: 'V' :: _ => .version
  | _ => .unknown

/-- Whether an argument can be the value of the option before it. -/
def isValue (arg : String) : Bool :=
  arg = "-" || !Text.startsWith arg "-"

namespace Options

/-- Gives an option its value, once. A file must have a name. -/
def give (options : Options) (value : String) : Valued → Option Options
  | .command =>
    if options.command.isNone then some { options with command := some value } else none
  | .seed =>
    if options.seed.isNone && !value.isEmpty then some { options with seed := some value } else none
  | .config =>
    if options.config.isNone && !value.isEmpty then some { options with config := some value }
    else none

/-- Sets a switch, once. -/
def turnOn (options : Options) : Switch → Option Options
  | .json => if options.json then none else some { options with json := true }
  | .dump => if options.dump then none else some { options with dump := true }

end Options

/-- Reads the arguments that follow those that gave `options`. -/
def readArguments (options : Options) : List String → Request
  | [] => .run options
  | arg :: rest =>
    match Argument.ofText arg, rest with
    | .help, _ => .help
    | .version, _ => .version
    | .unknown, _ => .mistake
    | .stop, rest => if rest.isEmpty then .run options else .mistake
    | .switch option, rest =>
      match options.turnOn option with
      | some options => readArguments options rest
      | none => .mistake
    | .valued option (some value), rest =>
      match options.give value option with
      | some options => readArguments options rest
      | none => .mistake
    | .valued option none, value :: rest =>
      if isValue value then
        match options.give value option with
        | some options => readArguments options rest
        | none => .mistake
      else .mistake
    | .valued _ none, [] => .mistake

/-- What the arguments of the program ask for. -/
def Request.ofArguments (args : List String) : Request :=
  readArguments {} args

end VirtualShell.CommandLine
