import VirtualShell.CommandLine.Options

/-!
# Arguments in turn

Arguments can be read in two parts wherever an option may stand (`readArguments_append`), and those that give
no line do not look at it (`readArguments_withCommand`). So the option that gives a line changes nothing but
the line, wherever it stands among the others (`ofArguments_insert`): arguments that fail without it fail with
it.
-/

namespace VirtualShell.CommandLine

/-! ## Single arguments -/

namespace Argument

/-- Whether an argument is an option with its value in the next one. -/
def waits : Argument → Bool
  | valued _ none => true
  | _ => false

/-- Whether an argument is the option that gives a line. -/
def isCommand : Argument → Bool
  | valued .command _ => true
  | _ => false

/-- Only two dashes end the options. -/
theorem eq_of_ofText_eq_stop {arg : String} (h : ofText arg = stop) : arg = "--" := by
  rw [ofText.eq_def] at h
  split at h <;> try cases h
  next name htext =>
    rw [longArgument.eq_def] at h
    split at h
    next => split at h <;> cases h
    next =>
      split at h <;> try cases h
      next hname =>
        rw [← String.toList_inj, String.toList_ofList] at hname
        rw [← String.toList_inj, htext, hname]
        rfl
      next => split at h <;> cases h

theorem ofText_line (line : String) :
    ofText ("--command=" ++ line) = valued .command (some line) := by
  have htext : ("--command=" ++ line).toList = '-' :: '-' :: ("command=".toList ++ line.toList) :=
    String.toList_append
  have hcut : Text.cutFirst '=' ("command=".toList ++ line.toList) =
      some ("command".toList, line.toList) := rfl
  have hname : Valued.ofName? "command" = some .command := rfl
  simp only [ofText, htext, longArgument, hcut, hname, String.ofList_toList]

end Argument

namespace Options

/-- The same options with another line to carry out, or with none. -/
def withCommand (command : Option String) (options : Options) : Options :=
  { options with command := command }

theorem turnOn_withCommand (command : Option String) (options : Options) (option : Switch) :
    (options.withCommand command).turnOn option =
      (options.turnOn option).map (withCommand command) := by
  cases option with
  | json =>
    rw [turnOn, turnOn, apply_ite (Option.map (withCommand command))]
    rfl
  | dump =>
    rw [turnOn, turnOn, apply_ite (Option.map (withCommand command))]
    rfl

theorem give_withCommand {option : Valued} (h : option ≠ .command) (command : Option String)
    (options : Options) (value : String) :
    (options.withCommand command).give value option =
      (options.give value option).map (withCommand command) := by
  cases option with
  | command => exact absurd rfl h
  | seed =>
    rw [give, give, apply_ite (Option.map (withCommand command))]
    rfl
  | config =>
    rw [give, give, apply_ite (Option.map (withCommand command))]
    rfl

end Options

/-! ## One argument and those behind it -/

theorem readArguments_switch {arg : String} {option : Switch}
    (h : Argument.ofText arg = .switch option) (options : Options) (rest : List String) :
    readArguments options (arg :: rest) =
      (options.turnOn option).elim .mistake fun options => readArguments options rest := by
  rw [readArguments.eq_def]
  simp only [h]
  cases options.turnOn option <;> rfl

theorem readArguments_valued {arg value : String} {option : Valued}
    (h : Argument.ofText arg = .valued option (some value)) (options : Options) (rest : List String) :
    readArguments options (arg :: rest) =
      (options.give value option).elim .mistake fun options => readArguments options rest := by
  rw [readArguments.eq_def]
  simp only [h]
  cases options.give value option <;> rfl

theorem readArguments_waits {arg : String} {option : Valued}
    (h : Argument.ofText arg = .valued option none) (options : Options) (value : String)
    (rest : List String) :
    readArguments options (arg :: value :: rest) =
      if isValue value then
        (options.give value option).elim .mistake fun options => readArguments options rest
      else .mistake := by
  rw [readArguments.eq_def]
  simp only [h]
  cases options.give value option <;> rfl

theorem readArguments_waits_nil {arg : String} {option : Valued}
    (h : Argument.ofText arg = .valued option none) (options : Options) :
    readArguments options [arg] = .mistake := by
  rw [readArguments.eq_def]
  simp only [h]

/-! ## Arguments in two parts -/

/-- What a request for a run leads to. Other requests stand. -/
def Request.andThen (request : Request) (next : Options → Request) : Request :=
  match request with
  | .run options => next options
  | request => request

theorem Request.andThen_assoc (request : Request) (next last : Options → Request) :
    (request.andThen next).andThen last = request.andThen fun options => (next options).andThen last := by
  cases request <;> rfl

/-- Another option may stand behind arguments: they do not end the options, and the last of them does not
wait for its value. -/
structure TakesOption (args : List String) : Prop where
  stop : "--" ∉ args
  waits : ∀ arg ∈ args.getLast?, (Argument.ofText arg).waits = false

theorem TakesOption.tail {arg : String} {args : List String} (h : TakesOption (arg :: args)) :
    TakesOption args := by
  refine ⟨fun hmem => h.stop (List.mem_cons_of_mem _ hmem), fun last hlast => h.waits last ?_⟩
  rw [List.getLast?_cons, Option.mem_def.1 hlast]
  rfl

/-- Arguments are read in two parts wherever an option may stand. -/
theorem readArguments_append : ∀ {before : List String}, TakesOption before →
    ∀ (options : Options) (after : List String),
      readArguments options (before ++ after) =
        (readArguments options before).andThen fun given => readArguments given after
  | [], _, options, after => rfl
  | arg :: rest, h, options, after => by
    cases harg : Argument.ofText arg with
    | help | version | unknown => simp only [List.cons_append, readArguments, harg, Request.andThen]
    | stop => exact absurd (Argument.eq_of_ofText_eq_stop harg ▸ List.mem_cons_self) h.stop
    | switch option =>
      rw [List.cons_append, readArguments_switch harg, readArguments_switch harg]
      cases options.turnOn option with
      | none => rfl
      | some given => exact readArguments_append h.tail given after
    | valued option value =>
      cases value with
      | some value =>
        rw [List.cons_append, readArguments_valued harg, readArguments_valued harg]
        cases options.give value option with
        | none => rfl
        | some given => exact readArguments_append h.tail given after
      | none =>
        -- the value is the next argument, so the step takes two arguments, and both are in this part
        cases rest with
        | nil =>
          have hlast := h.waits arg rfl
          rw [harg] at hlast
          cases hlast
        | cons value rest =>
          rw [List.cons_append, List.cons_append, readArguments_waits harg, readArguments_waits harg]
          split
          next =>
            cases options.give value option with
            | none => rfl
            | some given => exact readArguments_append h.tail.tail given after
          next => rfl

/-! ## The option for a line -/

/-- Arguments that give no line leave the line as it was, and do not look at it. -/
theorem readArguments_withCommand (command : Option String) : ∀ {args : List String},
    (∀ arg ∈ args, (Argument.ofText arg).isCommand = false) → ∀ options : Options,
      readArguments (options.withCommand command) args =
        (readArguments options args).andThen fun given => .run (given.withCommand command)
  | [], _, options => rfl
  | arg :: rest, h, options => by
    obtain ⟨hfirst, hrest⟩ := List.forall_mem_cons.1 h
    cases harg : Argument.ofText arg with
    | help | version | unknown => simp only [readArguments, harg, Request.andThen]
    | stop =>
      simp only [readArguments, harg]
      split <;> rfl
    | switch option =>
      rw [readArguments_switch harg, readArguments_switch harg, Options.turnOn_withCommand]
      cases options.turnOn option with
      | none => rfl
      | some given => exact readArguments_withCommand command hrest given
    | valued option value =>
      -- the one option whose reading looks at the line is the one that gives it
      have hoption : option ≠ .command := by
        rintro rfl
        rw [harg] at hfirst
        cases hfirst
      cases value with
      | some value =>
        rw [readArguments_valued harg, readArguments_valued harg, Options.give_withCommand hoption]
        cases options.give value option with
        | none => rfl
        | some given => exact readArguments_withCommand command hrest given
      | none =>
        cases rest with
        | nil =>
          rw [readArguments_waits_nil harg, readArguments_waits_nil harg]
          rfl
        | cons value rest =>
          rw [readArguments_waits harg, readArguments_waits harg, Options.give_withCommand hoption]
          split
          next =>
            cases options.give value option with
            | none => rfl
            | some given =>
              exact readArguments_withCommand command (List.forall_mem_cons.1 hrest).2 given
          next => rfl

/-- Reading with the line put back is reading as before, so it cannot have changed the line. -/
theorem command_of_readArguments {args : List String} {options given : Options}
    (h : ∀ arg ∈ args, (Argument.ofText arg).isCommand = false)
    (hread : readArguments options args = .run given) : given.command = options.command := by
  have hsame := readArguments_withCommand options.command h options
  have hoptions : options.withCommand options.command = options := rfl
  rw [hoptions, hread, Request.andThen, Request.run.injEq] at hsame
  rw [hsame]
  rfl

theorem readArguments_line {options : Options} (h : options.command = none) (line : String)
    (after : List String) :
    readArguments options (("--command=" ++ line) :: after) =
      readArguments (options.withCommand (some line)) after := by
  have hgive : options.give line .command = some (options.withCommand (some line)) := by
    rw [Options.give, h]
    rfl
  rw [readArguments_valued (Argument.ofText_line line), hgive]
  rfl

/-- The option for a line changes nothing but the line, wherever it stands. -/
theorem ofArguments_insert {before after : List String} (hbefore : TakesOption before)
    (hnone : ∀ arg ∈ before ++ after, (Argument.ofText arg).isCommand = false) (line : String) :
    Request.ofArguments (before ++ ("--command=" ++ line) :: after) =
      (Request.ofArguments (before ++ after)).andThen fun options =>
        .run (options.withCommand (some line)) := by
  obtain ⟨hnone_before, hnone_after⟩ := List.forall_mem_append.1 hnone
  rw [Request.ofArguments, Request.ofArguments, readArguments_append hbefore,
    readArguments_append hbefore, Request.andThen_assoc]
  cases hread : readArguments {} before with
  | help => rfl
  | version => rfl
  | mistake => rfl
  | run given =>
    have hgiven : given.command = none := command_of_readArguments hnone_before hread
    simp only [Request.andThen]
    rw [readArguments_line hgiven, readArguments_withCommand (some line) hnone_after]
    rfl

end VirtualShell.CommandLine
