import VirtualShell.Registry.Standard

/-!
# What a line calls

The first word of a line picks a standard command, and most of those are queries, which change nothing.
`standard_call_cases` reads a line off its outcome: the world is the one before, or one of the few commands
that are no queries has been carried out under its own name. A statement about what lines do to the world
is therefore proved for those commands, and for nothing being done.
-/

namespace VirtualShell

/-- Whether an action is one that changes nothing. -/
def Action.isQuery : Action → Bool
  | query _ => true
  | edit _ => false
  | update _ => false

theorem Action.run_of_isQuery {action : Action} (h : action.isQuery = true) (env : Environment)
    (args : List String) : (action.run env args).world = env.toWorld := by
  cases action with
  | query run => rfl
  | edit run => cases h
  | update run => cases h

namespace Registry

/-- The standard commands that are no queries. -/
def changing : List Command :=
  standardCommands.filter fun command => !command.action.isQuery

theorem changing_eq :
    changing = [Command.cd, Command.mkdir, Command.touch, Command.rm, Command.cp, Command.mv,
      Command.chmod, Command.exportCommand] := rfl

/-! ## What is registered -/

theorem mem_of_mem_replaceOrAppend {added command : Command} {commands : List Command}
    (h : command ∈ replaceOrAppend added commands) : command = added ∨ command ∈ commands := by
  induction commands with
  | nil => exact .inl (List.mem_singleton.1 h)
  | cons other rest ih =>
    rw [replaceOrAppend] at h
    split at h
    next =>
      rcases List.mem_cons.1 h with rfl | hrest
      · exact .inl rfl
      · exact .inr (List.mem_cons_of_mem _ hrest)
    next =>
      rcases List.mem_cons.1 h with rfl | hrest
      · exact .inr List.mem_cons_self
      · rcases ih hrest with hadded | hold
        · exact .inl hadded
        · exact .inr (List.mem_cons_of_mem _ hold)

/-- A registry to which commands are added holds no others than before and these. -/
theorem mem_commands_registerAll {registry : Registry} {commands : List Command} {command : Command}
    (h : command ∈ (registry.registerAll commands).commands) :
    command ∈ registry.commands ∨ command ∈ commands := by
  induction commands generalizing registry with
  | nil => exact .inl h
  | cons added rest ih =>
    rcases ih h with hold | hrest
    · rcases mem_of_mem_replaceOrAppend hold with rfl | hold
      · exact .inr List.mem_cons_self
      · exact .inl hold
    · exact .inr (List.mem_cons_of_mem _ hrest)

/-- What a session calls by a name is one of the standard commands and has that name. -/
theorem standard_find? {name : String} {command : Command}
    (h : standard.find? name = some command) :
    command ∈ standardCommands ∧ command.name = name := by
  refine ⟨?_, by simpa using List.find?_some h⟩
  rcases mem_commands_registerAll (List.mem_of_find?_eq_some h) with hempty | hmem
  · cases hempty
  · exact hmem

/-! ## What is called -/

/-- A line changes nothing, or its first word is the name of a command that does and its other words are
the arguments. -/
theorem standard_call_cases (env : Environment) (words : List String) :
    (standard.call env words).world = env.toWorld ∨
      ∃ command ∈ changing, ∃ args, words = command.name :: args ∧
        (standard.call env words).world = (command.action.run env args).world := by
  rw [call.eq_def]
  split
  -- a blank line, and the three names that the registry answers itself
  next => exact .inl rfl
  next => exact .inl rfl
  next => exact .inl rfl
  next => exact .inl rfl
  next name args _ _ _ =>
    split
    next command hfind =>
      obtain ⟨hmem, hname⟩ := standard_find? hfind
      cases hquery : command.action.isQuery with
      | true => exact .inl (Action.run_of_isQuery hquery env args)
      | false =>
        have hchanging : command ∈ changing := by
          rw [changing, List.mem_filter, hquery]
          exact ⟨hmem, rfl⟩
        exact .inr ⟨command, hchanging, args, by rw [hname], rfl⟩
    next => exact .inl rfl

end Registry

end VirtualShell
