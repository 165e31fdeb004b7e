import VirtualShell.Proofs.Command.Assignment
import VirtualShell.Proofs.Session.Run

/-!
# The variables of a session

A line either makes assignments and leaves the session where it is, or moves it and tells PWD so
(`feed_assigns`). Two statements about runs follow. The names of the variables are those of the start and
those assigned since, each once and in the order of their first assignment: a variable is never lost and
never moves, and a line can only add some at the end. And PWD names the current directory as long as
nobody assigns PWD.
-/

namespace VirtualShell

/-- The names that a line assigns, in order; a line that fails assigns none. -/
def Input.assigned (input : Input) : List String :=
  (assignments input.words).map (·.1)

theorem Input.isValidName_of_mem_assigned {input : Input} {name : String} (h : name ∈ input.assigned) :
    Variables.isValidName name = true := by
  obtain ⟨⟨_, value⟩, hmem, rfl⟩ := List.mem_map.1 h
  exact isValidName_of_mem_assignments hmem

/-- A line that stays is put back at most, and one that moves is left where it moves. -/
theorem Assigns.settle {words : List String} {before after : World} (h : Assigns words before after) :
    Assigns words before (Session.settle before.cwd after) := by
  unfold Session.settle
  cases h with
  | stay hcwd hvars =>
    split
    next => exact .stay hcwd hvars
    next => exact .stay rfl hvars
  | move hnone hthere hvars =>
    rw [if_pos hthere]
    exact .move hnone hthere hvars

namespace Session

/-- What a line does to the variables and to the current directory. -/
theorem feed_assigns {session : Session} (hregistry : session.registry = .standard) (input : Input) :
    Assigns input.words session.world (session.feed input).1.world := by
  obtain ⟨env, henv, -, hworld, -⟩ := session.feed_eq input
  have hcall := Registry.standard_call_assigns env input.words
  rw [hworld, hregistry, ← henv]
  exact hcall.settle

/-- A session begins with four variables, and PWD names its directory. -/
theorem start_variables {root : Node} {config : Config} {session : Session}
    (h : start root config = .ok session) :
    session.world.vars.names = Variables.initialNames ∧
      session.world.vars.get? "PWD" = some session.world.cwd := by
  unfold start at h
  obtain ⟨checked, -, h⟩ := Result.bind_eq_ok_iff.1 h
  obtain ⟨tree, -, h⟩ := Result.bind_eq_ok_iff.1 h
  cases h
  exact ⟨Variables.names_initial _ _, Variables.get?_set_self _ _ _⟩

/-! ## Names -/

/-- A line adds the names that it assigns to those that were set before. -/
theorem feed_names {session : Session} (hregistry : session.registry = .standard) (input : Input)
    {before : List String} (hpwd : "PWD" ∈ before)
    (h : session.world.vars.names = before.eraseDups) :
    (session.feed input).1.world.vars.names = (before ++ input.assigned).eraseDups := by
  cases feed_assigns hregistry input with
  | stay _ hvars =>
    rw [hvars, Variables.names_setAll h]
    rfl
  | move hnone _ hvars =>
    rw [hvars, Variables.names_set h, Variables.eraseDups_concat, if_pos hpwd, Input.assigned, hnone,
      List.map_nil, List.append_nil]

/-- The names of the variables after a run: those of the start and those assigned along the run. -/
theorem after_names {session : Session} (hregistry : session.registry = .standard)
    (h : session.world.vars.names = Variables.initialNames) (inputs : List Input) :
    (session.after inputs).world.vars.names =
      (Variables.initialNames ++ inputs.flatMap Input.assigned).eraseDups := by
  induction inputs using List.reverseRecOn with
  | nil =>
    rw [after_nil, h]
    rfl
  | append_singleton inputs input ih =>
    have hreached := (after_registry session inputs).1.trans hregistry
    have hpwd : "PWD" ∈ Variables.initialNames ++ inputs.flatMap Input.assigned :=
      List.mem_append_left _ (by decide)
    rw [after_concat, feed_names hreached input hpwd ih, List.flatMap_append, List.append_assoc,
      List.flatMap_singleton]

/-- **Variables are never lost, never moved and only added at the end.** A session starts on every directory,
with all settings that have no fault. After every run, the names of its variables are the four of the start
and those that lines have assigned successfully, each once and in the order of their first assignment. So
they are distinct, the first four are HOME, USER, PATH and PWD, all of them are valid, and the names before
a line are the beginning of those after it. -/
theorem variable_names_append {root : Node} {config : Config} (hroot : root.isDirectory = true)
    (hconfig : config.validate = .ok config) :
    ∃ session, start root config = .ok session ∧
      ∀ inputs : List Input,
        let names := (session.after inputs).world.vars.names
        names = (["HOME", "USER", "PATH", "PWD"] ++ inputs.flatMap Input.assigned).eraseDups ∧
        names.Nodup ∧
        ["HOME", "USER", "PATH", "PWD"] <+: names ∧
        (∀ name ∈ names, Variables.isValidName name = true) ∧
        ∀ input : Input, names <+: ((session.after inputs).feed input).1.world.vars.names := by
  obtain ⟨session, hstart, hregistry, -⟩ := start_eq hroot hconfig
  obtain ⟨hinitial, -⟩ := start_variables hstart
  have hnames := after_names hregistry hinitial
  refine ⟨session, hstart, fun inputs => ⟨hnames inputs, ?_, ?_, ?_, fun input => ?_⟩⟩
  · rw [hnames]
    exact Variables.nodup_eraseDups _
  · rw [hnames]
    exact Variables.eraseDups_prefix Variables.initialNames _
  · intro name hname
    rw [hnames, List.mem_eraseDups] at hname
    rcases List.mem_append.1 hname with hfirst | hlater
    · exact List.all_eq_true.1 Variables.all_isValidName_initialNames name hfirst
    · obtain ⟨input, -, hassigned⟩ := List.mem_flatMap.1 hlater
      exact input.isValidName_of_mem_assigned hassigned
  · rw [← after_concat, hnames, hnames, List.flatMap_append, ← List.append_assoc]
    exact Variables.eraseDups_prefix _ _

/-- One line assigns two names, and one of them again. -/
theorem variable_names_append_twice :
    Node.teachingTree.isDirectory = true ∧ Config.usual.validate = .ok Config.usual ∧
      ∃ session, start Node.teachingTree Config.usual = .ok session ∧
        (session.after [⟨"", "export B=1 A=2 B=3"⟩]).world.vars.names =
          ["HOME", "USER", "PATH", "PWD", "B", "A"] := by
  obtain ⟨session, hstart, hruns⟩ := @variable_names_append Node.teachingTree Config.usual rfl rfl
  refine ⟨rfl, rfl, session, hstart, ?_⟩
  rw [(hruns _).1]
  decide +kernel

/-! ## The working directory -/

/-- As long as nobody assigns PWD, it names the current directory. -/
theorem feed_pwd {session : Session} (hregistry : session.registry = .standard) {input : Input}
    (hfree : "PWD" ∉ input.assigned)
    (h : session.world.vars.get? "PWD" = some session.world.cwd) :
    (session.feed input).1.world.vars.get? "PWD" = some (session.feed input).1.world.cwd := by
  cases feed_assigns hregistry input with
  | stay hcwd hvars =>
    rw [hvars, hcwd, Variables.get?_setAll_of_not_mem _ hfree]
    exact h
  | move _ _ hvars => rw [hvars, Variables.get?_set_self]

/-- **PWD names the current directory.** A session starts on every directory, with all settings that have no
fault. After the start and after every line of a run in which no line assigns PWD successfully, the variable
PWD has the current directory as its value, whatever else the lines do and however they fail. -/
theorem pwd_eq_current_directory {root : Node} {config : Config} (hroot : root.isDirectory = true)
    (hconfig : config.validate = .ok config) :
    ∃ session, start root config = .ok session ∧
      ∀ inputs : List Input, (∀ input ∈ inputs, "PWD" ∉ input.assigned) →
        (session.after inputs).world.vars.get? "PWD" = some (session.after inputs).world.cwd := by
  obtain ⟨session, hstart, hregistry, -⟩ := start_eq hroot hconfig
  obtain ⟨-, hpwd⟩ := start_variables hstart
  refine ⟨session, hstart, fun inputs hfree => ?_⟩
  induction inputs using List.reverseRecOn with
  | nil => exact hpwd
  | append_singleton inputs input ih =>
    obtain ⟨hbefore, hlast⟩ := List.forall_mem_append.1 hfree
    have hreached := (after_registry session inputs).1.trans hregistry
    rw [after_concat]
    exact feed_pwd hreached (hlast input (List.mem_singleton_self input)) (ih hbefore)

/-- A run that moves up, assigns another variable and a value to PWD that is not well formed, fails to move,
and moves home. -/
theorem pwd_eq_current_directory_home :
    let inputs : List Input := [⟨"", "cd .."⟩, ⟨"", "export HOME=/tmp"⟩, ⟨"", "export PWD=/ 1=2"⟩,
      ⟨"", "cd nowhere"⟩, ⟨"", "cd ~"⟩]
    Node.teachingTree.isDirectory = true ∧ Config.usual.validate = .ok Config.usual ∧
      (∀ input ∈ inputs, "PWD" ∉ input.assigned) ∧
      ∃ session, start Node.teachingTree Config.usual = .ok session ∧
        (session.after inputs).world.vars.get? "PWD" = some (session.after inputs).world.cwd := by
  intro inputs
  obtain ⟨session, hstart, hruns⟩ :=
    @pwd_eq_current_directory Node.teachingTree Config.usual rfl rfl
  have hfree : ∀ input ∈ inputs, "PWD" ∉ input.assigned := by decide
  exact ⟨rfl, rfl, hfree, session, hstart, hruns inputs hfree⟩

end Session

end VirtualShell
