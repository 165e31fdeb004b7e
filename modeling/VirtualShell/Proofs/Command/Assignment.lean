import VirtualShell.Proofs.Command.Expression
import VirtualShell.Proofs.Registry.Standard
import VirtualShell.Proofs.Result
import VirtualShell.Proofs.Variables

/-!
# What commands do to the variables

Two commands write variables. `export` makes all the assignments among its arguments or none of them
(`assignments`). `cd` tells PWD where it goes, and goes there only if a directory is there. Every other
command leaves the variables and the current directory as they are, so one line does one of two things
(`Assigns`): it makes assignments and stays, or it makes none and moves.
-/

namespace VirtualShell

/-- An expression that stands for a directory has the path of one as its absolute form. -/
theorem Environment.isDirectory_absolute {env : Environment} {expr : String} {node : Node}
    (h : env.resolve expr = some node) :
    env.tree.isDirectory (env.absolute expr) = node.isDirectory := by
  rw [Filesystem.isDirectory, lookup_of_resolve h]

/-- The assignments that the words of a line make: those of its arguments, if it calls `export` and every
argument is an assignment. -/
def assignments : List String → List (String × String)
  | "export" :: args => (args.mapM Command.assignment).toOption.getD []
  | _ => []

/-- Only valid names are assigned to. -/
theorem isValidName_of_mem_assignments {words : List String} {name value : String}
    (h : (name, value) ∈ assignments words) : Variables.isValidName name = true := by
  rw [assignments.eq_def] at h
  split at h
  next args =>
    cases hmade : args.mapM Command.assignment with
    | error failure =>
      rw [hmade] at h
      cases h
    | ok made =>
      rw [hmade] at h
      obtain ⟨arg, -, harg⟩ := Result.exists_mem_of_mapM hmade _ h
      rw [Command.assignment] at harg
      split at harg
      next =>
        split at harg
        next hvalid =>
          cases harg
          exact hvalid
        next => cases harg
      next => cases harg
  next => cases h

/-- What the words of a line do to the variables and to the current directory. -/
inductive Assigns (words : List String) (before after : World) : Prop
  /-- The assignments are made where the line began. -/
  | stay (hcwd : after.cwd = before.cwd) (hvars : after.vars = before.vars.setAll (assignments words))
  /-- There are no assignments, and PWD is told of a new directory. -/
  | move (hnone : assignments words = []) (hthere : after.tree.isDirectory after.cwd = true)
      (hvars : after.vars = before.vars.set "PWD" after.cwd)

theorem Assigns.nothing {words : List String} (h : assignments words = []) (world : World) :
    Assigns words world world :=
  .stay rfl (by rw [h]; rfl)

namespace Command

/-- A command other than `export` makes no assignments. -/
theorem assignments_eq_nil {name : String} (h : name ≠ "export") (args : List String) :
    assignments (name :: args) = [] := by
  rw [assignments]
  rintro args' heq
  exact h (List.cons.inj heq).1

theorem assigns_of_edit {command : Command}
    {run : Environment → List String → Filesystem × Except CommandError Output}
    (h : command.action = .edit run) (hname : command.name ≠ "export") (env : Environment)
    (args : List String) :
    Assigns (command.name :: args) env.toWorld (command.action.run env args).world := by
  rw [h]
  exact .stay rfl (by rw [assignments_eq_nil hname]; rfl)

theorem assigns_cd (env : Environment) (args : List String) :
    Assigns ("cd" :: args) env.toWorld (cd.action.run env args).world := by
  have hnone : assignments ("cd" :: args) = [] := assignments_eq_nil (by decide) args
  simp only [cd, Action.run, runCd]
  split
  next entries hresolve =>
    exact .move hnone (Environment.isDirectory_absolute hresolve) rfl
  next => exact .nothing hnone _

theorem assigns_exportCommand (env : Environment) (args : List String) :
    Assigns ("export" :: args) env.toWorld (exportCommand.action.run env args).world := by
  simp only [exportCommand, Action.run, runExport]
  split
  next hempty =>
    obtain rfl := List.isEmpty_iff.1 hempty
    exact .nothing rfl _
  next =>
    split
    next failure hfailed => exact .nothing (by rw [assignments, hfailed]; rfl) _
    next made hmade => exact .stay rfl (by rw [assignments, hmade]; rfl)

theorem assigns_changing : ∀ command ∈ Registry.changing, ∀ (env : Environment) (args : List String),
    Assigns (command.name :: args) env.toWorld (command.action.run env args).world := by
  rw [Registry.changing_eq]
  simp only [List.forall_mem_cons]
  refine ⟨assigns_cd, ?_, ?_, ?_, ?_, ?_, ?_, assigns_exportCommand, ?_⟩
  · exact @assigns_of_edit mkdir _ rfl (by decide)
  · exact @assigns_of_edit touch _ rfl (by decide)
  · exact @assigns_of_edit rm _ rfl (by decide)
  · exact @assigns_of_edit cp _ rfl (by decide)
  · exact @assigns_of_edit mv _ rfl (by decide)
  · exact @assigns_of_edit chmod _ rfl (by decide)
  · exact List.forall_mem_nil _

end Command

/-- Every line makes its assignments and stays, or makes none and moves. -/
theorem Registry.standard_call_assigns (env : Environment) (words : List String) :
    Assigns words env.toWorld (standard.call env words).world := by
  by_cases hexport : ∃ args, words = "export" :: args
  · obtain ⟨args, rfl⟩ := hexport
    exact Command.assigns_exportCommand env args
  · have hnone : assignments words = [] := by
      rw [assignments]
      exact fun args heq => hexport ⟨args, heq⟩
    rcases standard_call_cases env words with hworld | ⟨command, hmem, args, rfl, hworld⟩
    · rw [hworld]
      exact .nothing hnone _
    · rw [hworld]
      exact Command.assigns_changing command hmem env args

end VirtualShell
