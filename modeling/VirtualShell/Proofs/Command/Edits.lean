import VirtualShell.Proofs.Command.Steps
import VirtualShell.Proofs.Command.Transfer
import VirtualShell.Proofs.Registry.Standard
import VirtualShell.Proofs.Tree.Edit

/-!
# What commands do to the world

Every command changes the tree by `Edits`, and this module says which ones. The paths spared are the
current directory and those above it; the nodes inserted are empty, or they were in the tree when the
command began (`Available`). Steps that follow one another are steps again, so a command that handles
several operands is known by what it does for one of them.

`Obeys` collects what one command may do to the world, the current directory included, and
`standard_call_obeys` says that every command of a session obeys. It says nothing about what a command
achieves.
-/

namespace VirtualShell

open Filesystem (Edits Edit)

/-- The nodes that a command can put into a tree. -/
inductive Node.Available (tree : Filesystem) : Node → Prop
  | emptyDirectory : Available tree Node.emptyDirectory
  | emptyFile : Available tree Node.emptyFile
  | found {path : String} {node : Node} (h : tree.lookup path = some node) : Available tree node

/-- The paths at and above the current directory. -/
def Environment.InUse (env : Environment) (path : String) : Prop :=
  Path.isWithin env.cwd path = true

variable {spared : String → Prop} {stock : Node → Prop} {env : Environment}

namespace Command

/-! ## Making, removing and recording -/

theorem edits_runMkdir (hstock : stock Node.emptyDirectory) (args : List String) :
    Edits spared stock env.tree (runMkdir env args).1 := by
  apply related_runMkdir
  intro fs after dir name h
  exact Edits.single (.insert hstock h)

theorem edits_runTouch (hstock : stock Node.emptyFile) (args : List String) :
    Edits spared stock env.tree (runTouch env args).1 := by
  apply related_runTouch
  intro fs after dir name h
  exact Edits.single (.insert hstock h)

/-- A removal spares what is in use. -/
theorem edits_runRm (args : List String) : Edits env.InUse stock env.tree (runRm env args).1 := by
  apply related_runRm
  intro fs after path node hnormal hfree h
  exact Edits.single (.remove hnormal hfree h)

theorem edits_runChmod (args : List String) :
    Edits spared stock env.tree (runChmod env args).1 := by
  apply related_runChmod
  intro fs path content old mode h
  exact Edits.single (.record h mode)

/-! ## Copying and moving -/

/-- A planned transfer spares what is in use: a move refuses such a source, and what is replaced is a
file, whereas everything at or above the current directory is a directory. -/
theorem edits_carryOut {transfer : Transfer} {plan : Plan} (hplan : plan.Sound env transfer)
    (hnormal : Path.IsNormal env.cwd) (hcwd : env.tree.entry env.cwd = .directory)
    (hstock : stock plan.node) :
    Edits env.InUse stock env.tree (carryOut env.tree plan transfer).tree := by
  obtain ⟨taken, cleared, after, htaken, hcleared, hafter, hdone⟩ := hplan.carryOut_succeeds
  have htake : Edits env.InUse stock env.tree taken := by
    cases transfer with
    | copy =>
      obtain rfl : taken = env.tree := htaken
      exact Edits.refl
    | move =>
      have hfree : ¬ env.InUse plan.path := by
        rw [Environment.InUse, (hplan.movable rfl).2]
        exact Bool.false_ne_true
      exact Edits.single (.remove hplan.path_normal hfree htaken)
  have hclear : Edits env.InUse stock taken cleared := by
    have hentry := hplan.target_entry
    rw [Destination.Clears] at hcleared
    split at hcleared
    next hreplaces =>
      obtain ⟨old, hremove⟩ := hcleared
      refine Edits.single (.remove hplan.target_normal (fun huse => ?_) hremove)
      rw [Environment.InUse, Path.isWithin_iff_segments hnormal hplan.target_normal] at huse
      rw [if_pos hreplaces, Filesystem.entry_eq_directory_upward hcwd huse] at hentry
      obtain ⟨_, _, hfile⟩ := hentry
      cases hfile
    next =>
      rw [hcleared]
      exact Edits.refl
  rw [hdone]
  exact (htake.trans hclear).trans (Edits.single (.insert hstock hafter))

theorem edits_runTransfer (transfer : Transfer) (args : List String)
    (hnormal : Path.IsNormal env.cwd) (hcwd : env.tree.entry env.cwd = .directory) :
    Edits env.InUse (Node.Available env.tree) env.tree (runTransfer transfer env args).1 := by
  simp only [runTransfer]
  split
  next => exact Edits.refl
  next plan hplan =>
    have hsound := planTransfer_sound hplan
    have hedits := edits_carryOut hsound hnormal hcwd (Node.Available.found hsound.source)
    split <;> exact hedits

end Command

/-! ## Every command -/

/-- What a command may do to the world in which it is carried out. -/
structure Obeys (name : String) (env : Environment) (world : World) : Prop where
  /-- Nothing that is in use is removed. -/
  edits : Edits env.InUse (Node.Available env.tree) env.tree world.tree
  /-- Only one command moves the current directory. -/
  stays : name ≠ "cd" → world.cwd = env.cwd
  /-- It moves it onto a directory, in normal form. -/
  lands : world.cwd = env.cwd ∨
    Path.IsNormal world.cwd ∧ world.tree.entry world.cwd = .directory

/-- A command obeys in every world whose current directory is one. -/
def Command.Obedient (command : Command) : Prop :=
  ∀ env args, Path.IsNormal env.cwd → env.tree.entry env.cwd = .directory →
    Obeys command.name env (command.action.run env args).world

theorem obeys_toWorld (name : String) (env : Environment) : Obeys name env env.toWorld :=
  ⟨Edits.refl, fun _ => rfl, .inl rfl⟩

namespace Command

theorem obedient_of_edit {command : Command}
    {run : Environment → List String → Filesystem × Except CommandError Output}
    (h : command.action = .edit run)
    (hrun : ∀ env args, Path.IsNormal env.cwd → env.tree.entry env.cwd = .directory →
      Edits env.InUse (Node.Available env.tree) env.tree (run env args).1) :
    command.Obedient := by
  intro env args hnormal hcwd
  rw [h]
  exact ⟨hrun env args hnormal hcwd, fun _ => rfl, .inl rfl⟩

theorem obedient_cd : cd.Obedient := by
  intro env args _ _
  simp only [cd, Action.run, runCd]
  split
  next entries hresolve =>
    refine ⟨Edits.refl, fun hname => absurd rfl hname, .inr ⟨Path.isNormal_absolute _ _, ?_⟩⟩
    rw [Environment.resolve, Filesystem.resolve] at hresolve
    split at hresolve
    next => cases hresolve
    next => exact Filesystem.entry_eq_directory_iff.2 ⟨entries, hresolve⟩
  next => exact obeys_toWorld _ env

theorem obedient_exportCommand : exportCommand.Obedient := by
  intro env args _ _
  simp only [exportCommand, Action.run, runExport]
  split
  next => exact obeys_toWorld _ env
  next =>
    split
    next => exact obeys_toWorld _ env
    next => exact ⟨Edits.refl, fun _ => rfl, .inl rfl⟩

end Command

namespace Registry

open Command

theorem obedient_changing : ∀ command ∈ changing, command.Obedient := by
  rw [changing_eq]
  simp only [List.forall_mem_cons]
  refine ⟨obedient_cd, obedient_of_edit rfl fun _ args _ _ => edits_runMkdir .emptyDirectory args,
    obedient_of_edit rfl fun _ args _ _ => edits_runTouch .emptyFile args,
    obedient_of_edit rfl fun _ args _ _ => edits_runRm args,
    obedient_of_edit rfl fun _ args => edits_runTransfer .copy args,
    obedient_of_edit rfl fun _ args => edits_runTransfer .move args,
    obedient_of_edit rfl fun _ args _ _ => edits_runChmod args, obedient_exportCommand, ?_⟩
  exact List.forall_mem_nil _

/-- Every line obeys, called by its first word. -/
theorem standard_call_obeys (words : List String) (hnormal : Path.IsNormal env.cwd)
    (hcwd : env.tree.entry env.cwd = .directory) :
    Obeys (words.headD "") env (standard.call env words).world := by
  rcases standard_call_cases env words with hworld | ⟨command, hmem, args, rfl, hworld⟩
  · rw [hworld]
    exact obeys_toWorld _ env
  · rw [hworld, List.headD_cons]
    exact obedient_changing command hmem env args hnormal hcwd

end Registry

end VirtualShell
