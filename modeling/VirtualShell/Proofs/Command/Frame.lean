import VirtualShell.Proofs.Command.Steps
import VirtualShell.Proofs.Registry.Standard
import VirtualShell.Proofs.Tree.Edit

/-!
# What commands leave alone

A command changes little of the world, and what it may change can be read off its name. `Leaves` says so
for each part of the world: for the tree as a whole, for the current directory, for the variables, and for
the single entries of the tree. An entry `Survives` if what was there is still there; a file survives with
its content, and with its mode unless modes are recorded. Making things lets everything survive, since an
insertion goes under a free name, and so does recording a mode.
-/

namespace VirtualShell

/-- What was at a path is still there. If modes are `recorded`, that of a file may be another one. -/
inductive Entry.Survives (recorded : Prop) : Entry → Entry → Prop
  | absent (entry : Entry) : Survives recorded absent entry
  | directory : Survives recorded directory directory
  | file (content : String) (mode : Option String) :
      Survives recorded (file content mode) (file content mode)
  | recorded (h : recorded) (content : String) (mode mode' : Option String) :
      Survives recorded (file content mode) (file content mode')

namespace Entry.Survives

variable {recorded : Prop} {before after : Entry}

theorem refl (entry : Entry) : Survives recorded entry entry := by
  cases entry with
  | absent => exact .absent _
  | directory => exact .directory
  | file content mode => exact .file content mode

theorem trans {between : Entry} (h : Survives recorded before between)
    (h' : Survives recorded between after) : Survives recorded before after := by
  cases h with
  | absent => exact .absent after
  | directory => exact h'
  | file => exact h'
  | recorded hrecorded =>
    cases h' with
    | file => exact .recorded hrecorded _ _ _
    | recorded => exact .recorded hrecorded _ _ _

theorem mono {recorded' : Prop} (h : Survives recorded before after)
    (hmono : recorded → recorded') : Survives recorded' before after := by
  cases h with
  | absent => exact .absent after
  | directory => exact .directory
  | file content mode => exact .file content mode
  | recorded hrecorded content mode mode' => exact .recorded (hmono hrecorded) content mode mode'

/-- A file that survives has its content, and its mode unless modes are recorded. -/
theorem of_file {content : String} {mode : Option String}
    (h : Survives recorded (.file content mode) after) :
    ∃ mode', after = .file content mode' ∧ (mode' ≠ mode → recorded) := by
  cases h with
  | file => exact ⟨mode, rfl, fun hne => absurd rfl hne⟩
  | recorded hrecorded _ _ mode' => exact ⟨mode', rfl, fun _ => hrecorded⟩

theorem present (h : Survives recorded before after) (hbefore : before ≠ .absent) : after ≠ .absent := by
  cases h with
  | absent => exact absurd rfl hbefore
  | directory => exact hbefore
  | file => exact hbefore
  | recorded => exact Entry.noConfusion

theorem of_directory (h : Survives recorded .directory after) : after = .directory := by
  cases h
  rfl

end Entry.Survives

namespace Filesystem

variable {recorded : Prop} {fs after : Filesystem}

/-- Every entry survives. -/
def Keeps (recorded : Prop) (before after : Filesystem) : Prop :=
  ∀ path, Entry.Survives recorded (before.entry path) (after.entry path)

instance : IsPreorder Filesystem (Keeps recorded) where
  refl fs path := .refl (fs.entry path)
  trans _ _ _ h h' path := (h path).trans (h' path)

theorem Keeps.mono {recorded' : Prop} (h : Keeps recorded fs after) (hmono : recorded → recorded') :
    Keeps recorded' fs after := fun path => (h path).mono hmono

theorem keeps_insert {dir name : String} {node : Node} (h : fs.insert dir name node = .ok after) :
    Keeps recorded fs after := by
  intro path
  by_cases habsent : fs.entry path = .absent
  · rw [habsent]
    exact .absent _
  · rw [entry_insert_of_present h habsent]
    exact .refl _

theorem keeps_record (hrecorded : recorded) {path content : String} {old : Option String}
    (h : fs.lookup path = some (.file content old)) (mode : Option String) :
    Keeps recorded fs (fs.overwrite path (.file content mode)) := by
  intro other
  rw [entry_record h]
  split
  next hsame =>
    have hbefore : fs.entry other = .file content old := by
      rw [entry_eq_file_iff, lookup_congr hsame, h]
    rw [hbefore]
    exact .recorded hrecorded content old mode
  next => exact .refl _

end Filesystem

/-- What the command of a name leaves as it was. -/
structure Leaves (name : String) (before after : World) : Prop where
  tree : name ∉ ["mkdir", "touch", "rm", "cp", "mv", "chmod"] → after.tree = before.tree
  cwd : name ≠ "cd" → after.cwd = before.cwd
  vars : name ∉ ["cd", "export"] → after.vars = before.vars
  entries : name ∉ ["rm", "cp", "mv"] → before.tree.Keeps (name = "chmod") after.tree

theorem Leaves.refl (name : String) (world : World) : Leaves name world world where
  tree _ := rfl
  cwd _ := rfl
  vars _ := rfl
  entries _ := refl_of _ world.tree

namespace Command

/-- A command leaves alone, in every world, what its name says. -/
def Framed (command : Command) : Prop :=
  ∀ env args, Leaves command.name env.toWorld (command.action.run env args).world

variable {command : Command}
  {run : Environment → List String → Filesystem × Except CommandError Output}

/-- An edit changes the tree only, and either its name says that entries may go or none goes. -/
theorem framed_of_edit (h : command.action = .edit run)
    (hname : command.name ∈ ["mkdir", "touch", "rm", "cp", "mv", "chmod"])
    (hkeeps : command.name ∈ ["rm", "cp", "mv"] ∨
      ∀ (env : Environment) (args : List String),
        env.tree.Keeps (command.name = "chmod") (run env args).1) : command.Framed := by
  intro env args
  rw [h]
  refine ⟨fun hother => absurd hname hother, fun _ => rfl, fun _ => rfl, fun hother => ?_⟩
  rcases hkeeps with hgoing | hkeeps
  · exact absurd hgoing hother
  · exact hkeeps env args

theorem framed_cd : cd.Framed := by
  intro env args
  simp only [cd, Action.run, runCd]
  split
  next =>
    exact ⟨fun _ => rfl, fun hname => absurd rfl hname, fun hname => absurd (by decide) hname,
      fun _ => refl_of _ env.tree⟩
  next => exact .refl _ _

theorem framed_exportCommand : exportCommand.Framed := by
  intro env args
  simp only [exportCommand, Action.run, runExport]
  split
  next => exact .refl _ _
  next =>
    split
    next => exact .refl _ _
    next =>
      exact ⟨fun _ => rfl, fun _ => rfl, fun hname => absurd (by decide) hname,
        fun _ => refl_of _ env.tree⟩

theorem framed_mkdir : mkdir.Framed := by
  apply framed_of_edit rfl (by decide) (.inr _)
  intro env args
  apply related_runMkdir
  exact Filesystem.keeps_insert

theorem framed_touch : touch.Framed := by
  apply framed_of_edit rfl (by decide) (.inr _)
  intro env args
  apply related_runTouch
  exact Filesystem.keeps_insert

theorem framed_chmod : chmod.Framed := by
  apply framed_of_edit rfl (by decide) (.inr _)
  intro env args
  apply related_runChmod
  intro fs path content old mode h
  exact Filesystem.keeps_record rfl h mode

theorem framed_changing : ∀ command ∈ Registry.changing, command.Framed := by
  rw [Registry.changing_eq]
  simp only [List.forall_mem_cons]
  refine ⟨framed_cd, framed_mkdir, framed_touch, ?_, ?_, ?_, framed_chmod, framed_exportCommand, ?_⟩
  · show rm.Framed
    exact framed_of_edit rfl (by decide) (.inl (by decide))
  · show cp.Framed
    exact framed_of_edit rfl (by decide) (.inl (by decide))
  · show mv.Framed
    exact framed_of_edit rfl (by decide) (.inl (by decide))
  · exact List.forall_mem_nil _

end Command

/-- A line leaves alone what the command that its first word names leaves alone. -/
theorem Registry.standard_call_leaves (env : Environment) (words : List String) :
    Leaves (words.headD "") env.toWorld (standard.call env words).world := by
  rcases standard_call_cases env words with hworld | ⟨command, hmem, args, rfl, hworld⟩
  · rw [hworld]
    exact .refl _ _
  · rw [hworld]
    exact Command.framed_changing command hmem env args

end VirtualShell
