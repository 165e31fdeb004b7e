import VirtualShell.Proofs.Command.Frame
import VirtualShell.Proofs.Session.Run

/-!
# What a line leaves alone

Most lines change nothing, and those that do change only what their first word says. The world settles at
the end of a line, which moves the current directory back or not at all, so what a command leaves alone the
line leaves alone (`feed_leaves`). The main statement says it part by part in what an observer sees, for
lines that fail and for blank lines too, since it does not ask how the line ends.

Along a run without removals and transfers nothing is lost (`after_keeps_entries`).
-/

namespace VirtualShell

/-- Settling only moves the current directory back. -/
theorem Leaves.settle {name : String} {before after : World} (h : Leaves name before after) :
    Leaves name before (Session.settle before.cwd after) := by
  unfold Session.settle
  split
  next => exact h
  next => exact ⟨h.tree, fun _ => rfl, h.vars, h.entries⟩

namespace Session

/-- What a line leaves as it was. -/
theorem feed_leaves {session : Session} (hregistry : session.registry = .standard) (input : Input) :
    Leaves input.command session.world (session.feed input).1.world := by
  obtain ⟨env, henv, -, hworld, -⟩ := session.feed_eq input
  have hcall : Leaves input.command env.toWorld (Registry.standard.call env input.words).world :=
    Registry.standard_call_leaves env _
  rw [hworld, hregistry, ← henv]
  exact hcall.settle

/-- **A line changes only what its first word says.** The tree changes only under the six commands that
edit it, the current directory only under `cd`, and the variables only under `cd` and `export`. Unless the
first word is `rm`, `cp` or `mv`, every directory is still a directory, and every file is still a file with
the same content; its mode is the same too, unless the first word is `chmod`. This holds in every world and
with every history, and the registry of a session is always the standard one (`after_registry`). -/
theorem line_frame {session : Session} (hregistry : session.registry = .standard) (input : Input) :
    let before := session.world
    let next := (session.feed input).1.world
    (input.command ∉ ["mkdir", "touch", "rm", "cp", "mv", "chmod"] → next.tree = before.tree) ∧
    (input.command ≠ "cd" → next.cwd = before.cwd) ∧
    (input.command ∉ ["cd", "export"] → next.vars = before.vars) ∧
    (input.command ∉ ["rm", "cp", "mv"] → ∀ path,
      (before.tree.isDirectory path = true → next.tree.isDirectory path = true) ∧
      ∀ content mode, before.tree.lookup path = some (.file content mode) →
        ∃ mode', next.tree.lookup path = some (.file content mode') ∧
          (mode' ≠ mode → input.command = "chmod")) := by
  intro before next
  have hleaves : Leaves input.command before next := feed_leaves hregistry input
  refine ⟨hleaves.tree, hleaves.cwd, hleaves.vars, ?_⟩
  intro hcommand path
  have hsurvives := hleaves.entries hcommand path
  constructor
  · intro hdirectory
    rw [Filesystem.isDirectory_iff.1 hdirectory] at hsurvives
    exact Filesystem.isDirectory_iff.2 hsurvives.of_directory
  · intro content mode hfile
    rw [Filesystem.entry_eq_file_iff.2 hfile] at hsurvives
    obtain ⟨mode', hnext, hmode⟩ := hsurvives.of_file
    exact ⟨mode', Filesystem.entry_eq_file_iff.1 hnext, hmode⟩

/-- Touching a file that is there keeps its content and its mode. -/
theorem line_frame_touch :
    let session : Session :=
      ⟨.standard, ⟨"/home/user", ⟨Node.teachingTree⟩, .initial .usual "/home/user"⟩, [], .usual⟩
    let input : Input := ⟨"", "touch projects/game/main.py"⟩
    let path := "/home/user/projects/game/main.py"
    let content := "#!/usr/bin/env python3\nprint(\"Hello, Linux!\")"
    session.registry = .standard ∧
      session.world.tree.lookup path = some (.file content none) ∧
      (session.feed input).1.world.tree.lookup path = some (.file content none) := by
  intro session input path content
  have hfile : session.world.tree.lookup path = some (.file content none) := by decide +kernel
  have hcommand : input.command = "touch" := by decide +kernel
  obtain ⟨-, -, -, hentries⟩ := @line_frame session rfl input
  rw [hcommand] at hentries
  obtain ⟨mode', hnext, hmode⟩ := (hentries (by decide) path).2 content none hfile
  have hnone : mode' = none := by
    by_contra hne
    exact absurd (hmode hne) (by decide)
  rw [hnone] at hnext
  exact ⟨rfl, hfile, hnext⟩

/-- In a run without removals and transfers every entry survives. Modes are recorded only if a line of the
run does it. -/
theorem after_keeps_entries {session : Session} (hregistry : session.registry = .standard)
    {inputs : List Input} (h : ∀ input ∈ inputs, input.command ∉ ["rm", "cp", "mv"]) :
    session.world.tree.Keeps (∃ input ∈ inputs, input.command = "chmod")
      (session.after inputs).world.tree := by
  -- a line is taken off the front, so what comes after it starts in another session
  induction inputs generalizing session with
  | nil => exact refl_of _ session.world.tree
  | cons input rest ih =>
    obtain ⟨hfirst, hrest⟩ := List.forall_mem_cons.1 h
    have hkept : (session.feed input).1.registry = .standard :=
      (session.feed_registry input).trans hregistry
    rw [after_cons]
    apply trans_of (Filesystem.Keeps _) (b := (session.feed input).1.world.tree)
    · apply ((feed_leaves hregistry input).entries hfirst).mono
      intro hchmod
      exact ⟨input, List.mem_cons_self, hchmod⟩
    · apply (ih hkept hrest).mono
      rintro ⟨other, hother, hchmod⟩
      exact ⟨other, List.mem_cons_of_mem _ hother, hchmod⟩

end Session

end VirtualShell
