import VirtualShell.Proofs.Command.Creation
import VirtualShell.Proofs.Command.Removal
import VirtualShell.Proofs.Command.Undo
import VirtualShell.Registry.Standard

/-!
# Creations that are taken back

Where nothing stands, `mkdir`, `touch` and `cp` do the same thing: they insert a node under the last name of
the absolute form of an operand (`Creates.puts`). A removal reads the operand in another way. It looks at the
last segment as it is typed, and at the current directory. Neither is in its way after a creation
(`Puts.removable`). The current directory was there before, so it does not lie within what was created. An
operand that is typed with `.` or `..` at its end stands for a directory that was there, or for a name that
nothing can be created under.
-/

namespace VirtualShell

variable {env next : Environment} {operand : String} {after : Filesystem}

/-! ## Operands that end in dots -/

/-- Writing the home directory out leaves `.` and `..` at the end. -/
theorem Environment.getLast?_expandHome {last : String} (hlast : (Path.segments operand).getLast? = some last)
    (hdots : Path.isDots last = true) : (Path.segments (env.expandHome operand)).getLast? = some last := by
  rw [expandHome]
  split
  next htilde =>
    subst htilde
    obtain rfl : "~" = last := Option.some.inj hlast
    cases hdots
  next =>
    split
    next rest hrest =>
      have htext : operand = "~" ++ "/" ++ rest := Text.dropStart?_eq_some_iff.1 hrest
      rw [htext, Path.segments_append_slash, List.getLast?_append] at hlast
      rw [Path.segments_append_slash, List.getLast?_append]
      cases hsegments : (Path.segments rest).getLast? with
      | none =>
        rw [hsegments] at hlast
        obtain rfl : "~" = last := Option.some.inj hlast
        cases hdots
      | some segment =>
        rw [hsegments] at hlast
        exact hlast
    next => exact hlast

/-- An operand that is typed with `.` or `..` at its end leads to the current directory or to one above it, or
its absolute form ends in the same way. -/
theorem Environment.absolute_of_dots {last : String} (hlast : (Path.segments operand).getLast? = some last)
    (hdots : Path.isDots last = true) :
    Path.segments (env.absolute operand) <+: Path.segments env.cwd ∨
      (Path.segments (env.absolute operand)).getLast? = some last := by
  have hhome : (Path.segments (env.expandHome operand)).getLast? = some last :=
    env.getLast?_expandHome hlast hdots
  cases halone : Path.isDots (env.expandHome operand) with
  | true => exact .inl (Path.segments_absolute_of_isDots halone env.cwd)
  | false => exact .inr (Path.getLast?_segments_absolute halone hhome env.cwd)

/-! ## Creations -/

/-- What is left of a tree when a node was inserted under the name that an operand ends in. -/
def Environment.Puts (env : Environment) (operand : String) (after : Filesystem) : Prop :=
  ∃ dir name node, Path.splitParent (env.absolute operand) = some (dir, name) ∧
    env.tree.insert dir name node = .ok after

namespace Command

/-- Words that create a directory, an empty file or a copy at an operand. -/
inductive Creates (words : List String) (operand : String) : Prop
  | mkdir {args : List String} (hwords : words = "mkdir" :: args) (hoperands : operandsOf args = [operand])
      (hflags : 'p' ∉ flagsOf args)
  | touch {args : List String} (hwords : words = "touch" :: args) (hoperands : operandsOf args = [operand])
  | copy {args rest : List String} {source : String} (hwords : words = "cp" :: args)
      (hoperands : operandsOf args = source :: operand :: rest)

theorem puts_mkdirOne (h : (mkdirOne false env operand).failure = none) :
    env.Puts operand (mkdirOne false env operand).tree := by
  obtain ⟨after, hafter⟩ := Edited.failure_ofExcept_eq_none_iff.1 (Option.map_eq_none_iff.1 h)
  have htree : (mkdirOne false env operand).tree = after := by
    simp only [mkdirOne, hafter]
    rfl
  rw [htree]
  rw [Filesystem.makeDirectory] at hafter
  split at hafter
  next dir name hsplit => exact ⟨dir, name, _, hsplit, hafter⟩
  next => cases hafter

theorem puts_touchOne (hfree : env.tree.lookup (env.absolute operand) = none)
    (h : (singly touchOne env operand).failure = none) :
    env.Puts operand (singly touchOne env operand).tree := by
  obtain ⟨after, hafter⟩ := Edited.failure_ofExcept_eq_none_iff.1 h
  have hunused : ¬ env.tree.has (env.absolute operand) = true := by
    rw [Filesystem.has, hfree]
    exact Bool.false_ne_true
  have hroot : env.absolute operand ≠ Path.root := by
    intro hroot
    rw [hroot] at hfree
    cases hfree
  obtain ⟨dir, name, hsplit⟩ := (env.isNormal_absolute operand).exists_splitParent hroot
  rw [singly, hafter]
  rw [touchOne, Result.mapError_eq_ok_iff, Filesystem.touch, if_neg hunused, hsplit] at hafter
  exact ⟨dir, name, _, hsplit, hafter⟩

theorem puts_runTransfer {args rest : List String} {source : String}
    (hoperands : operandsOf args = source :: operand :: rest)
    (hfree : env.tree.lookup (env.absolute operand) = none)
    (hok : (runTransfer .copy env args).2.isOk = true) :
    env.Puts operand (runTransfer .copy env args).1 := by
  cases hplan : planTransfer .copy env args with
  | error failure =>
    rw [isOk_runTransfer, hplan] at hok
    cases hok
  | ok plan =>
    have hsound := planTransfer_sound hplan
    obtain ⟨-, htarget⟩ := planTransfer_operands hoperands hplan
    rw [targetOf_eq_absolute hfree] at htarget
    have hunused : plan.destination.replaces = false := by
      apply hsound.replaces_eq_false
      rw [htarget, hfree]
    obtain ⟨taken, cleared, after, htaken, hcleared, hafter, hdone⟩ := hsound.carryOut_succeeds
    obtain rfl : taken = env.tree := htaken
    obtain rfl : cleared = env.tree := by rwa [Destination.Clears, if_neg (by simp [hunused])] at hcleared
    rw [runTransfer_of_carryOut hplan hdone]
    exact ⟨_, _, _, htarget ▸ hsound.split, hafter⟩

/-- Where nothing stands, a creation that succeeds inserts a node and does nothing else. -/
theorem Creates.puts {words : List String} (h : Creates words operand)
    (hfree : env.tree.lookup (env.absolute operand) = none)
    (hok : (Registry.standard.call env words).result.isOk = true) :
    ∃ after, env.Puts operand after ∧
      (Registry.standard.call env words).world = { env.toWorld with tree := after } := by
  cases h with
  | @mkdir args hwords hoperands hflags =>
    subst hwords
    have hparents : (flagsOf args).contains 'p' = false := by simpa using hflags
    have hrun := runMkdir_single env hoperands
    rw [hparents] at hrun
    exact ⟨_, holds_of_single hrun puts_mkdirOne hok, rfl⟩
  | touch hwords hoperands =>
    subst hwords
    exact ⟨_, holds_of_single (runTouch_single env hoperands) (puts_touchOne hfree) hok, rfl⟩
  | copy hwords hoperands =>
    subst hwords
    exact ⟨_, puts_runTransfer hoperands hfree hok, rfl⟩

end Command

/-! ## Removals -/

namespace Environment.Puts

/-- Nothing stood where something was put. -/
theorem absent (h : env.Puts operand after) : env.tree.entry (env.absolute operand) = .absent := by
  obtain ⟨dir, name, node, hsplit, hinsert⟩ := h
  obtain ⟨-, -, hsegments⟩ := (env.isNormal_absolute operand).of_splitParent hsplit
  obtain ⟨hplain, entries, hdir, hfree, -⟩ := Filesystem.insert_eq_ok_iff.1 hinsert
  have hname := Path.isDots_of_isPlain hplain
  rw [Filesystem.entry_eq_absent_iff, Filesystem.lookup_concat hsegments hdir hname, hfree]

theorem present (h : env.Puts operand after) : after.entry (env.absolute operand) ≠ .absent := by
  obtain ⟨dir, name, node, hsplit, hinsert⟩ := h
  obtain ⟨-, -, hsegments⟩ := (env.isNormal_absolute operand).of_splitParent hsplit
  rw [ne_eq, Filesystem.entry_eq_absent_iff, Filesystem.lookup_insert hinsert hsegments rfl]
  exact Option.some_ne_none node

theorem ne_root (h : env.Puts operand after) : env.absolute operand ≠ Path.root := by
  obtain ⟨dir, name, node, hsplit, -⟩ := h
  intro hroot
  rw [hroot] at hsplit
  cases hsplit

/-- Neither the current directory nor one above it was put there. -/
theorem not_above (h : env.Puts operand after) (hcwd : env.tree.entry env.cwd = .directory) :
    ¬ Path.segments (env.absolute operand) <+: Path.segments env.cwd := by
  intro habove
  have hdirectory := Filesystem.entry_eq_directory_upward hcwd habove
  rw [h.absent] at hdirectory
  cases hdirectory

/-- The absolute form of the operand ends in a plain name. -/
theorem not_dots (h : env.Puts operand after) (hcwd : env.tree.entry env.cwd = .directory) :
    (Path.segments operand).getLast?.any Path.isDots = false := by
  cases hlast : (Path.segments operand).getLast? with
  | none => rfl
  | some last =>
    rw [Option.any_some, ← Bool.not_eq_true]
    intro hdots
    rcases env.absolute_of_dots hlast hdots with habove | hend
    · exact h.not_above hcwd habove
    · obtain ⟨dir, name, node, hsplit, hinsert⟩ := h
      obtain ⟨-, -, hsegments⟩ := (env.isNormal_absolute operand).of_splitParent hsplit
      rw [hsegments, List.getLast?_concat] at hend
      obtain rfl : name = last := Option.some.inj hend
      rw [Path.isDots_of_isPlain (Filesystem.insert_eq_ok_iff.1 hinsert).1] at hdots
      cases hdots

/-- Read in the same directory and with the same home, an operand at which something was put is removable. -/
theorem removable (h : env.Puts operand next.tree) (hcwd : env.tree.entry env.cwd = .directory)
    (hsame : next.cwd = env.cwd) (hconfig : next.config = env.config) {flags : List Char}
    (hflags : 'r' ∈ flags ∨ 'R' ∈ flags) : Command.Removable next flags operand := by
  have habsolute := Environment.absolute_congr hsame hconfig operand
  refine ⟨?_, fun _ => hflags, ?_, ?_, h.not_dots hcwd⟩
  · rw [habsolute]
    exact h.present
  · rw [habsolute]
    exact h.ne_root
  · rw [habsolute, hsame, ← Bool.not_eq_true]
    intro hwithin
    exact h.not_above hcwd (Path.segments_prefix_of_isWithin hwithin)

/-- Without what was put there the tree is the one before. -/
theorem without_eq (h : env.Puts operand after) : after.without (env.absolute operand) = env.tree := by
  have hnormal := env.isNormal_absolute operand
  obtain ⟨dir, name, node, hsplit, hinsert⟩ := h
  obtain ⟨-, -, hsegments⟩ := hnormal.of_splitParent hsplit
  have hremove := Filesystem.remove_of_insert hinsert hsplit
  rw [Filesystem.remove_eq_without hnormal (ne_root ⟨dir, name, node, hsplit, hinsert⟩)
    (Filesystem.lookup_insert hinsert hsegments rfl)] at hremove
  exact (Prod.mk.inj (Except.ok.inj hremove)).2

/-- **A removal takes back what was put at its operand.** It does not fail, and the tree is the one before. -/
theorem runRm_eq (h : env.Puts operand next.tree) (hcwd : env.tree.entry env.cwd = .directory)
    (hsame : next.cwd = env.cwd) (hconfig : next.config = env.config) {args : List String}
    (hoperands : operandsOf args = [operand]) (hflags : 'r' ∈ flagsOf args ∨ 'R' ∈ flagsOf args) :
    Command.runRm next args = (env.tree, .ok .nothing) := by
  have hrun : Command.runRm next args =
      editAll (singly (Command.removeOne (.ofFlags (flagsOf args)))) next [operand] := by
    rw [Command.runRm, hoperands]
    rfl
  have hremoved := Command.removeOne_of_removable (h.removable hcwd hsame hconfig hflags)
  rw [Environment.absolute_congr hsame hconfig, h.without_eq] at hremoved
  rw [hrun, editAll_single, singly, hremoved]
  rfl

end Environment.Puts

end VirtualShell
