import VirtualShell.Command.Transfer
import VirtualShell.Proofs.Result
import VirtualShell.Proofs.Tree.Edit
import VirtualShell.Tree.Teaching

/-!
# Copying and moving, planned and carried out

A transfer first plans and then changes the tree step by step, and no step undoes an earlier one. So
everything rests on the plan. `Plan.Sound` collects what a plan promises about the tree that it was made
for, and `planTransfer_sound` says that every plan keeps its promise. The promise that matters most is
`Plan.Sound.not_below`: neither the target nor its parent lies at or below the source, so that taking the
source out changes neither of them.
-/

namespace VirtualShell.Command

open Filesystem (Edits Edit)

/-- What a plan promises about the tree that it was made for. -/
structure Plan.Sound (plan : Plan) (env : Environment) (transfer : Transfer) : Prop where
  path_normal : Path.IsNormal plan.path
  source : env.tree.lookup plan.path = some plan.node
  movable : transfer = .move →
    plan.path ≠ Path.root ∧ Path.isWithin env.cwd plan.path = false
  target_normal : Path.IsNormal plan.destination.target
  split : Path.splitParent plan.destination.target =
    some (plan.destination.parent, plan.destination.name)
  name_not_dots : Path.isDots plan.destination.name = false
  parent : env.tree.entry plan.destination.parent = .directory
  distinct : plan.destination.target ≠ plan.path
  outside : plan.node.isDirectory = true →
    Path.isWithin plan.destination.target plan.path = false
  replaced : plan.destination.replaces = true →
    plan.node.isDirectory = false ∧
      ∃ content mode, env.tree.lookup plan.destination.target = some (.file content mode)
  free : plan.destination.replaces = false → env.tree.lookup plan.destination.target = none

/-! ## Planning -/

private theorem checkParent_ok {tree : Filesystem} {context parent : String}
    (h : checkParent tree context parent = .ok ()) : tree.entry parent = .directory := by
  rw [Filesystem.entry_eq_directory_iff]
  rw [checkParent] at h
  split at h
  next => cases h
  next => cases h
  next entries hlookup => exact ⟨entries, hlookup⟩

private theorem checkTarget_ok {tree : Filesystem} {transfer : Transfer}
    {source destination target : String} {isDirectory replaces : Bool}
    (h : checkTarget tree transfer source destination target isDirectory = .ok replaces) :
    if replaces then isDirectory = false ∧
      ∃ content mode, tree.lookup target = some (.file content mode)
    else tree.lookup target = none := by
  cases hlookup : tree.lookup target with
  | none =>
    rw [checkTarget.eq_def, hlookup] at h
    cases h
    rfl
  | some node =>
    cases node with
    | directory entries =>
      rw [checkTarget.eq_def, hlookup] at h
      cases isDirectory <;> cases h
    | file content mode =>
      rw [checkTarget.eq_def, hlookup] at h
      cases isDirectory with
      | true => cases h
      | false =>
        cases h
        exact ⟨rfl, content, mode, rfl⟩

/-- What a planned destination promises. -/
private theorem planDestination_ok {env : Environment} {transfer : Transfer}
    {source destination path : String} {isDirectory : Bool} {planned : Destination}
    (h : planDestination env transfer source destination path isDirectory = .ok planned) :
    planned.target = targetOf env path destination ∧ planned.target ≠ path ∧
      (isDirectory = true → Path.isWithin planned.target path = false) ∧
      Path.splitParent planned.target = some (planned.parent, planned.name) ∧
      Path.isDots planned.name = false ∧ env.tree.entry planned.parent = .directory ∧
      if planned.replaces then isDirectory = false ∧
        ∃ content mode, env.tree.lookup planned.target = some (.file content mode)
      else env.tree.lookup planned.target = none := by
  simp only [planDestination] at h
  split at h
  next => cases h
  next hdistinct =>
    split at h
    next => cases h
    next houtside =>
      split at h
      next => cases h
      next parent name hsplit =>
        split at h
        next => cases h
        next hdots =>
          obtain ⟨_, hparent, h⟩ := Result.bind_eq_ok_iff.1 h
          obtain ⟨replaces, htarget, h⟩ := Result.bind_eq_ok_iff.1 h
          cases h
          dsimp only
          refine ⟨rfl, hdistinct, fun hdirectory => ?_, hsplit, by simpa using hdots,
            checkParent_ok hparent, checkTarget_ok htarget⟩
          rw [hdirectory, Bool.true_and, Bool.not_eq_true] at houtside
          exact houtside

/-- The target of a node that can be moved is a normal path. The root has no name that could be joined
onto a directory, but nothing leads from the root to a directory that does not lie within it. -/
private theorem isNormal_targetOf {env : Environment} {destination path : String} {node : Node}
    (hpath : Path.IsNormal path) (hsource : env.tree.lookup path = some node)
    (houtside : node.isDirectory = true → Path.isWithin (targetOf env path destination) path = false) :
    Path.IsNormal (targetOf env path destination) := by
  have hnormal : Path.IsNormal (env.absolute destination) := Path.isNormal_absolute _ _
  cases hdirectory : env.tree.isDirectory (env.absolute destination) with
  | false =>
    rw [targetOf, if_neg (by simp [hdirectory])]
    exact hnormal
  | true =>
    have hentry := Filesystem.isDirectory_iff.1 hdirectory
    by_cases hroot : path = Path.root
    · rw [hroot] at hsource houtside
      obtain rfl : env.tree.root = node := Option.some.inj hsource
      have hwithin := houtside (Filesystem.root_isDirectory hentry)
      rw [Path.isWithin, beq_self_eq_true, Bool.true_or, Bool.true_or] at hwithin
      cases hwithin
    · obtain ⟨dir, name, hsplit⟩ := hpath.exists_splitParent hroot
      rw [targetOf, if_pos hdirectory, Path.fileName, hsplit]
      exact (hnormal.join (hpath.of_splitParent hsplit).2.1).1

private theorem checkSource_ok {env : Environment} {source path : String} {transfer : Transfer}
    (h : checkSource env source path transfer = .ok ()) (hmove : transfer = .move) :
    path ≠ Path.root ∧ Path.isWithin env.cwd path = false := by
  subst hmove
  rw [checkSource] at h
  split at h
  next => cases h
  next hfree => simpa using hfree

/-- Every plan keeps what it promises. -/
theorem planTransfer_sound {env : Environment} {transfer : Transfer} {args : List String}
    {plan : Plan} (h : planTransfer transfer env args = .ok plan) : plan.Sound env transfer := by
  obtain ⟨⟨source, destination⟩, -, h⟩ := Result.bind_eq_ok_iff.1 h
  cases hsource : env.tree.lookup (env.absolute source) with
  | none =>
    simp only [hsource] at h
    cases h
  | some node =>
    simp only [hsource] at h
    obtain ⟨_, hmovable, h⟩ := Result.bind_eq_ok_iff.1 h
    obtain ⟨planned, hplanned, h⟩ := Result.bind_eq_ok_iff.1 h
    cases h
    have hnormal : Path.IsNormal (env.absolute source) := Path.isNormal_absolute _ _
    obtain ⟨htarget, hdistinct, houtside, hsplit, hdots, hparent, hreplaces⟩ :=
      planDestination_ok hplanned
    refine {
      path_normal := hnormal
      source := hsource
      movable := checkSource_ok hmovable
      target_normal := ?_
      split := hsplit
      name_not_dots := hdots
      parent := hparent
      distinct := hdistinct
      outside := houtside
      replaced := fun hreplaced => ?_
      free := fun hfree => ?_ }
    · dsimp only
      rw [htarget] at houtside ⊢
      exact isNormal_targetOf hnormal hsource houtside
    · rwa [if_pos hreplaced] at hreplaces
    · change planned.replaces = false at hfree
      rwa [hfree, if_neg Bool.false_ne_true] at hreplaces

/-- The first two operands say what is planned: the source is the absolute form of the first one, and the
second one names the place. -/
theorem planTransfer_operands {env : Environment} {transfer : Transfer} {args rest : List String}
    {source destination : String} {plan : Plan}
    (hoperands : operandsOf args = source :: destination :: rest)
    (h : planTransfer transfer env args = .ok plan) :
    plan.path = env.absolute source ∧
      plan.destination.target = targetOf env (env.absolute source) destination := by
  obtain ⟨operands, hfirst, h⟩ := Result.bind_eq_ok_iff.1 h
  rw [sourceAndDestination, hoperands] at hfirst
  cases hfirst
  cases hsource : env.tree.lookup (env.absolute source) with
  | none =>
    simp only [hsource] at h
    cases h
  | some node =>
    simp only [hsource] at h
    obtain ⟨_, -, h⟩ := Result.bind_eq_ok_iff.1 h
    obtain ⟨planned, hplanned, h⟩ := Result.bind_eq_ok_iff.1 h
    cases h
    exact ⟨rfl, (planDestination_ok hplanned).1⟩

/-! ## Sources and targets -/

variable {env : Environment} {transfer : Transfer} {plan : Plan}

theorem Plan.Sound.target_segments (h : plan.Sound env transfer) :
    Path.segments plan.destination.target =
      Path.segments plan.destination.parent ++ [plan.destination.name] :=
  (h.target_normal.of_splitParent h.split).2.2

theorem Plan.Sound.isPlain_name (h : plan.Sound env transfer) :
    Path.isPlain plan.destination.name = true :=
  Path.isPlain_iff.2 ⟨(h.target_normal.of_splitParent h.split).2.1, h.name_not_dots⟩

/-- The target is not at or below the source. A directory that was found to lie within the source
would make the source a directory, and directories are checked for that. -/
theorem Plan.Sound.not_below (h : plan.Sound env transfer) :
    ¬ Path.segments plan.path <+: Path.segments plan.destination.target := by
  intro hprefix
  have hsegments := h.target_segments
  rw [hsegments, List.prefix_concat_iff, ← hsegments] at hprefix
  rcases hprefix with heq | hparent
  · exact h.distinct (h.target_normal.eq_of_segments_eq h.path_normal heq.symm)
  · have hdirectory := Filesystem.entry_eq_directory_upward h.parent hparent
    have hwithin := h.outside (by
      rw [Filesystem.entry, h.source] at hdirectory
      cases hnode : plan.node with
      | file content mode =>
        rw [hnode] at hdirectory
        cases hdirectory
      | directory entries => rfl)
    rw [← Bool.not_eq_true, Path.isWithin_iff_segments h.target_normal h.path_normal] at hwithin
    exact hwithin (hsegments ▸ hparent.trans (List.prefix_append _ _))

theorem Plan.Sound.parent_not_below (h : plan.Sound env transfer) :
    ¬ Path.segments plan.path <+: Path.segments plan.destination.parent := by
  intro hprefix
  apply h.not_below
  rw [h.target_segments]
  exact hprefix.trans (List.prefix_append _ _)

/-- What stands at the target is nothing or a file that will be replaced. -/
theorem Plan.Sound.target_entry (h : plan.Sound env transfer) :
    if plan.destination.replaces then
      ∃ content mode, env.tree.entry plan.destination.target = .file content mode
    else env.tree.entry plan.destination.target = .absent := by
  split
  next hreplaces =>
    obtain ⟨-, content, mode, hlookup⟩ := h.replaced hreplaces
    exact ⟨content, mode, by rw [Filesystem.entry, hlookup]; rfl⟩
  next hfree =>
    exact Filesystem.entry_eq_absent_iff.2 (h.free (by simpa using hfree))

/-- The target is not at or above the source: something leads through the source's ancestors, and
nothing leads through a target. -/
theorem Plan.Sound.not_above (h : plan.Sound env transfer) :
    ¬ Path.segments plan.destination.target <+: Path.segments plan.path := by
  rintro ⟨rest, hrest⟩
  cases rest with
  | nil =>
    rw [List.append_nil] at hrest
    exact h.distinct (h.target_normal.eq_of_segments_eq h.path_normal hrest)
  | cons name rest =>
    have hdirectory := Filesystem.entry_eq_directory_above h.source hrest.symm
    have hentry := h.target_entry
    rw [hdirectory] at hentry
    split at hentry
    next =>
      obtain ⟨_, _, hfile⟩ := hentry
      cases hfile
    next => cases hentry

/-! ## Carrying out -/

/-- The tree after the source was taken out, which only a move does. -/
def Plan.Takes (plan : Plan) (before taken : Filesystem) : Transfer → Prop
  | .copy => taken = before
  | .move => before.remove plan.path = .ok (plan.node, taken)

/-- The tree after the file that is replaced was taken out, if there is one. -/
def Destination.Clears (destination : Destination) (before cleared : Filesystem) : Prop :=
  if destination.replaces then ∃ old, before.remove destination.target = .ok (old, cleared)
  else cleared = before

/-- Taking the source out changes nothing that is not at or below it. -/
theorem Plan.Sound.takes (h : plan.Sound env transfer) :
    ∃ taken, plan.Takes env.tree taken transfer ∧
      ∀ other, ¬ Path.segments plan.path <+: Path.segments other →
        taken.entry other = env.tree.entry other := by
  cases transfer with
  | copy => exact ⟨env.tree, rfl, fun _ _ => rfl⟩
  | move =>
    obtain ⟨taken, htaken⟩ :=
      Filesystem.remove_succeeds h.path_normal (h.movable rfl).1 h.source
    exact ⟨taken, htaken, fun other hother =>
      Filesystem.entry_remove h.path_normal htaken hother⟩

/-- Whatever else was changed, a file at the planned target can be taken out, and the parent is still a
directory then. -/
theorem Plan.Sound.clears (h : plan.Sound env transfer) {tree : Filesystem}
    (hparent : tree.entry plan.destination.parent = env.tree.entry plan.destination.parent)
    (htarget : tree.entry plan.destination.target = env.tree.entry plan.destination.target) :
    ∃ cleared, plan.destination.Clears tree cleared ∧
      cleared.entry plan.destination.parent = .directory ∧
      cleared.entry plan.destination.target = .absent := by
  rw [h.parent] at hparent
  have hentry := h.target_entry
  rw [← htarget] at hentry
  simp only [Destination.Clears]
  split at hentry
  next hreplaces =>
    obtain ⟨content, mode, hentry⟩ := hentry
    cases hlookup : tree.lookup plan.destination.target with
    | none =>
      rw [Filesystem.entry_eq_absent_iff.2 hlookup] at hentry
      cases hentry
    | some old =>
      have hroot : plan.destination.target ≠ Path.root := by
        intro hroot
        have hsplit := h.split
        rw [hroot, Path.splitParent, if_pos rfl] at hsplit
        cases hsplit
      have hshort : ¬ Path.segments plan.destination.target <+:
          Path.segments plan.destination.parent := by
        intro hprefix
        have hlength := hprefix.length_le
        rw [h.target_segments, List.length_append, List.length_singleton] at hlength
        omega
      obtain ⟨cleared, hcleared⟩ := Filesystem.remove_succeeds h.target_normal hroot hlookup
      refine ⟨cleared, by rw [if_pos hreplaces]; exact ⟨old, hcleared⟩, ?_, ?_⟩
      · rw [Filesystem.entry_remove h.target_normal hcleared hshort, hparent]
      · exact Filesystem.entry_eq_absent_iff.2
          (Filesystem.lookup_remove_self h.target_normal hcleared)
  next hfree => exact ⟨tree, by rw [if_neg hfree], hparent, hentry⟩

/-- Clearing the target changes nothing that is not at or below it. -/
theorem Plan.Sound.entry_of_clears (h : plan.Sound env transfer) {tree cleared : Filesystem}
    (hcleared : plan.destination.Clears tree cleared) {other : String}
    (hother : ¬ Path.segments plan.destination.target <+: Path.segments other) :
    cleared.entry other = tree.entry other := by
  rw [Destination.Clears] at hcleared
  split at hcleared
  next =>
    obtain ⟨old, hremove⟩ := hcleared
    exact Filesystem.entry_remove h.target_normal hremove hother
  next => rw [hcleared]

/-- A place that was cleared takes the node in. -/
theorem Plan.Sound.place_succeeds (h : plan.Sound env transfer) {tree : Filesystem}
    (hparent : tree.entry plan.destination.parent = env.tree.entry plan.destination.parent)
    (htarget : tree.entry plan.destination.target = env.tree.entry plan.destination.target) :
    ∃ cleared after, plan.destination.Clears tree cleared ∧
      cleared.insert plan.destination.parent plan.destination.name plan.node = .ok after ∧
      place tree plan.destination plan.node = ⟨after, none⟩ := by
  obtain ⟨cleared, hcleared, hdirectory, habsent⟩ := h.clears hparent htarget
  obtain ⟨after, hafter⟩ :=
    Filesystem.insert_succeeds h.isPlain_name hdirectory h.target_segments habsent plan.node
  refine ⟨cleared, after, hcleared, hafter, ?_⟩
  rw [Destination.Clears] at hcleared
  split at hcleared
  next hreplaces =>
    obtain ⟨old, hremove⟩ := hcleared
    simp only [place, if_pos hreplaces, hremove, Except.map, hafter]
    rfl
  next hfree =>
    subst hcleared
    simp only [place, if_neg hfree, hafter]
    rfl

/-- No step of a planned transfer fails. -/
theorem Plan.Sound.carryOut_succeeds (h : plan.Sound env transfer) :
    ∃ taken cleared after, plan.Takes env.tree taken transfer ∧
      plan.destination.Clears taken cleared ∧
      cleared.insert plan.destination.parent plan.destination.name plan.node = .ok after ∧
      carryOut env.tree plan transfer = ⟨after, none⟩ := by
  obtain ⟨taken, htaken, hframe⟩ := h.takes
  obtain ⟨cleared, after, hcleared, hafter, hplace⟩ :=
    h.place_succeeds (hframe _ h.parent_not_below) (hframe _ h.not_below)
  refine ⟨taken, cleared, after, htaken, hcleared, hafter, ?_⟩
  cases transfer with
  | copy =>
    obtain rfl : taken = env.tree := htaken
    exact hplace
  | move =>
    have hremove : env.tree.remove plan.path = .ok (plan.node, taken) := htaken
    simp only [carryOut, hremove]
    exact hplace

/-- A plan that is carried out without a failure is all there is to the answer. -/
theorem runTransfer_of_carryOut {args : List String} {after : Filesystem}
    (hplan : planTransfer transfer env args = .ok plan)
    (hdone : carryOut env.tree plan transfer = ⟨after, none⟩) :
    runTransfer transfer env args = (after, .ok .nothing) := by
  simp only [runTransfer, hplan, hdone, Edited.inContext, Option.map_none]

/-- The command that asks for a transfer. -/
def Transfer.command : Transfer → Command
  | copy => cp
  | move => mv

theorem Transfer.run_command (transfer : Transfer) (env : Environment) (args : List String) :
    transfer.command.action.run env args =
      ⟨{ env.toWorld with tree := (runTransfer transfer env args).1 },
        (runTransfer transfer env args).2⟩ := by
  cases transfer <;> rfl

/-- **A transfer is done as a whole or not at all.** If the command fails, the tree, the current
directory and the variables are as they were. It fails only while it plans: once a plan stands, no step
fails, and the command succeeds with the tree that the steps leave and with nothing else changed. In that
tree the node is found at the target, and after a move nothing is left at the source. -/
theorem transfer_all_or_nothing (transfer : Transfer) (env : Environment) (args : List String) :
    (∀ error, (transfer.command.action.run env args).result = .error error →
      (transfer.command.action.run env args).world = env.toWorld) ∧
    ∀ plan, planTransfer transfer env args = .ok plan →
      ∃ after, carryOut env.tree plan transfer = ⟨after, none⟩ ∧
        transfer.command.action.run env args = ⟨{ env.toWorld with tree := after }, .ok .nothing⟩ ∧
        after.lookup plan.destination.target = some plan.node ∧
        (transfer = .move → after.lookup plan.path = none) := by
  constructor
  · intro error herror
    rw [Transfer.run_command] at herror ⊢
    cases hplan : planTransfer transfer env args with
    | error planError =>
      simp only [runTransfer, hplan]
    | ok plan =>
      obtain ⟨_, _, after, -, -, -, hdone⟩ := (planTransfer_sound hplan).carryOut_succeeds
      rw [runTransfer_of_carryOut hplan hdone] at herror
      cases herror
  · intro plan hplan
    have hsound := planTransfer_sound hplan
    obtain ⟨taken, cleared, after, htaken, hcleared, hafter, hdone⟩ := hsound.carryOut_succeeds
    refine ⟨after, hdone, ?_, ?_, ?_⟩
    · rw [Transfer.run_command, runTransfer_of_carryOut hplan hdone]
    · rw [Filesystem.lookup_insert hafter hsound.target_segments rfl]
      rfl
    · rintro rfl
      have hremove : env.tree.remove plan.path = .ok (plan.node, taken) := htaken
      have hgone : taken.entry plan.path = .absent :=
        Filesystem.entry_eq_absent_iff.2 (Filesystem.lookup_remove_self hsound.path_normal hremove)
      rw [← Filesystem.entry_eq_absent_iff,
        Filesystem.entry_insert hafter (hsound.target_segments ▸ hsound.not_above),
        hsound.entry_of_clears hcleared hsound.not_above, hgone]

/-- A file takes the place of another in the teaching tree: it is found there and no longer where it
was. -/
theorem transfer_all_or_nothing_teaching :
    let env : Environment :=
      { cwd := "/home/user/documents", tree := ⟨Node.teachingTree⟩, vars := .empty, history := [],
        config := .usual, clock := "" }
    ∃ plan after, planTransfer .move env ["notes.txt", "readme.txt"] = .ok plan ∧
      carryOut env.tree plan .move = ⟨after, none⟩ ∧
      mv.action.run env ["notes.txt", "readme.txt"] = ⟨{ env.toWorld with tree := after }, .ok .nothing⟩ ∧
      after.lookup plan.destination.target = some plan.node ∧ after.lookup plan.path = none := by
  intro env
  have hok : (planTransfer .move env ["notes.txt", "readme.txt"]).isOk = true := by decide +kernel
  cases hplan : planTransfer .move env ["notes.txt", "readme.txt"] with
  | error failure =>
    rw [hplan] at hok
    cases hok
  | ok plan =>
    obtain ⟨after, hdone, hrun, htarget, hsource⟩ :=
      (transfer_all_or_nothing .move env ["notes.txt", "readme.txt"]).2 plan hplan
    exact ⟨plan, after, rfl, hdone, hrun, htarget, hsource rfl⟩

end VirtualShell.Command
