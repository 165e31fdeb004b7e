import VirtualShell.Proofs.Command.Relocation
import VirtualShell.Proofs.Session.Run

/-!
# Lines that copy or move

What a session's tree is after a line that copies or moves successfully, told from the tree before and from
the two operands (`feed_transfer_effect`). The state of the session is arbitrary: neither the tree nor the
current directory has to be in any order for it.
-/

namespace VirtualShell.Session

open Command

/-- What a line of the standard registry comes to that asks for a transfer. -/
theorem outcome_transfer {session : Session} (hregistry : session.registry = .standard) {input : Input}
    {transfer : Transfer} {args : List String} (hwords : input.words = transfer.command.name :: args) :
    session.outcome input =
      ⟨{ session.world with tree := (runTransfer transfer (session.surroundings input) args).1 },
        (runTransfer transfer (session.surroundings input) args).2⟩ := by
  rw [outcome, hregistry, hwords]
  cases transfer <;> rfl

/-- A line that asks for a transfer succeeds if and only if the transfer can be planned. -/
theorem succeeds_transfer_iff {session : Session} (hregistry : session.registry = .standard)
    {input : Input} {transfer : Transfer} {args : List String}
    (hwords : input.words = transfer.command.name :: args) :
    session.Succeeds input ↔
      (planTransfer transfer (session.surroundings input) args).isOk = true := by
  rw [Succeeds, outcome_transfer hregistry hwords, isOk_runTransfer]

/-- A line that transfers successfully has the effect of a plan for its two operands. -/
theorem feed_transfer_effect {session : Session} (hregistry : session.registry = .standard)
    {input : Input} {transfer : Transfer} {args rest : List String} {source destination : String}
    (hwords : input.words = transfer.command.name :: args)
    (hoperands : operandsOf args = source :: destination :: rest)
    (hsuccess : session.Succeeds input) :
    let env := session.surroundings input
    ∃ plan : Plan, plan.Sound env transfer ∧
      plan.Effect transfer session.world.tree (session.feed input).1.world.tree ∧
      plan.path = env.absolute source ∧
      plan.destination.target = landing env (env.absolute source) destination := by
  intro env
  rw [succeeds_transfer_iff hregistry hwords] at hsuccess
  rw [feed_world, settle_tree, outcome_transfer hregistry hwords]
  cases hplan : planTransfer transfer env args with
  | error failure =>
    rw [hplan] at hsuccess
    cases hsuccess
  | ok plan =>
    have hsound := planTransfer_sound hplan
    obtain ⟨hpath, htarget⟩ := planTransfer_operands hoperands hplan
    refine ⟨plan, hsound, (runTransfer_of_plan hplan).2, hpath, ?_⟩
    rw [htarget, ← hpath]
    exact targetOf_eq_landing hsound.path_normal hsound.path_ne_root destination

/-- **What a successful move does to the tree.** The node that stood at the source is found at the target,
and nothing is left at the source and below it. Every entry that is neither there nor at or below the target
is as it was: absent, a directory, or a file with the same content and mode. If anything stood at the target,
it was a file, and so was the source. -/
theorem move_relocates {session : Session} (hregistry : session.registry = .standard) {input : Input}
    {args rest : List String} {source destination : String} (hwords : input.words = "mv" :: args)
    (hoperands : operandsOf args = source :: destination :: rest) (hsuccess : session.Succeeds input) :
    let env := session.surroundings input
    let s := env.absolute source
    let t := landing env s destination
    let before := session.world.tree
    let after := (session.feed input).1.world.tree
    ∃ node, before.lookup s = some node ∧ after.lookup t = some node ∧
      (∀ path, Path.segments s <+: Path.segments path → after.entry path = .absent) ∧
      (∀ path, ¬ Path.segments s <+: Path.segments path → ¬ Path.segments t <+: Path.segments path →
        after.entry path = before.entry path) ∧
      ∀ old, before.lookup t = some old → old.isDirectory = false ∧ node.isDirectory = false := by
  intro env s t before after
  obtain ⟨plan, hsound, heffect, hpath, htarget⟩ :=
    @feed_transfer_effect session hregistry input .move args rest source destination hwords hoperands
      hsuccess
  have hs : plan.path = s := hpath
  have ht : plan.destination.target = t := htarget
  rw [← hs, ← ht]
  refine ⟨plan.node, hsound.source, heffect.arrives, ?_, ?_, fun old => hsound.replaces_file⟩
  · intro path hwithin
    exact Filesystem.entry_eq_absent_iff.2 (heffect.gone rfl path hwithin)
  · intro path hsource
    exact heffect.elsewhere path fun _ => hsource

/-- A file takes the place of another one, which is named from the home directory and with a doubled
slash. -/
theorem move_relocates_over_file :
    let session : Session :=
      ⟨.standard, ⟨"/home/user", ⟨Node.teachingTree⟩, .initial .usual "/home/user"⟩, [], .usual⟩
    let input : Input := ⟨"", "mv documents/notes.txt ~//.bashrc"⟩
    let operands := ["documents/notes.txt", "~//.bashrc"]
    let before := session.world.tree
    let after := (session.feed input).1.world.tree
    session.registry = .standard ∧ input.words = "mv" :: operands ∧ operandsOf operands = operands ∧
      session.Succeeds input ∧
      after.lookup "/home/user/.bashrc" = before.lookup "/home/user/documents/notes.txt" ∧
      after.entry "/home/user/documents/notes.txt" = .absent ∧
      after.entry "/home/user/documents/readme.txt" = before.entry "/home/user/documents/readme.txt" := by
  intro session input operands before after
  have hwords : input.words = "mv" :: operands := by decide +kernel
  have hoperands : operandsOf operands = operands := by decide
  have hsuccess : session.Succeeds input :=
    (@succeeds_transfer_iff session rfl input .move operands hwords).2 (by decide +kernel)
  have hs : (session.surroundings input).absolute "documents/notes.txt" =
      "/home/user/documents/notes.txt" := by decide +kernel
  have ht : landing (session.surroundings input) "/home/user/documents/notes.txt" "~//.bashrc" =
      "/home/user/.bashrc" := by decide +kernel
  have hmoved := @move_relocates session rfl input operands [] _ _ hwords hoperands hsuccess
  dsimp only at hmoved
  rw [hs, ht] at hmoved
  obtain ⟨node, hbefore, hafter, hgone, helsewhere, -⟩ := hmoved
  refine ⟨rfl, hwords, hoperands, hsuccess, hafter.trans hbefore.symm, hgone _ List.prefix_rfl, ?_⟩
  exact helsewhere _ (by decide +kernel) (by decide +kernel)

/-- **What a successful copy does to the tree.** The node at the source is found at the target as a whole,
and still at the source. Every entry that is not at or below the target is as it was. What stood there before
is at most one file at the target itself, and then the source is a file too. A directory is never copied to
a place at or below itself. -/
theorem copy_duplicates {session : Session} (hregistry : session.registry = .standard) {input : Input}
    {args rest : List String} {source destination : String} (hwords : input.words = "cp" :: args)
    (hoperands : operandsOf args = source :: destination :: rest) (hsuccess : session.Succeeds input) :
    let env := session.surroundings input
    let s := env.absolute source
    let t := landing env s destination
    let before := session.world.tree
    let after := (session.feed input).1.world.tree
    ∃ node, before.lookup s = some node ∧ after.lookup t = some node ∧ after.lookup s = some node ∧
      (∀ path, ¬ Path.segments t <+: Path.segments path → after.entry path = before.entry path) ∧
      (∀ path old, Path.segments t <+: Path.segments path → before.lookup path = some old →
        Path.segments path = Path.segments t ∧ old.isDirectory = false ∧ node.isDirectory = false) ∧
      (node.isDirectory = true → ¬ Path.segments s <+: Path.segments t) := by
  intro env s t before after
  obtain ⟨plan, hsound, heffect, hpath, htarget⟩ :=
    @feed_transfer_effect session hregistry input .copy args rest source destination hwords hoperands
      hsuccess
  have hs : plan.path = s := hpath
  have ht : plan.destination.target = t := htarget
  rw [← hs, ← ht]
  refine ⟨plan.node, hsound.source, heffect.arrives, heffect.stays rfl, ?_, ?_,
    fun _ => hsound.not_below⟩
  · intro path hoff
    exact heffect.elsewhere path (fun hmove => nomatch hmove) hoff
  · intro path old hwithin hold
    have hsame := hsound.segments_eq_of_present hold hwithin
    rw [Filesystem.lookup_congr hsame] at hold
    exact ⟨hsame, hsound.replaces_file hold⟩

/-- A directory is copied into the directory beside it, with all that it holds. -/
theorem copy_duplicates_into_sibling :
    let session : Session :=
      ⟨.standard, ⟨"/home/user", ⟨Node.teachingTree⟩, .initial .usual "/home/user"⟩, [], .usual⟩
    let input : Input := ⟨"", "cp -r projects/ documents"⟩
    let operands := ["projects/", "documents"]
    let before := session.world.tree
    let after := (session.feed input).1.world.tree
    session.registry = .standard ∧ input.words = "cp" :: "-r" :: operands ∧
      operandsOf ("-r" :: operands) = operands ∧ session.Succeeds input ∧
      after.lookup "/home/user/documents/projects" = before.lookup "/home/user/projects" ∧
      after.lookup "/home/user/projects" = before.lookup "/home/user/projects" ∧
      after.entry "/home/user/documents/notes.txt" = before.entry "/home/user/documents/notes.txt" := by
  intro session input operands before after
  have hwords : input.words = "cp" :: "-r" :: operands := by decide +kernel
  have hoperands : operandsOf ("-r" :: operands) = operands := by decide
  have hsuccess : session.Succeeds input :=
    (@succeeds_transfer_iff session rfl input .copy _ hwords).2 (by decide +kernel)
  have hs : (session.surroundings input).absolute "projects/" = "/home/user/projects" := by
    decide +kernel
  have ht : landing (session.surroundings input) "/home/user/projects" "documents" =
      "/home/user/documents/projects" := by decide +kernel
  have hcopied :=
    @copy_duplicates session rfl input ("-r" :: operands) [] _ _ hwords hoperands hsuccess
  dsimp only at hcopied
  rw [hs, ht] at hcopied
  obtain ⟨node, hbefore, hafter, hstill, helsewhere, -⟩ := hcopied
  refine ⟨rfl, hwords, hoperands, hsuccess, hafter.trans hbefore.symm, hstill.trans hbefore.symm, ?_⟩
  exact helsewhere _ (by decide +kernel)

end VirtualShell.Session
