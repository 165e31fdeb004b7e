import VirtualShell.Command.Status
import VirtualShell.Proofs.Session.Relocation
import VirtualShell.Proofs.Tree.Balance

/-!
# What lines add to a tree and take from it

A transfer to a free place takes the source out, if it moves it, and puts it in again somewhere else. What one step
takes away the other one adds, so that a move leaves the usage of the tree as it was, and a copy adds the usage of
what it copies (`Plan.Sound.usage_carryOut`). A line that asks for the usage shows these figures
(`Session.shows_usage`).
-/

namespace VirtualShell

/-- The table in which a usage is shown. -/
def Usage.table (usage : Usage) : Output :=
  .table ["Filesystem", "Files", "Dirs", "Used", "Mounted on"]
    [["vfs", toString usage.files, toString usage.directories, toString usage.bytes ++ "B", "/"]]

namespace Command

variable {env : Environment} {transfer : Transfer} {plan : Plan}

/-- What a transfer to a free place makes of a usage. -/
def Transfer.settles (before node : Usage) : Transfer → Usage
  | copy => before + node
  | move => before

/-- A planned transfer to a free place changes the usage by what it puts in and takes out. -/
theorem Plan.Sound.usage_carryOut (h : plan.Sound env transfer) (hfree : plan.destination.replaces = false)
    (hordered : transfer = .move → env.tree.root.Ordered) :
    (carryOut env.tree plan transfer).tree.usage = transfer.settles env.tree.usage plan.node.usage := by
  obtain ⟨taken, cleared, after, htaken, hcleared, hafter, hdone⟩ := h.carryOut_succeeds
  rw [Destination.Clears, if_neg (by simp [hfree])] at hcleared
  subst hcleared
  rw [hdone, Filesystem.usage_insert hafter]
  cases transfer with
  | copy =>
    obtain rfl : cleared = env.tree := htaken
    rfl
  | move => exact (Filesystem.usage_remove (hordered rfl) htaken).symm

/-- What a transfer leaves is what carrying out its plan leaves. -/
theorem runTransfer_tree {args : List String} (hplan : planTransfer transfer env args = .ok plan) :
    (runTransfer transfer env args).1 = (carryOut env.tree plan transfer).tree := by
  simp only [runTransfer, hplan]
  split <;> rfl

end Command

namespace Session

open Command

/-- Every line that asks for the usage is answered with these figures. -/
def Shows (session : Session) (usage : Usage) : Prop :=
  ∀ (input : Input) (args : List String), input.words = "df" :: args →
    (session.feed input).2.output = usage.table.render

theorem shows_usage {session : Session} (hregistry : session.registry = .standard) :
    session.Shows session.world.tree.usage := by
  intro input args hwords
  rw [feed_output, outcome, hregistry, hwords]
  rfl

/-- A line that transfers to a place where no file stands settles the usage. -/
theorem feed_transfer_usage {session : Session} (hregistry : session.registry = .standard) {input : Input}
    {transfer : Transfer} {args rest : List String} {source destination : String}
    (hwords : input.words = transfer.command.name :: args)
    (hoperands : operandsOf args = source :: destination :: rest) (hsuccess : session.Succeeds input)
    (hordered : transfer = .move → session.world.tree.root.Ordered)
    (hfree : ∀ content mode, session.world.tree.lookup (landing (session.surroundings input)
      ((session.surroundings input).absolute source) destination) ≠ some (.file content mode)) :
    ∃ node, session.world.tree.lookup ((session.surroundings input).absolute source) = some node ∧
      (session.feed input).1.world.tree.usage = transfer.settles session.world.tree.usage node.usage := by
  rw [succeeds_transfer_iff hregistry hwords] at hsuccess
  cases hplan : planTransfer transfer (session.surroundings input) args with
  | error failure =>
    rw [hplan] at hsuccess
    cases hsuccess
  | ok plan =>
    have hsound := planTransfer_sound hplan
    obtain ⟨hpath, htarget⟩ := planTransfer_operands hoperands hplan
    have hunused : plan.destination.replaces = false := by
      rw [← Bool.not_eq_true]
      intro hreplaces
      obtain ⟨-, content, mode, hfile⟩ := hsound.replaced hreplaces
      rw [htarget, targetOf_eq_landing (hpath ▸ hsound.path_normal) (hpath ▸ hsound.path_ne_root)] at hfile
      exact hfree content mode hfile
    refine ⟨plan.node, hpath ▸ hsound.source, ?_⟩
    rw [feed_world, settle_tree, outcome_transfer hregistry hwords]
    exact (congrArg Filesystem.usage (runTransfer_tree hplan)).trans (hsound.usage_carryOut hunused hordered)

/-- **Edits conserve what a tree holds.** An insertion adds the directories, files and bytes at or below the node
that is put in, and a removal takes away those of the node that it returns, at whatever depth and under whatever
path. So a line that moves something to a place where no file stands leaves the usage of the tree as it was, and a
line that copies something there adds the usage of what stands at the source; the next line that asks for the usage
shows these figures. The session is in any state; that a tree is `Ordered` says that the lists in it are finite
maps. -/
theorem counts_conserved :
    (∀ (fs after : Filesystem) (dir name : String) (node : Node),
      fs.insert dir name node = .ok after → after.usage = fs.usage + node.usage) ∧
    (∀ (fs after : Filesystem) (path : String) (node : Node), fs.root.Ordered →
      fs.remove path = .ok (node, after) → fs.usage = after.usage + node.usage) ∧
    ∀ (session : Session) (input : Input) (args rest : List String) (source destination : String),
      session.registry = .standard → operandsOf args = source :: destination :: rest → session.Succeeds input →
      let env := session.surroundings input
      let s := env.absolute source
      let before := session.world.tree
      let next := (session.feed input).1
      (∀ content mode, before.lookup (landing env s destination) ≠ some (.file content mode)) →
        (input.words = "mv" :: args → before.root.Ordered →
          next.world.tree.usage = before.usage ∧ next.Shows before.usage) ∧
        (input.words = "cp" :: args → ∃ node, before.lookup s = some node ∧
          next.world.tree.usage = before.usage + node.usage ∧ next.Shows (before.usage + node.usage)) := by
  refine ⟨fun fs after dir name node => Filesystem.usage_insert,
    fun fs after path node => Filesystem.usage_remove, ?_⟩
  intro session input args rest source destination hregistry hoperands hsuccess env s before next hfree
  have hshows : next.Shows next.world.tree.usage :=
    shows_usage ((session.feed_registry input).trans hregistry)
  constructor
  · intro hwords hordered
    obtain ⟨node, -, husage⟩ := @feed_transfer_usage session hregistry input .move args rest source destination
      hwords hoperands hsuccess (fun _ => hordered) hfree
    have hsame : next.world.tree.usage = before.usage := husage
    exact ⟨hsame, hsame ▸ hshows⟩
  · intro hwords
    obtain ⟨node, hnode, husage⟩ := @feed_transfer_usage session hregistry input .copy args rest source destination
      hwords hoperands hsuccess (fun hmove => nomatch hmove) hfree
    have hmore : next.world.tree.usage = before.usage + node.usage := husage
    exact ⟨node, hnode, hmore, hmore ▸ hshows⟩

/-- In the teaching tree a directory with a file of one letter in two bytes is put in, and the documents are taken
out. A line moves the documents into the projects, and another line copies the projects into the documents. -/
theorem counts_conserved_teaching :
    let fs : Filesystem := ⟨Node.teachingTree⟩
    let letter := Node.directory [("letter", .file "é" none)]
    let session : Session :=
      ⟨.standard, ⟨"/home/user", fs, .initial .usual "/home/user"⟩, [], .usual⟩
    let move : Input := ⟨"", "mv documents projects"⟩
    let copy : Input := ⟨"", "cp projects documents"⟩
    fs.root.Ordered ∧ session.registry = .standard ∧ session.Succeeds move ∧ session.Succeeds copy ∧
      move.words = ["mv", "documents", "projects"] ∧ copy.words = ["cp", "projects", "documents"] ∧
      (∃ after, fs.insert "/home//user" "letters" letter = .ok after ∧ after.usage = fs.usage + ⟨1, 1, 2⟩) ∧
      (∃ node after, fs.remove "/home/user/documents" = .ok (node, after) ∧
        fs.usage = after.usage + node.usage) ∧
      (session.feed move).1.Shows fs.usage ∧
      ∃ node, fs.lookup "/home/user/projects" = some node ∧
        (session.feed copy).1.world.tree.usage = fs.usage + node.usage := by
  intro fs letter session move copy
  obtain ⟨hinsert, hremove, hlines⟩ := counts_conserved
  have hordered : fs.root.Ordered := Node.ordered_teachingTree
  have hmoveWords : move.words = ["mv", "documents", "projects"] := by decide
  have hcopyWords : copy.words = ["cp", "projects", "documents"] := by decide
  have hmoves : session.Succeeds move :=
    (@succeeds_transfer_iff session rfl move .move ["documents", "projects"] hmoveWords).2 (by decide)
  have hcopies : session.Succeeds copy :=
    (@succeeds_transfer_iff session rfl copy .copy ["projects", "documents"] hcopyWords).2 (by decide)
  have hmoveFree : session.world.tree.lookup (landing (session.surroundings move)
      ((session.surroundings move).absolute "documents") "projects") = none := by decide
  have hcopyFree : session.world.tree.lookup (landing (session.surroundings copy)
      ((session.surroundings copy).absolute "projects") "documents") = none := by decide
  have hcopyPath : (session.surroundings copy).absolute "projects" = "/home/user/projects" := by decide
  have hletter : letter.usage = ⟨1, 1, 2⟩ := rfl
  obtain ⟨made, hmade⟩ : ∃ made, fs.insert "/home//user" "letters" letter = .ok made :=
    Filesystem.insert_succeeds (by decide) (by decide)
      (by decide : Path.segments "/home/user/letters" = _) (by decide) letter
  obtain ⟨node, hnode⟩ := Option.isSome_iff_exists.1 (show (fs.lookup "/home/user/documents").isSome by decide)
  obtain ⟨left, hleft⟩ :=
    Filesystem.remove_succeeds (by decide : Path.IsNormal "/home/user/documents") (by decide) hnode
  obtain ⟨hmoved, -⟩ := hlines session move ["documents", "projects"] [] _ _ rfl rfl hmoves
    fun content mode => by simp [hmoveFree]
  obtain ⟨-, hcopied⟩ := hlines session copy ["projects", "documents"] [] _ _ rfl rfl hcopies
    fun content mode => by simp [hcopyFree]
  obtain ⟨copied, hcopied, hmore, -⟩ := hcopied hcopyWords
  exact ⟨hordered, rfl, hmoves, hcopies, hmoveWords, hcopyWords,
    ⟨made, hmade, hletter ▸ hinsert fs made _ _ letter hmade⟩,
    ⟨node, left, hleft, hremove fs left _ node hordered hleft⟩, (hmoved hmoveWords hordered).2,
    copied, hcopyPath ▸ hcopied, hmore⟩

end Session

end VirtualShell
