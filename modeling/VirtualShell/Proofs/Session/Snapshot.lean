import VirtualShell.Proofs.Command.Creation
import VirtualShell.Proofs.Session.Names
import VirtualShell.Proofs.Text.Words
import VirtualShell.Proofs.Tree.Document

/-!
# Snapshots of a session

The document of a session's tree is a snapshot of it. Along every run from the teaching tree the names
of the tree stay in order (`after_everywhere`), and such a tree is read back from its document unless it
is too deep for one (`after_reload`). No command has a bound on depth, so a session can reach a tree that
its own snapshot does not bring back (`snapshot_lost`).
-/

namespace VirtualShell

namespace Session

/-- A file system whose tree is not too deep for a document: each directory is at most 62 names below the
root, and each file at most 63. -/
def Shallow (fs : Filesystem) : Prop :=
  ∀ names node, fs.root.descend names = some node →
    names.length ≤ if node.isDirectory then 62 else 63

theorem shallow_iff {fs : Filesystem} (h : fs.root.Ordered) :
    Shallow fs ↔ fs.root.nesting ≤ Json.Reading.deepest := by
  rw [Node.nesting_le_iff h, Json.Reading.deepest]
  refine forall_congr' fun names => forall_congr' fun node => imp_congr_right fun _ => ?_
  rw [Node.ownNesting]
  split <;> omega

theorem not_shallow_of_directory {fs : Filesystem} {path : String} (h : fs.entry path = .directory)
    (hdeep : 62 < (Path.segments path).length) : ¬ Shallow fs := by
  intro hshallow
  obtain ⟨entries, hlookup⟩ := Filesystem.entry_eq_directory_iff.1 h
  have hle := hshallow _ _ (Filesystem.lookup_eq_some_iff.1 hlookup).2
  rw [if_pos (show (Node.directory entries).isDirectory = true from rfl)] at hle
  omega

/-- What reading a snapshot gives at any time of a run: the tree itself, unless it is too deep. -/
theorem after_reload {session : Session} (hregistry : session.registry = .standard)
    (hgrounded : session.world.Grounded) (hordered : session.world.tree.root.Ordered)
    (inputs : List Input) :
    (Shallow (session.after inputs).world.tree →
      Filesystem.ofDocument (session.after inputs).world.tree.document =
        .ok (session.after inputs).world.tree) ∧
    (¬ Shallow (session.after inputs).world.tree →
      Filesystem.ofDocument (session.after inputs).world.tree.document = .error .badJson) := by
  have hafter := after_everywhere Filesystem.kept_ordered hregistry hgrounded hordered inputs
  have hthere := after_grounded hregistry hgrounded inputs
  have hdirectory := Filesystem.root_isDirectory hthere.directory
  rw [Filesystem.ofDocument_document hafter hdirectory, shallow_iff hafter]
  exact ⟨fun hle => if_pos hle, fun hnot => if_neg hnot⟩

/-- **When a snapshot brings a session's tree back.** Along every run from the teaching tree, with any
settings that have no fault, reading the snapshot gives the very same tree if that is not too deep for a
document, and otherwise reading it fails. -/
theorem snapshot_reload {config : Config} (hconfig : config.validate = .ok config) :
    ∃ session, start Node.teachingTree config = .ok session ∧
      ∀ inputs : List Input,
        (Shallow (session.after inputs).world.tree →
          Filesystem.ofDocument (session.after inputs).world.tree.document =
            .ok (session.after inputs).world.tree) ∧
        (¬ Shallow (session.after inputs).world.tree →
          Filesystem.ofDocument (session.after inputs).world.tree.document = .error .badJson) := by
  obtain ⟨session, hstart, hregistry, -, htree, hgrounded⟩ :=
    @start_eq Node.teachingTree config rfl hconfig
  have hordered : session.world.tree.root.Ordered := by
    rw [htree]
    exact Node.ordered_teachingTree
  exact ⟨session, hstart, after_reload hregistry hgrounded hordered⟩

/-- The teaching tree itself, in a session with the usual settings. -/
theorem snapshot_reload_usual :
    Config.usual.validate = .ok Config.usual ∧
      ∃ session, start Node.teachingTree Config.usual = .ok session ∧
        Shallow (session.after []).world.tree ∧
        Filesystem.ofDocument (session.after []).world.tree.document =
          .ok (session.after []).world.tree := by
  refine ⟨rfl, ?_⟩
  obtain ⟨session, hstart, hruns⟩ := @snapshot_reload Config.usual rfl
  obtain ⟨same, hsame, -, -, htree, -⟩ := @start_eq Node.teachingTree Config.usual rfl rfl
  obtain rfl : session = same := Except.ok.inj (hstart.symm.trans hsame)
  have hshallow : Shallow (session.after []).world.tree := by
    rw [after_nil, htree]
    exact (@shallow_iff ⟨Node.teachingTree⟩ Node.ordered_teachingTree).2 (by decide +kernel)
  exact ⟨session, hstart, hshallow, (hruns []).1 hshallow⟩

/-- The tree after a line that makes a directory with those above it. -/
theorem feed_mkdir_parents {session : Session} (hregistry : session.registry = .standard)
    {input : Input} {path : String} (hnormal : Path.IsNormal path)
    (hwords : input.words = ["mkdir", "-p", path]) :
    (session.feed input).1.world.tree = (session.world.tree.makeParents path).tree := by
  obtain ⟨env, henv, -, hworld, -⟩ := session.feed_eq input
  have hcall : (Registry.standard.call env ["mkdir", "-p", path]).world.tree =
      (Command.runMkdir env ["-p", path]).1 := rfl
  rw [hworld, hregistry, hwords, settle_tree, hcall, Command.runMkdir_parents hnormal, ← henv]

/-- One line is enough to reach a tree that its snapshot does not bring back: it makes directories that
go 63 names down. -/
theorem snapshot_lost :
    ∃ session, start Node.teachingTree Config.usual = .ok session ∧
      Filesystem.ofDocument (session.after
          [⟨"", "mkdir -p " ++ Path.ofSegments (List.replicate 63 "d")⟩]).world.tree.document =
        .error .badJson := by
  obtain ⟨session, hstart, hregistry, -, htree, hgrounded⟩ :=
    @start_eq Node.teachingTree Config.usual rfl rfl
  have hordered : session.world.tree.root.Ordered := by
    rw [htree]
    exact Node.ordered_teachingTree
  refine ⟨session, hstart, ?_⟩
  have hplain : ∀ name ∈ List.replicate 63 "d", Path.isPlain name = true := by
    intro name hname
    rw [List.eq_of_mem_replicate hname]
    rfl
  have hsegment : ∀ name ∈ List.replicate 63 "d", Path.IsSegment name := by
    intro name hname
    exact (Path.isPlain_iff.1 (hplain name hname)).1
  have hnormal := Path.isNormal_ofSegments hsegment
  have hword : Text.IsWord (Path.ofSegments (List.replicate 63 "d")) := by decide +kernel
  have hwords : Text.words (Text.trim ("mkdir -p " ++ Path.ofSegments (List.replicate 63 "d"))) =
      ["mkdir", "-p", Path.ofSegments (List.replicate 63 "d")] := by
    have hcall : "mkdir -p " = "mkdir -p" ++ " " := rfl
    rw [Text.words_trim, hcall, Text.words_append_space, Text.words_word hword]
    rfl
  generalize "mkdir -p " ++ Path.ofSegments (List.replicate 63 "d") = line at hwords ⊢
  have hdeep : ¬ Shallow (session.after [⟨"", line⟩]).world.tree := by
    rw [after_cons, after_nil, @feed_mkdir_parents _ hregistry ⟨"", line⟩ _ hnormal hwords, htree]
    have hdepth : 62 < (Path.segments (Path.ofSegments (List.replicate 63 "d"))).length := by
      rw [Path.segments_ofSegments hsegment, List.length_replicate]
      omega
    exact not_shallow_of_directory (Filesystem.makeParents_below_root rfl rfl hplain) hdepth
  exact (after_reload hregistry hgrounded hordered [⟨"", line⟩]).2 hdeep

end Session

end VirtualShell
