import VirtualShell.Proofs.Session.Run
import VirtualShell.Proofs.Tree.Everywhere

/-!
# The names in the tree of a session

Four commands add entries to the tree, and each comes by a name in its own way: it is the last segment of
an operand, any segment of it, or the name of what is copied or moved. However they come by it, all of them
insert, and an insertion refuses a name that is not plain and puts a plain one where it belongs in the order.
The nodes that they insert are empty or were in the tree before, so the names below them are no new ones
(`Node.Available.everywhere`).

So a property of names that edits keep holds along every run: `after_everywhere`.
-/

namespace VirtualShell

/-- What holds of the names of a tree holds of the names of every node that a command can put in. -/
theorem Node.Available.everywhere {P : List String → Prop} (hP : Filesystem.Kept P)
    {tree : Filesystem} (htree : tree.root.Everywhere P) {node : Node} (h : Node.Available tree node) :
    node.Everywhere P := by
  cases h with
  | emptyDirectory => exact Node.everywhere_emptyDirectory hP.nil
  | emptyFile => exact Node.everywhere_file _ _
  | found hlookup => exact Filesystem.everywhere_of_lookup htree hlookup

namespace Session

/-- A property of names that edits keep is kept by every line. -/
theorem feed_everywhere {P : List String → Prop} (hP : Filesystem.Kept P) {session : Session}
    (hregistry : session.registry = .standard) (hgrounded : session.world.Grounded)
    (h : session.world.tree.root.Everywhere P) (input : Input) :
    (session.feed input).1.world.tree.root.Everywhere P := by
  obtain ⟨hedits, -⟩ := feed_grounded hregistry hgrounded input
  exact hedits.keeps_everywhere hP (fun _ hnode => hnode.everywhere hP h) h

/-- A property of names that edits keep is kept by every run. -/
theorem after_everywhere {P : List String → Prop} (hP : Filesystem.Kept P) {session : Session}
    (hregistry : session.registry = .standard) (hgrounded : session.world.Grounded)
    (h : session.world.tree.root.Everywhere P) (inputs : List Input) :
    (session.after inputs).world.tree.root.Everywhere P := by
  apply after_keeps_grounded (P := fun world => world.tree.root.Everywhere P) hregistry hgrounded _ h
  intro reached input hreached hthere hnames
  exact feed_everywhere hP hreached hthere hnames input

/-- **The names in a session's tree stay plain and in order.** A session starts on a directory in which every
name at every depth is plain: not empty, without a slash, and neither `.` nor `..`. Then every name is plain
after every line of every run, and in every directory the names are distinct and increasing. The tree of the
start is `Ordered` as every tree is that was loaded or built from entries: the lists in it are finite maps. -/
theorem names_stay_plain {root : Node} {config : Config} (hroot : root.isDirectory = true)
    (hconfig : config.validate = .ok config) (hordered : root.Ordered) (hplain : root.Plain) :
    ∃ session, start root config = .ok session ∧
      ∀ inputs : List Input,
        (session.after inputs).world.tree.root.Plain ∧
        (session.after inputs).world.tree.root.Ordered := by
  obtain ⟨session, hstart, hregistry, -, htree, hgrounded⟩ := start_eq hroot hconfig
  have hnames : session.world.tree.root = root := by rw [htree]
  rw [← hnames] at hordered hplain
  refine ⟨session, hstart, ?_⟩
  intro inputs
  constructor
  · exact after_everywhere Filesystem.kept_plain hregistry hgrounded hplain inputs
  · exact after_everywhere Filesystem.kept_ordered hregistry hgrounded hordered inputs

/-- Names with dots in them, made below the home directory of the teaching tree. -/
theorem names_stay_plain_teaching :
    Node.teachingTree.isDirectory = true ∧ Config.usual.validate = .ok Config.usual ∧
      Node.teachingTree.Ordered ∧ Node.teachingTree.Plain ∧
      ∃ session, start Node.teachingTree Config.usual = .ok session ∧
        (session.after [⟨"", "mkdir -p ~/..a//b../..."⟩]).world.tree.root.Plain := by
  have hordered := Node.ordered_teachingTree
  have hplain := Node.plain_teachingTree
  obtain ⟨session, hstart, hruns⟩ :=
    @names_stay_plain Node.teachingTree Config.usual rfl rfl hordered hplain
  exact ⟨rfl, rfl, hordered, hplain, session, hstart, (hruns _).1⟩

end Session

end VirtualShell
