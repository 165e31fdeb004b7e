import VirtualShell.Command.Status
import VirtualShell.Proofs.Command.Expression
import VirtualShell.Proofs.Tree.Usage

/-!
# Accountings of a tree

How many bytes a tree holds is counted in three ways: along a walk for `df`, from each directory to its entries
for `du -s`, and in a list of the directories from the bottom up with a figure for each for `du`. A `Node.Tally` is
such a list in which every figure follows from the entries of its directory and from the figures before it. What
`du` prints for a directory is a tally (`Node.totals_eq_bottomUp`, `Node.tally_bottomUp`), and its last figure is
the one that the other ways give.
-/

namespace VirtualShell

namespace Node

/-! ## Tallies -/

/-- What an entry adds to the figure of the directory that `names` lead to: a file its bytes, and a directory
its own figure. -/
def share (figure : List String → Nat) (names : List String) : String × Node → Nat
  | (_, file content _) => content.utf8ByteSize
  | (name, directory _) => figure (names ++ [name])

/-- A list of the directories at or below a node, by the names that lead to them, with a figure for each. -/
structure Tally (node : Node) (listed : List (List String)) (figure : List String → Nat) : Prop where
  /-- Every directory is listed, and nothing else. -/
  complete : ∀ names, names ∈ listed ↔ ∃ entries, node.descend names = some (directory entries)
  once : listed.Nodup
  /-- No directory comes before one that lies within it. -/
  bottomUp : listed.Pairwise fun names later => ¬ names <+: later
  /-- The node itself comes last. -/
  last : listed.getLast? = some []
  /-- A figure is the sum over the files and directories that are directly in the directory. -/
  adds_up : ∀ names entries, node.descend names = some (directory entries) →
    figure names = (entries.map (share figure names)).sum

/-- The bytes at or below what names lead to. -/
def bytesAt (node : Node) (names : List String) : Nat :=
  ((node.descend names).map contentBytes).getD 0

theorem bytesAt_of_descend {node target : Node} {names : List String}
    (h : node.descend names = some target) : node.bytesAt names = target.contentBytes := by
  rw [bytesAt, h]
  rfl

/-- The directories from the bottom up with the bytes in them are a tally. -/
theorem tally_bottomUp {entries : List (String × Node)} (hordered : (directory entries).Ordered) :
    (directory entries).Tally ((directory entries).bottomUp.map Prod.fst) (directory entries).bytesAt where
  complete names := by
    rw [List.mem_map]
    constructor
    · rintro ⟨⟨_, target⟩, hroute, rfl⟩
      obtain ⟨hdescend, hdirectory⟩ := (mem_bottomUp_iff hordered).1 hroute
      cases target with
      | file content mode => cases hdirectory
      | directory inner => exact ⟨inner, hdescend⟩
    · rintro ⟨inner, hdescend⟩
      exact ⟨(names, directory inner), (mem_bottomUp_iff hordered).2 ⟨hdescend, rfl⟩, rfl⟩
  once := by
    rw [List.nodup_iff_pairwise_ne, List.pairwise_map]
    exact (bottomUp_pairwise hordered).imp fun h heq => h ⟨[], (List.append_nil _).trans heq⟩
  bottomUp := List.pairwise_map.2 (bottomUp_pairwise hordered)
  last := by rw [bottomUp_directory, List.map_append, List.map_singleton, List.getLast?_concat]
  adds_up names inner hdescend := by
    rw [bytesAt_of_descend hdescend, contentBytes, contentBytesOf_eq_sum]
    congr 1
    refine List.map_congr_left fun entry hentry => ?_
    obtain ⟨name, node⟩ := entry
    cases node with
    | file content mode => rfl
    | directory more =>
      have hincreasing := (everywhere_directory_iff.1 (hordered.of_descend hdescend)).1
      have hlookup := (Entries.lookup_eq_some_iff_mem (Entries.Increasing.nodup hincreasing)).2 hentry
      have hbelow : (directory entries).descend (names ++ [name]) = some (directory more) := by
        rw [descend_append, hdescend, Option.bind_some, descend_cons, child?, hlookup]
        rfl
      exact (bytesAt_of_descend hbelow).symm

/-- The totals of a directory that stands at `base` are those of its directories from the bottom up. -/
theorem totals_eq_bottomUp (entries : List (String × Node)) (base : String) :
    (directory entries).totals base = (directory entries).bottomUp.map fun route =>
      (route.1.foldl Path.join base, route.2.contentBytes) := by
  suffices h : ∀ node : Node, ∀ base, (if node.isDirectory then node.totals base else []) =
      node.bottomUp.map fun route => (route.1.foldl Path.join base, route.2.contentBytes) from
    h (directory entries) base
  intro node
  induction node using induct with
  | hfile content mode => exact fun _ => rfl
  | hdirectory entries ih =>
    intro base
    have hentries : totalsOf base entries = (spread Node.bottomUp entries).map fun route =>
        (route.1.foldl Path.join base, route.2.contentBytes) := by
      induction entries with
      | nil => rfl
      | cons entry rest ihRest =>
        obtain ⟨hentry, hrest⟩ := List.forall_mem_cons.1 ih
        rw [totalsOf, hentry, ihRest hrest, spread_cons, List.map_append, List.map_map]
        rfl
    rw [bottomUp_directory, List.map_append, ← hentries]
    rfl

/-- The last total of a directory is its own. -/
theorem totals_eq_concat (entries : List (String × Node)) (base : String) :
    ∃ before, (directory entries).totals base = before ++ [(base, (directory entries).contentBytes)] := by
  rw [totals_eq_bottomUp, bottomUp_directory, List.map_append]
  exact ⟨_, rfl⟩

end Node

namespace Command

variable {env : Environment}

/-! ## Totals on the screen -/

theorem runDu_of_resolve {args : List String} {target : String} {node : Node}
    (hflags : 's' ∉ flagsOf args) (htarget : (operandsOf args).head?.getD "." = target)
    (h : env.resolve target = some node) :
    runDu env args = .ok (.text (Text.unlines ((node.totals target).map totalLine))) := by
  subst htarget
  simp only [runDu, h, List.contains_eq_mem, hflags]
  rfl

/-- **The ways to count a tree agree.** The usage that `df` shows, `du -s /`, the last line of `du /` and the tree
itself give the same number of bytes. The files and directories in the usage are those of a walk and the root. And
what `du` prints for a directory is a tally: it has one line for each directory there, with the path that leads to
it from what was typed, and the figures follow from each other from the bottom up. The root of a tree is a
directory, and that the tree is `Ordered` says that the entries of its directories are finite maps. -/
theorem accountings_agree (env : Environment) (hroot : env.tree.root.isDirectory = true)
    (hordered : env.tree.root.Ordered) :
    env.tree.usage.bytes = env.tree.root.contentBytes ∧
    runDu env ["-s", "/"] = .ok (.text (Text.unlines [totalLine ("/", env.tree.root.contentBytes)])) ∧
    (∃ before, runDu env ["/"] =
      .ok (.text (Text.unlines (before ++ [totalLine ("/", env.tree.root.contentBytes)])))) ∧
    env.tree.usage.files + env.tree.usage.directories = (env.tree.walk Path.root).length + 1 ∧
    ∀ args target entries, 's' ∉ flagsOf args → (operandsOf args).head?.getD "." = target →
      env.resolve target = some (.directory entries) →
        ∃ listed figure, (Node.directory entries).Tally listed figure ∧
          runDu env args = .ok (.text (Text.unlines (listed.map fun names =>
            totalLine (names.foldl Path.join target, figure names)))) := by
  have hwhole : env.resolve "/" = some env.tree.root := Environment.resolve_of_isNormal Path.isNormal_root
  refine ⟨?_, ?_, ?_, ?_, ?_⟩
  · rw [Filesystem.usage_eq_totals hroot, Node.contentBytes_eq_total]
  · have hflags : flagsOf ["-s", "/"] = ['s'] := rfl
    have hoperands : operandsOf ["-s", "/"] = ["/"] := rfl
    simp only [runDu, hflags, hoperands, List.head?_cons, Option.getD_some, hwhole]
    rfl
  · cases htree : env.tree.root with
    | file content mode =>
      rw [htree] at hroot
      cases hroot
    | directory entries =>
      obtain ⟨before, hbefore⟩ := Node.totals_eq_concat entries "/"
      rw [htree] at hwhole
      have hflags : 's' ∉ flagsOf ["/"] := by decide
      have htarget : (operandsOf ["/"]).head?.getD "." = "/" := rfl
      refine ⟨before.map totalLine, ?_⟩
      rw [runDu_of_resolve hflags htarget hwhole, hbefore, List.map_append, List.map_singleton]
  · rw [Filesystem.usage, Filesystem.foldl_add_usage, ← Filesystem.directories_add_files]
    dsimp only
    omega
  · intro args target entries hflags htarget hresolve
    have hbelow : (Node.directory entries).Ordered :=
      Filesystem.everywhere_of_lookup hordered (Environment.lookup_of_resolve hresolve)
    have hlines : ((Node.directory entries).totals target).map totalLine =
        ((Node.directory entries).bottomUp.map Prod.fst).map fun names =>
          totalLine (names.foldl Path.join target, (Node.directory entries).bytesAt names) := by
      rw [Node.totals_eq_bottomUp, List.map_map, List.map_map]
      refine List.map_congr_left fun route hroute => ?_
      obtain ⟨hdescend, -⟩ := (Node.mem_bottomUp_iff hbelow).1 hroute
      simp only [Function.comp_apply, Node.bytesAt_of_descend hdescend]
    refine ⟨_, _, Node.tally_bottomUp hbelow, ?_⟩
    rw [runDu_of_resolve hflags htarget hresolve, hlines]

/-- The projects in the teaching tree are one game, so that they hold as much as it does. -/
theorem accountings_agree_teaching :
    let env : Environment :=
      { cwd := "/home/user", tree := ⟨Node.teachingTree⟩, vars := .empty, history := [],
        config := .usual, clock := "" }
    env.tree.root.isDirectory = true ∧ env.tree.root.Ordered ∧
      env.tree.usage.bytes = env.tree.root.contentBytes ∧ 's' ∉ flagsOf ["projects"] ∧
      ∃ game listed figure, env.resolve "projects" = some (.directory [("game", game)]) ∧
        game.isDirectory = true ∧ (Node.directory [("game", game)]).Tally listed figure ∧
        figure [] = figure ["game"] ∧
        runDu env ["projects"] = .ok (.text (Text.unlines (listed.map fun names =>
          totalLine (names.foldl Path.join "projects", figure names)))) := by
  intro env
  have hroot : env.tree.root.isDirectory = true := rfl
  have hordered : env.tree.root.Ordered := Node.ordered_teachingTree
  have hflags : 's' ∉ flagsOf ["projects"] := by decide
  have htarget : (operandsOf ["projects"]).head?.getD "." = "projects" := rfl
  have hresolve : env.resolve "projects" = some (.directory [("game", .directory
      [("main.py", .file "#!/usr/bin/env python3\nprint(\"Hello, Linux!\")" none)])]) := by decide
  obtain ⟨hbytes, -, -, -, hprints⟩ := accountings_agree env hroot hordered
  obtain ⟨listed, figure, htally, hprinted⟩ := hprints _ _ _ hflags htarget hresolve
  exact ⟨hroot, hordered, hbytes, hflags, _, listed, figure, hresolve, rfl, htally, htally.adds_up [] _ rfl,
    hprinted⟩

end Command

end VirtualShell
