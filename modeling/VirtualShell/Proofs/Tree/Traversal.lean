import VirtualShell.Proofs.Tree.Everywhere

/-!
# Traversals

A traversal lists nodes with the names that lead to them, whatever the path is of the node that it starts from.
`Node.topDown` lists everything strictly below a node, each entry before what lies below it. `Node.bottomUp`
lists the directories at or below a node, each after those inside it. Both put the lists for the entries of a
directory behind each other, with one more name in front of what leads further down (`Node.spread`).

If directories are finite maps, the traversals list what descending finds, and nothing else
(`Node.mem_topDown_iff`, `Node.mem_bottomUp_iff`). The first one follows the lexicographic order of the names
(`Node.topDown_increasing`), and in the second one no directory comes before one that lies within it
(`Node.bottomUp_pairwise`).
-/

namespace VirtualShell

namespace Node

/-! ## Induction over trees -/

mutual

/-- What holds of files, and of a directory if it holds of its entries, holds of every node. -/
theorem induct {P : Node → Prop} (hfile : ∀ content mode, P (file content mode))
    (hdirectory : ∀ entries, (∀ entry ∈ entries, P entry.2) → P (directory entries)) : ∀ node, P node
  | file content mode => hfile content mode
  | directory entries => hdirectory entries (inductIn hfile hdirectory entries)

/-- It holds of all entries of a directory then. -/
theorem inductIn {P : Node → Prop} (hfile : ∀ content mode, P (file content mode))
    (hdirectory : ∀ entries, (∀ entry ∈ entries, P entry.2) → P (directory entries)) :
    ∀ entries : List (String × Node), ∀ entry ∈ entries, P entry.2
  | [] => List.forall_mem_nil _
  | (_, node) :: rest =>
    List.forall_mem_cons.2 ⟨induct hfile hdirectory node, inductIn hfile hdirectory rest⟩

end

/-! ## Lists of nodes with the names that lead to them -/

variable {entries : List (String × Node)} {node target : Node} {names : List String}

/-- What some lists hold for the entries of a directory, with one more name in front. -/
def spread (list : Node → List (List String × Node)) (entries : List (String × Node)) :
    List (List String × Node) :=
  entries.flatMap fun entry => (list entry.2).map fun route => (entry.1 :: route.1, route.2)

theorem spread_cons (list : Node → List (List String × Node)) (entry : String × Node)
    (rest : List (String × Node)) :
    spread list (entry :: rest) =
      (list entry.2).map (fun route => (entry.1 :: route.1, route.2)) ++ spread list rest :=
  List.flatMap_cons

mutual

/-- Everything strictly below a node with the names that lead to it, each entry before what lies below it. -/
def topDown : Node → List (List String × Node)
  | file _ _ => []
  | directory entries => topDownIn entries

/-- Some entries and everything below them. -/
def topDownIn : List (String × Node) → List (List String × Node)
  | [] => []
  | (name, node) :: rest =>
    ([name], node) :: (((topDown node).map fun route => (name :: route.1, route.2)) ++ topDownIn rest)

end

theorem topDown_directory (entries : List (String × Node)) :
    (directory entries).topDown = spread (fun node => ([], node) :: node.topDown) entries := by
  rw [topDown]
  induction entries with
  | nil => rfl
  | cons entry rest ih => rw [topDownIn, ih, spread_cons, List.map_cons, List.cons_append]

/-- If each list holds what descending finds of some kind, so do the lists together. -/
theorem mem_spread_iff (hordered : (directory entries).Ordered)
    {list : Node → List (List String × Node)} {kind : Prop}
    (hlists : ∀ entry ∈ entries, entry.2.Ordered → ∀ names,
      (names, target) ∈ list entry.2 ↔ entry.2.descend names = some target ∧ kind) :
    (names, target) ∈ spread list entries ↔
      names ≠ [] ∧ (directory entries).descend names = some target ∧ kind := by
  obtain ⟨hincreasing, hentries⟩ := everywhere_directory_iff.1 hordered
  have hlookup : ∀ name child, entries.lookup name = some child ↔ (name, child) ∈ entries :=
    fun _ _ => Entries.lookup_eq_some_iff_mem (Entries.Increasing.nodup hincreasing)
  rw [spread, List.mem_flatMap]
  constructor
  · rintro ⟨⟨name, child⟩, hentry, hroute⟩
    obtain ⟨⟨rest, _⟩, hmem, heq⟩ := List.mem_map.1 hroute
    obtain ⟨rfl, rfl⟩ := Prod.mk.inj heq
    obtain ⟨hdescend, hkind⟩ := (hlists _ hentry (hentries _ hentry) rest).1 hmem
    refine ⟨List.cons_ne_nil _ _, ?_, hkind⟩
    rw [descend_cons, child?, (hlookup name child).2 hentry, Option.bind_some, hdescend]
  · rintro ⟨hne, hdescend, hkind⟩
    obtain ⟨name, rest, rfl⟩ := List.exists_cons_of_ne_nil hne
    rw [descend_cons, Option.bind_eq_some_iff] at hdescend
    obtain ⟨child, hchild, hdescend⟩ := hdescend
    have hentry : (name, child) ∈ entries := (hlookup name child).1 hchild
    exact ⟨(name, child), hentry, List.mem_map.2
      ⟨(rest, target), (hlists _ hentry (hentries _ hentry) rest).2 ⟨hdescend, hkind⟩, rfl⟩⟩

theorem ne_nil_of_mem_spread {list : Node → List (List String × Node)}
    (h : (names, target) ∈ spread list entries) : names ≠ [] := by
  rw [spread, List.mem_flatMap] at h
  obtain ⟨entry, -, hroute⟩ := h
  obtain ⟨route, -, heq⟩ := List.mem_map.1 hroute
  cases heq
  exact List.cons_ne_nil _ _

/-- A relation between lists of names that holds along each list holds along all of them, if it compares first
names by their order. -/
theorem pairwise_spread {R : List String → List String → Prop} (hincreasing : Entries.Increasing entries)
    {list : Node → List (List String × Node)}
    (hlists : ∀ entry ∈ entries, (list entry.2).Pairwise fun route other => R route.1 other.1)
    (hsame : ∀ name route other, R route other → R (name :: route) (name :: other))
    (hless : ∀ name first route other, name < first → R (name :: route) (first :: other)) :
    (spread list entries).Pairwise fun route other => R route.1 other.1 := by
  induction entries with
  | nil => exact List.Pairwise.nil
  | cons entry rest ih =>
    obtain ⟨hfirst, hrest⟩ := List.pairwise_cons.1 hincreasing
    obtain ⟨hlist, hothers⟩ := List.forall_mem_cons.1 hlists
    rw [spread_cons, List.pairwise_append]
    refine ⟨?_, ih hrest hothers, ?_⟩
    · rw [List.pairwise_map]
      exact hlist.imp fun h => hsame entry.1 _ _ h
    · intro route hroute other hother
      obtain ⟨below, -, rfl⟩ := List.mem_map.1 hroute
      obtain ⟨later, hlater, hother⟩ := List.mem_flatMap.1 hother
      obtain ⟨beyond, -, rfl⟩ := List.mem_map.1 hother
      exact hless _ _ _ _ (hfirst later.1 (List.mem_map_of_mem hlater))

/-- The node itself and what the list holds are what descending finds. -/
theorem mem_cons_topDown_iff (hordered : node.Ordered) :
    (names, target) ∈ ([], node) :: node.topDown ↔ node.descend names = some target := by
  induction node using induct generalizing names with
  | hfile content mode =>
    cases names with
    | nil => simp [topDown, eq_comm]
    | cons name rest => simp [topDown, descend_cons, child?]
  | hdirectory entries ih =>
    have hspread := @mem_spread_iff entries target names hordered (fun node => ([], node) :: node.topDown)
      True fun entry hentry hbelow names => (ih entry hentry hbelow).trans (and_iff_left trivial).symm
    rw [List.mem_cons, topDown_directory, hspread]
    cases names with
    | nil => simp [eq_comm]
    | cons name rest => simp

theorem ne_nil_of_mem_topDown (h : (names, target) ∈ node.topDown) : names ≠ [] := by
  cases node with
  | file content mode => cases h
  | directory entries =>
    rw [topDown_directory] at h
    exact ne_nil_of_mem_spread h

theorem mem_topDown_iff (hordered : node.Ordered) :
    (names, target) ∈ node.topDown ↔ names ≠ [] ∧ node.descend names = some target := by
  rw [← mem_cons_topDown_iff hordered, List.mem_cons]
  constructor
  · intro h
    exact ⟨ne_nil_of_mem_topDown h, .inr h⟩
  · rintro ⟨hne, hself | h⟩
    · cases hself
      exact absurd rfl hne
    · exact h

/-- The lists of names that lead to what lies below a node are in lexicographic order. -/
theorem topDown_increasing (hordered : node.Ordered) :
    node.topDown.Pairwise fun route other => List.Lex (· < ·) route.1 other.1 := by
  induction node using induct with
  | hfile content mode => exact List.Pairwise.nil
  | hdirectory entries ih =>
    obtain ⟨hincreasing, hentries⟩ := everywhere_directory_iff.1 hordered
    rw [topDown_directory]
    apply pairwise_spread hincreasing
    · intro entry hentry
      refine List.pairwise_cons.2 ⟨fun route hroute => ?_, ih entry hentry (hentries entry hentry)⟩
      obtain ⟨name, rest, hcons⟩ := List.exists_cons_of_ne_nil (ne_nil_of_mem_topDown hroute)
      rw [hcons]
      exact .nil
    · intro name route other h
      exact .cons h
    · intro name first route other h
      exact .rel h

/-! ## Directories from the bottom up -/

mutual

/-- The directories at or below a node with the names that lead to them, each after those inside it. -/
def bottomUp : Node → List (List String × Node)
  | file _ _ => []
  | directory entries => bottomUpIn entries ++ [([], directory entries)]

/-- The directories at or below some entries. -/
def bottomUpIn : List (String × Node) → List (List String × Node)
  | [] => []
  | (name, node) :: rest =>
    ((bottomUp node).map fun route => (name :: route.1, route.2)) ++ bottomUpIn rest

end

theorem bottomUp_directory (entries : List (String × Node)) :
    (directory entries).bottomUp = spread bottomUp entries ++ [([], directory entries)] := by
  have hentries : bottomUpIn entries = spread bottomUp entries := by
    induction entries with
    | nil => rfl
    | cons entry rest ih => rw [bottomUpIn, ih, spread_cons]
  rw [bottomUp, hentries]

/-- The list holds the directories that descending finds. -/
theorem mem_bottomUp_iff (hordered : node.Ordered) :
    (names, target) ∈ node.bottomUp ↔ node.descend names = some target ∧ target.isDirectory = true := by
  induction node using induct generalizing names with
  | hfile content mode =>
    refine iff_of_false List.not_mem_nil ?_
    rintro ⟨hdescend, hdirectory⟩
    cases names with
    | nil =>
      cases hdescend
      cases hdirectory
    | cons name rest => cases hdescend
  | hdirectory entries ih =>
    rw [bottomUp_directory, List.mem_append, mem_spread_iff hordered fun entry hentry hbelow _ =>
      ih entry hentry hbelow, List.mem_singleton]
    cases names with
    | nil =>
      rw [descend_nil, Option.some_inj]
      constructor
      · rintro (⟨hne, -⟩ | hself)
        · exact absurd rfl hne
        · cases hself
          exact ⟨rfl, rfl⟩
      · rintro ⟨rfl, -⟩
        exact .inr rfl
    | cons name rest => simp

/-- No directory is listed before one that lies within it. -/
theorem bottomUp_pairwise (hordered : node.Ordered) :
    node.bottomUp.Pairwise fun route later => ¬ route.1 <+: later.1 := by
  induction node using induct with
  | hfile content mode => exact List.Pairwise.nil
  | hdirectory entries ih =>
    obtain ⟨hincreasing, hentries⟩ := everywhere_directory_iff.1 hordered
    rw [bottomUp_directory, List.pairwise_append]
    refine ⟨pairwise_spread (R := fun route later => ¬ route <+: later) hincreasing ?_ ?_ ?_,
      List.pairwise_singleton _ _, ?_⟩
    · intro entry hentry
      exact ih entry hentry (hentries entry hentry)
    · intro name route other h hprefix
      exact h (List.cons_prefix_cons.1 hprefix).2
    · intro name first route other h hprefix
      exact ne_of_lt h (List.cons_prefix_cons.1 hprefix).1
    · intro route hroute other hother hprefix
      rw [List.mem_singleton.1 hother, List.prefix_nil] at hprefix
      exact ne_nil_of_mem_spread hroute hprefix

/-! ## Names on the way -/

/-- In a plain tree, names that lead somewhere are plain. -/
theorem isPlain_of_descend (hplain : node.Plain) (h : node.descend names = some target) :
    ∀ name ∈ names, Path.isPlain name = true := by
  induction names generalizing node with
  | nil => exact List.forall_mem_nil _
  | cons name rest ih =>
    rw [descend_cons, Option.bind_eq_some_iff] at h
    obtain ⟨child, hchild, hrest⟩ := h
    cases node with
    | file content mode => cases hchild
    | directory entries =>
      obtain ⟨hnames, hentries⟩ := everywhere_directory_iff.1 hplain
      have hentry := Entries.mem_of_lookup hchild
      exact List.forall_mem_cons.2
        ⟨hnames name (Entries.mem_names_of_mem hentry), ih (hentries _ hentry) hrest⟩

theorem isSegment_of_mem_topDown (hordered : node.Ordered) (hplain : node.Plain) :
    ∀ route ∈ node.topDown, ∀ name ∈ route.1, Path.IsSegment name := by
  intro route hroute name hname
  obtain ⟨-, hdescend⟩ := (mem_topDown_iff hordered).1 hroute
  exact (Path.isPlain_iff.1 (isPlain_of_descend hplain hdescend name hname)).1

end Node

end VirtualShell
