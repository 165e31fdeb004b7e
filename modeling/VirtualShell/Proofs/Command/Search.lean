import VirtualShell.Command.Search
import VirtualShell.Proofs.Command.Expression
import VirtualShell.Proofs.Config
import VirtualShell.Proofs.Tree.Walk

/-!
# What a search finds

A search goes through the tree from its start as it was typed, and puts the names of entries behind that text.
It keeps what is asked for of a walk from there (`search_eq_walk`). A walk from the absolute form of the start
goes through the same entries, since both follow one traversal (`search_eq`). What is printed can be typed
again: names that are joined onto an expression lead on from what it stands for, however it is spelled
(`Environment.absolute_foldl_join`). Only `.` and `..` are no way to begin a path.
-/

namespace VirtualShell

namespace Command

/-! ## Arguments of a search -/

/-- The words that limit a search to a kind of entry. -/
def kindWords : Option EntryKind → List String
  | none => []
  | some .file => ["-type", "f"]
  | some .directory => ["-type", "d"]

/-- The arguments that ask for the entries with a pattern in their names: the start in front, if it is typed,
and then the pattern and the kind in one order or the other. -/
inductive Asks (typed : Option String) (pattern : String) (kind : Option EntryKind) : List String → Prop
  | pattern_first : Asks typed pattern kind (typed.toList ++ "-name" :: pattern :: kindWords kind)
  | kind_first : Asks typed pattern kind (typed.toList ++ kindWords kind ++ ["-name", pattern])

variable {env : Environment} {typed : Option String} {pattern : String} {kind : Option EntryKind}
  {args before rest : List String}

private theorem idxOf?_append_cons {mark : String} (h : mark ∉ before) :
    (before ++ mark :: rest).idxOf? mark = some before.length := by
  rw [List.idxOf?_eq_some_iff]
  refine ⟨by simp, by simp, fun position hposition heq => h ?_⟩
  rw [List.getElem_append_left hposition] at heq
  exact heq ▸ List.getElem_mem hposition

private theorem getElem?_append_cons {mark word : String} :
    (before ++ mark :: word :: rest)[before.length + 1]? = some word := by
  simp

theorem searchPattern_append (h : "-name" ∉ before) :
    searchPattern (before ++ "-name" :: pattern :: rest) = .ok (pattern, before.length = 0) := by
  simp only [searchPattern, idxOf?_append_cons h, getElem?_append_cons]
  rfl

theorem searchKind_append (hbefore : "-type" ∉ before) (hrest : kind = none → "-type" ∉ rest) :
    searchKind (before ++ kindWords kind ++ rest) = .ok kind := by
  rw [List.append_assoc]
  match kind with
  | none =>
    have hnone : (before ++ rest).idxOf? "-type" = none := by
      rw [List.idxOf?_eq_none_iff, List.mem_append, not_or]
      exact ⟨hbefore, hrest rfl⟩
    simp only [searchKind, kindWords, List.nil_append, hnone]
  | some .file =>
    simp only [searchKind, kindWords, List.cons_append, List.nil_append, idxOf?_append_cons hbefore,
      getElem?_append_cons]
  | some .directory =>
    simp only [searchKind, kindWords, List.cons_append, List.nil_append, idxOf?_append_cons hbefore,
      getElem?_append_cons]

/-- The pattern and the kind are found behind the start. The first argument is the start, if it is typed, and
otherwise one that tells that there is none. -/
theorem Asks.words (h : Asks typed pattern kind args)
    (htyped : ∀ start ∈ typed, Text.startsWith start "-" = false) (hpattern : pattern ≠ "-type") :
    ∃ named, searchPattern args = .ok (pattern, named) ∧ searchKind args = .ok kind ∧
      ∃ first, args.head? = some first ∧ (named || Text.startsWith first "-") = typed.isNone ∧
        typed.getD first = first := by
  have hmark : ∀ mark, Text.startsWith mark "-" = true → mark ∉ typed.toList := by
    intro mark hstart hmem
    rw [htyped mark (Option.mem_toList.1 hmem)] at hstart
    cases hstart
  have hname : "-name" ∉ typed.toList := hmark "-name" rfl
  have htype : "-type" ∉ typed.toList := hmark "-type" rfl
  cases h with
  | pattern_first =>
    refine ⟨_, searchPattern_append hname, ?_, ?_⟩
    · have hbefore : "-type" ∉ typed.toList ++ ["-name", pattern] := by
        simp [htype, hpattern.symm]
      have hkind : searchKind (typed.toList ++ ["-name", pattern] ++ kindWords kind ++ []) = .ok kind :=
        searchKind_append hbefore fun _ => List.not_mem_nil
      simpa using hkind
    · cases typed with
      | none => exact ⟨_, rfl, rfl, rfl⟩
      | some start => exact ⟨start, rfl, htyped start rfl, rfl⟩
  | kind_first =>
    have hbefore : "-name" ∉ typed.toList ++ kindWords kind := by
      rw [List.mem_append, not_or]
      exact ⟨hname, by rcases kind with _ | _ | _ <;> decide⟩
    refine ⟨_, searchPattern_append hbefore, searchKind_append htype fun _ => ?_, ?_⟩
    · simp [hpattern.symm]
    · cases typed with
      | none => rcases kind with _ | _ | _ <;> exact ⟨_, rfl, rfl, rfl⟩
      | some start => exact ⟨start, rfl, htyped start rfl, rfl⟩

/-- A search for asked entries is made below what the start stands for, which is the current directory if none
is typed. -/
theorem runFind_of_asks (hargs : Asks typed pattern kind args)
    (htyped : ∀ start ∈ typed, Text.startsWith start "-" = false) (hpattern : pattern ≠ "-type") {node : Node}
    (h : env.resolve (typed.getD env.cwd) = some node) :
    runFind env args = .ok (.text (Text.unlines (search (typed.getD env.cwd) node
      (String.ofList (pattern.toList.filter (· ≠ '*'))) kind))) := by
  obtain ⟨named, hname, hkind, first, hfirst, hnone, hstart⟩ := hargs.words htyped hpattern
  cases typed with
  | none =>
    simp only [Option.isNone_none, Option.getD_none] at hnone h
    simp only [runFind, hname, hkind, hfirst, bind, Except.bind, hnone, if_true, h, Option.getD_none]
    rfl
  | some start =>
    obtain rfl : start = first := hstart
    simp only [Option.isNone_some, Option.getD_some] at hnone h
    simp only [runFind, hname, hkind, hfirst, bind, Except.bind, hnone, Bool.false_eq_true, if_false, h,
      Option.getD_some]
    rfl

/-! ## Entries that are found -/

/-- A search goes where a walk goes, and keeps the paths of the entries that are asked for. -/
theorem search_eq_walk (node : Node) (start pattern : String) (kind : Option EntryKind) :
    search start node pattern kind =
      ((node.walk start).filter fun visit =>
        Text.contains visit.name pattern && EntryKind.accepts kind visit.node).map (·.path) := by
  induction node using Node.induct generalizing start with
  | hfile content mode => rfl
  | hdirectory entries ih =>
    rw [search, Node.walk]
    induction entries with
    | nil => rfl
    | cons entry rest ihRest =>
      obtain ⟨name, child⟩ := entry
      obtain ⟨hchild, hrest⟩ := List.forall_mem_cons.1 ih
      rw [searchEntries, Node.walkEntries, List.filter_cons, List.filter_append, hchild, ihRest hrest]
      split
      next => rw [List.map_cons, List.map_append]
      next => rw [List.map_append]

/-- An entry that is asked for: the last name of its path contains the pattern, stars aside, and the entry is of
the kind. -/
def Wanted (pattern : String) (kind : Option EntryKind) (visit : Visit) : Prop :=
  pattern.toList.filter (· ≠ '*') <:+: (Path.fileName visit.path).toList ∧
    EntryKind.accepts kind visit.node = true

instance (pattern : String) (kind : Option EntryKind) (visit : Visit) : Decidable (Wanted pattern kind visit) :=
  inferInstanceAs (Decidable (_ ∧ _))

/-- A walk to one place from two spellings of its start finds the same entry. -/
theorem wanted_along_iff {base start : String} {route : List String × Node} (hbase : Path.IsNormal base)
    (hnames : ∀ name ∈ route.1, Path.IsSegment name) (hne : route.1 ≠ []) :
    Wanted pattern kind (.along base route) ↔
      (Text.contains (Visit.along start route).name (String.ofList (pattern.toList.filter (· ≠ '*'))) &&
        EntryKind.accepts kind (Visit.along start route).node) = true := by
  have hlast : route.1.getLast? = some (route.1.getLastD "") := by
    rw [List.getLastD_eq_getLast?, List.getLast?_eq_some_getLast hne, Option.getD_some]
  have hname : Path.fileName (Visit.along base route).path = (Visit.along start route).name :=
    hbase.fileName_foldl_join hnames hlast
  rw [Bool.and_eq_true, Wanted, Text.contains, Text.occursIn_iff, String.toList_ofList, hname]
  rfl

/-- A search from a start in any spelling goes through the entries of a walk from a normal path. -/
theorem search_eq {node : Node} (hordered : node.Ordered) (hplain : node.Plain) {base : String}
    (hbase : Path.IsNormal base) (start pattern : String) (kind : Option EntryKind) :
    search start node (String.ofList (pattern.toList.filter (· ≠ '*'))) kind =
      ((node.walk base).filter (Wanted pattern kind)).map (Path.rebase base start ·.path) := by
  have hnames := Node.isSegment_of_mem_topDown hordered hplain
  have hwanted : ∀ route ∈ node.topDown,
      (Text.contains (Visit.along start route).name (String.ofList (pattern.toList.filter (· ≠ '*'))) &&
        EntryKind.accepts kind (Visit.along start route).node) = decide (Wanted pattern kind (.along base route)) := by
    intro route hroute
    rw [Bool.eq_iff_iff, decide_eq_true_eq]
    exact (wanted_along_iff hbase (hnames route hroute) (Node.ne_nil_of_mem_topDown hroute)).symm
  simp only [search_eq_walk, Node.walk_eq, List.filter_map, List.map_map, Function.comp_def]
  rw [List.filter_congr hwanted]
  refine List.map_congr_left fun route hroute => ?_
  have hroute := (List.mem_filter.1 hroute).1
  exact (Path.rebase_foldl_join (fun name hname => (hnames route hroute name hname).1)
    (Node.ne_nil_of_mem_topDown hroute) base start).symm

/-- The paths that a search makes are different from each other. -/
theorem search_nodup {node : Node} (hordered : node.Ordered) (hplain : node.Plain) (start pattern : String)
    (kind : Option EntryKind) : (search start node pattern kind).Nodup := by
  have hsegments : ∀ route ∈ node.topDown,
      Path.segments (Visit.along start route).path = Path.segments start ++ route.1 := fun route hroute =>
    Path.segments_foldl_join start (Node.isSegment_of_mem_topDown hordered hplain route hroute)
  rw [search_eq_walk, Node.walk_eq, List.nodup_iff_pairwise_ne, List.pairwise_map]
  apply List.Pairwise.filter
  rw [List.pairwise_map]
  refine (Node.topDown_increasing hordered).imp_of_mem fun {route other} hroute hother h heq => ?_
  have hsame := congrArg Path.segments heq
  rw [hsegments route hroute, hsegments other hother, List.append_cancel_left_eq] at hsame
  rw [hsame] at h
  exact List.lex_irrefl (fun name => lt_irrefl name) _ h

/-- **What a search finds, and under which paths.** The lines of `find` are, in their order, the entries of a walk
from the absolute form of the start that are asked for, with the start as it was typed in front instead. They are
different from each other. Unless the start is `.` or `..`, each line is an expression for the entry that it was
printed for, in the same directory and with the same home. The tree has plain names, and that it is `Ordered` says
that the entries of its directories are finite maps. -/
theorem find_lists_walk (env : Environment) (hordered : env.tree.root.Ordered) (hplain : env.tree.root.Plain)
    (hconfig : env.config.validate = .ok env.config) (hcwd : Path.IsNormal env.cwd)
    {typed : Option String} {pattern : String} {kind : Option EntryKind} {args : List String}
    (hargs : Asks typed pattern kind args) (htyped : ∀ start ∈ typed, Text.startsWith start "-" = false)
    (hpattern : pattern ≠ "-type") (hresolve : (env.resolve (typed.getD env.cwd)).isSome = true) :
    let start := typed.getD env.cwd
    let base := env.absolute start
    let found := (env.tree.walk base).filter (Wanted pattern kind)
    let lines := found.map (Path.rebase base start ·.path)
    runFind env args = .ok (.text (Text.unlines lines)) ∧ lines.Nodup ∧
      (start ≠ "." → start ≠ ".." → ∀ visit ∈ found,
        env.absolute (Path.rebase base start visit.path) = visit.path ∧
        env.resolve (Path.rebase base start visit.path) = some visit.node) := by
  intro start base found lines
  obtain ⟨node, hnode⟩ := Option.isSome_iff_exists.1 hresolve
  have hlookup : env.tree.lookup base = some node := Environment.lookup_of_resolve hnode
  have hbase : Path.IsNormal base := env.isNormal_absolute start
  have hhome := Config.startsWith_home hconfig
  have hbelow : node.Ordered := Filesystem.everywhere_of_lookup hordered hlookup
  have hnames : node.Plain := Filesystem.everywhere_of_lookup hplain hlookup
  have hlines : search start node (String.ofList (pattern.toList.filter (· ≠ '*'))) kind = lines := by
    rw [search_eq hbelow hnames hbase]
    simp only [lines, found, Filesystem.walk, hlookup]
  refine ⟨?_, ?_, fun hdot hdotdot visit hvisit => ?_⟩
  · rw [← hlines]
    exact runFind_of_asks hargs htyped hpattern hnode
  · rw [← hlines]
    exact search_nodup hbelow hnames start _ kind
  · have hwalk : visit ∈ env.tree.walk base := (List.mem_filter.1 hvisit).1
    obtain ⟨names, hne, hplainNames, hdescend, heq⟩ := (Filesystem.mem_walk_iff hordered hplain hlookup).1 hwalk
    have hsegments : ∀ name ∈ names, Path.IsSegment name :=
      fun name hname => (Path.isPlain_iff.1 (hplainNames name hname)).1
    have hpath : visit.path = names.foldl Path.join base := congrArg Visit.path heq
    have hempty : start ≠ "" := Environment.ne_empty_of_resolve hnode
    have hline : Path.rebase base start visit.path = names.foldl Path.join start := by
      rw [hpath]
      exact Path.rebase_foldl_join (fun name hname => (hsegments name hname).1) hne base start
    have habsolute : env.absolute (names.foldl Path.join start) = visit.path := by
      rw [hpath]
      exact Environment.absolute_foldl_join hcwd hhome hempty (Path.isDots_eq_false_iff.2 ⟨hdot, hdotdot⟩)
        hsegments
    rw [hline, Environment.resolve_eq_lookup hhome (Path.foldl_join_ne_empty hempty names), habsolute]
    exact ⟨rfl, (Filesystem.within_of_mem_walk hordered hplain hbase hwalk).2.2.2⟩

/-- A search in the documents of the teaching tree from another directory, with two slashes too many in the
start. -/
theorem find_lists_walk_teaching :
    let env : Environment :=
      { cwd := "/etc", tree := ⟨Node.teachingTree⟩, vars := .empty, history := [], config := .usual, clock := "" }
    let args := ["~//documents/", "-name", "note*", "-type", "f"]
    env.tree.root.Ordered ∧ env.tree.root.Plain ∧ env.config.validate = .ok env.config ∧
      Path.IsNormal env.cwd ∧ Asks (some "~//documents/") "note*" (some .file) args ∧
      (∀ start ∈ some "~//documents/", Text.startsWith start "-" = false) ∧ "note*" ≠ "-type" ∧
      (env.resolve "~//documents/").isSome = true ∧
      runFind env args = .ok (.text (Text.unlines ["~//documents//notes.txt"])) ∧
      ∃ visit ∈ env.tree.walk "/home/user/documents",
        env.absolute "~//documents//notes.txt" = visit.path ∧
        env.resolve "~//documents//notes.txt" = some visit.node := by
  intro env args
  have hordered : env.tree.root.Ordered := Node.ordered_teachingTree
  have hplain : env.tree.root.Plain := Node.plain_teachingTree
  have hconfig : env.config.validate = .ok env.config := Config.validate_eq_ok_iff.2 ⟨by decide, rfl⟩
  have hcwd : Path.IsNormal env.cwd := by decide
  have hargs : Asks (some "~//documents/") "note*" (some .file) args := .pattern_first
  have htyped : ∀ start ∈ some "~//documents/", Text.startsWith start "-" = false := by
    rintro start ⟨⟩
    rfl
  have hpattern : "note*" ≠ "-type" := by decide
  have hresolve : (env.resolve "~//documents/").isSome = true := by decide
  have hbase : env.absolute "~//documents/" = "/home/user/documents" := by decide
  obtain ⟨hrun, -, hleads⟩ := find_lists_walk env hordered hplain hconfig hcwd hargs htyped hpattern hresolve
  simp only [Option.getD_some, hbase] at hrun hleads
  have hlines : ((env.tree.walk "/home/user/documents").filter (Wanted "note*" (some .file))).map
      (Path.rebase "/home/user/documents" "~//documents/" ·.path) = ["~//documents//notes.txt"] := by
    decide +kernel
  obtain ⟨visit, hvisit, hline⟩ := List.mem_map.1 (hlines ▸ List.mem_singleton_self "~//documents//notes.txt")
  obtain ⟨habsolute, hresolved⟩ := hleads (by decide) (by decide) visit hvisit
  rw [hlines] at hrun
  rw [hline] at habsolute hresolved
  exact ⟨hordered, hplain, hconfig, hcwd, hargs, htyped, hpattern, hresolve, hrun, visit,
    (List.mem_filter.1 hvisit).1, habsolute, hresolved⟩

end Command

end VirtualShell
