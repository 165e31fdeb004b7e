import VirtualShell.Proofs.Json.Reading
import VirtualShell.Proofs.Result
import VirtualShell.Proofs.Tree.Walk
import VirtualShell.Tree.Document

/-!
# Loading a tree

What a document that is read makes of its names. Every tree that is loaded is ordered
(`ordered_ofDocument`), whatever the order in the document is, but loading does not look at the names:
`Node.givenNames` are those that a document gives to entries, and the tree is plain exactly if all of them
are (`plain_iff_ofJson?`). Other edits refuse a name that is not plain.
-/

namespace VirtualShell

namespace Node

/-! ## What is loaded -/

/-- A file has no names. -/
theorem everywhere_fileOfJson? {P : List String → Prop} {content mode : Option Json} {node : Node}
    (h : fileOfJson? content mode = some node) : node.Everywhere P := by
  obtain ⟨text, -, h⟩ := Option.bind_eq_some_iff.1 h
  obtain ⟨recorded, -, h⟩ := Option.bind_eq_some_iff.1 h
  obtain rfl := Option.some.inj h
  exact everywhere_file text recorded

theorem everywhere_fileOfItems? {P : List String → Prop} {items : List Json} {node : Node}
    (h : fileOfItems? items = some node) : node.Everywhere P := by
  rw [fileOfItems?.eq_def] at h
  split at h
  next => exact everywhere_fileOfJson? h
  next => exact everywhere_fileOfJson? h
  next => exact everywhere_fileOfJson? h
  next => cases h

mutual

/-- A node that is loaded is ordered, whatever the order in its document is. -/
theorem ordered_ofJson? : ∀ (value : Json) (belowRoot : Bool) (node : Node),
    ofJson? belowRoot value = some node → node.Ordered
  | .scalar _, _, _, h => by
    rw [ofJson?] at h
    cases h
  | .array [], _, _, h => by
    rw [ofJson?] at h
    cases h
  | .array (type :: items), belowRoot, node, h => by
    rw [ofJson?] at h
    split at h
    next => exact everywhere_fileOfItems? h
    next => exact ordered_directoryOfItems? items node h
    next => cases h
  | .object members, belowRoot, node, h => by
    rw [ofJson?] at h
    split at h
    next => exact everywhere_fileOfJson? h
    next =>
      obtain ⟨entries, hentries, rfl⟩ := Option.map_eq_some_iff.1 h
      exact ordered_ofEntries (ordered_childrenOfJson? members entries hentries)
    next => cases h

theorem ordered_directoryOfItems? : ∀ (items : List Json) (node : Node),
    directoryOfItems? items = some node → node.Ordered
  | [], node, h => by
    rw [directoryOfItems?] at h
    cases h
    exact everywhere_emptyDirectory List.Pairwise.nil
  | [.object members], node, h => by
    rw [directoryOfItems?] at h
    obtain ⟨entries, hentries, rfl⟩ := Option.map_eq_some_iff.1 h
    exact ordered_ofEntries (ordered_entriesOfJson? members entries hentries)
  | [.scalar _], _, h => by cases h
  | [.array _], _, h => by cases h
  | .scalar _ :: _ :: _, _, h => by cases h
  | .array _ :: _ :: _, _, h => by cases h
  | .object _ :: _ :: _, _, h => by cases h

theorem ordered_childrenOfJson? : ∀ (members : List (String × Json))
    (entries : List (String × Node)), childrenOfJson? members = some entries →
      ∀ entry ∈ entries, entry.2.Ordered
  | [], entries, h => by
    rw [childrenOfJson?] at h
    cases h
    exact List.forall_mem_nil _
  | (name, .object members) :: rest, entries, h => by
    rw [childrenOfJson?] at h
    split at h
    next => exact ordered_entriesOfJson? members entries h
    next => exact ordered_childrenOfJson? rest entries h
  | (name, .array _) :: rest, entries, h => by
    simp only [childrenOfJson?] at h
    split at h
    next => cases h
    next => exact ordered_childrenOfJson? rest entries h
  | (name, .scalar _) :: rest, entries, h => by
    simp only [childrenOfJson?] at h
    split at h
    next => cases h
    next => exact ordered_childrenOfJson? rest entries h

theorem ordered_entriesOfJson? : ∀ (members : List (String × Json))
    (entries : List (String × Node)), entriesOfJson? members = some entries →
      ∀ entry ∈ entries, entry.2.Ordered
  | [], entries, h => by
    rw [entriesOfJson?] at h
    cases h
    exact List.forall_mem_nil _
  | (name, value) :: rest, entries, h => by
    rw [entriesOfJson?] at h
    split at h
    next node more hnode hmore =>
      cases h
      exact List.forall_mem_cons.2
        ⟨ordered_ofJson? value true node hnode, ordered_entriesOfJson? rest more hmore⟩
    next => cases h

end

theorem ofDocument_eq_ok_iff {text : String} {root : Node} :
    ofDocument text = .ok root ↔ ∃ document value, Json.parse? text = some document ∧
      rootValue document = .ok value ∧ ofJson? false value = some root ∧
      root.isDirectory = true := by
  constructor
  · intro h
    rw [ofDocument] at h
    split at h
    next document hparse =>
      obtain ⟨value, hvalue, h⟩ := Result.bind_eq_ok_iff.1 h
      split at h
      next node hnode =>
        split at h
        next hdirectory =>
          cases h
          exact ⟨document, value, hparse, hvalue, hnode, hdirectory⟩
        next => cases h
      next => cases h
    next => cases h
  · rintro ⟨document, value, hparse, hvalue, hnode, hdirectory⟩
    simp only [ofDocument, hparse, hvalue, hnode, hdirectory, bind, Except.bind]
    rfl

theorem distinct_rootValue {document value : Json} (hdistinct : document.Distinct)
    (h : rootValue document = .ok value) : value.Distinct := by
  rw [rootValue.eq_def] at h
  split at h
  next members =>
    split at h
    next =>
      cases h
      exact hdistinct
    next =>
      split at h
      next => cases h
      next =>
        split at h
        next found hfound =>
          cases h
          rw [Json.Distinct, Json.distinctMembers_iff] at hdistinct
          exact hdistinct.2 _ (Entries.mem_of_lookup hfound)
        next => cases h
  next =>
    cases h
    exact hdistinct

/-- A tree that is loaded is ordered. -/
theorem ordered_ofDocument {text : String} {root : Node} (h : ofDocument text = .ok root) :
    root.Ordered := by
  obtain ⟨document, value, -, -, hroot, -⟩ := ofDocument_eq_ok_iff.1 h
  exact ordered_ofJson? value false root hroot

/-! ## The names in a document -/

mutual

/-- The names that a value gives to entries at any depth, if it is read as a node. -/
def givenNames (belowRoot : Bool) : Json → List String
  | .object members =>
    match (members.lookup "type").bind (Kind.ofJson? belowRoot) with
    | some .directory => namesOfChildren members
    | _ => []
  | .array (type :: items) =>
    match Kind.ofJson? belowRoot type with
    | some .directory => namesOfItems items
    | _ => []
  | _ => []

/-- The names that the items after the type of a directory give. -/
def namesOfItems : List Json → List String
  | [.object members] => namesOfMembers members
  | _ => []

/-- The names that the `children` among the members of a directory give. -/
def namesOfChildren : List (String × Json) → List String
  | [] => []
  | (name, value) :: rest =>
    if name = "children" then
      match value with
      | .object members => namesOfMembers members
      | _ => []
    else namesOfChildren rest

/-- The names that members give, which stand for entries. -/
def namesOfMembers : List (String × Json) → List String
  | [] => []
  | (name, value) :: rest => name :: (givenNames true value ++ namesOfMembers rest)

end

theorem plain_ofEntries_iff {entries : List (String × Node)} (h : (Entries.names entries).Nodup) :
    (ofEntries entries).Plain ↔
      ∀ entry ∈ entries, Path.isPlain entry.1 = true ∧ entry.2.Plain := by
  rw [Plain, ofEntries, everywhere_directory_iff]
  constructor
  · rintro ⟨hnames, hbelow⟩ entry hentry
    have hsorted := Entries.mem_sorted_of_mem h hentry
    exact ⟨hnames _ (List.mem_map.2 ⟨entry, hsorted, rfl⟩), hbelow entry hsorted⟩
  · intro hall
    refine ⟨fun name hname => ?_, fun entry hentry => (hall _ (Entries.mem_of_mem_sorted hentry)).2⟩
    obtain ⟨entry, hentry, rfl⟩ := List.mem_map.1 hname
    exact (hall entry (Entries.mem_of_mem_sorted hentry)).1

theorem names_entriesOfJson? {members : List (String × Json)} {entries : List (String × Node)}
    (h : entriesOfJson? members = some entries) : Entries.names entries = Entries.names members := by
  induction members generalizing entries with
  | nil =>
    rw [entriesOfJson?] at h
    cases h
    rfl
  | cons member rest ih =>
    rw [entriesOfJson?] at h
    split at h
    next node more _ hmore =>
      cases h
      rw [Entries.names, Entries.names, List.map_cons, List.map_cons]
      exact congrArg (member.1 :: ·) (ih hmore)
    next => cases h

mutual

/-- A node that is loaded is plain if its document gives plain names. -/
theorem plain_iff_ofJson? : ∀ (value : Json) (belowRoot : Bool) (node : Node), value.Distinct →
    ofJson? belowRoot value = some node →
      (node.Plain ↔ ∀ name ∈ givenNames belowRoot value, Path.isPlain name = true)
  | .scalar _, _, _, _, h => by
    rw [ofJson?] at h
    cases h
  | .array [], _, _, _, h => by
    rw [ofJson?] at h
    cases h
  | .array (type :: items), belowRoot, node, hdistinct, h => by
    rw [Json.Distinct, Json.DistinctItems] at hdistinct
    rw [ofJson?] at h
    rw [givenNames]
    split at h
    next hkind =>
      simp only [hkind]
      exact iff_of_true (everywhere_fileOfItems? h) (List.forall_mem_nil _)
    next hkind =>
      simp only [hkind]
      exact plain_iff_directoryOfItems? items node hdistinct.2 h
    next => cases h
  | .object members, belowRoot, node, hdistinct, h => by
    rw [Json.Distinct] at hdistinct
    rw [ofJson?] at h
    rw [givenNames]
    split at h
    next hkind =>
      simp only [hkind]
      exact iff_of_true (everywhere_fileOfJson? h) (List.forall_mem_nil _)
    next hkind =>
      simp only [hkind]
      obtain ⟨entries, hentries, rfl⟩ := Option.map_eq_some_iff.1 h
      obtain ⟨hnodup, hplain⟩ := plain_iff_childrenOfJson? members entries hdistinct.2 hentries
      rw [plain_ofEntries_iff hnodup]
      exact hplain
    next => cases h

theorem plain_iff_directoryOfItems? : ∀ (items : List Json) (node : Node),
    Json.DistinctItems items → directoryOfItems? items = some node →
      (node.Plain ↔ ∀ name ∈ namesOfItems items, Path.isPlain name = true)
  | [], node, _, h => by
    rw [directoryOfItems?] at h
    cases h
    exact iff_of_true (everywhere_emptyDirectory (List.forall_mem_nil _)) (List.forall_mem_nil _)
  | [.object members], node, hdistinct, h => by
    rw [Json.DistinctItems, Json.Distinct] at hdistinct
    rw [directoryOfItems?] at h
    obtain ⟨entries, hentries, rfl⟩ := Option.map_eq_some_iff.1 h
    rw [plain_ofEntries_iff (names_entriesOfJson? hentries ▸ hdistinct.1.1), namesOfItems]
    exact plain_iff_entriesOfJson? members entries hdistinct.1.2 hentries
  | [.scalar _], _, _, h => by cases h
  | [.array _], _, _, h => by cases h
  | .scalar _ :: _ :: _, _, _, h => by cases h
  | .array _ :: _ :: _, _, _, h => by cases h
  | .object _ :: _ :: _, _, _, h => by cases h

theorem plain_iff_childrenOfJson? : ∀ (members : List (String × Json))
    (entries : List (String × Node)), Json.DistinctMembers members →
      childrenOfJson? members = some entries → (Entries.names entries).Nodup ∧
        ((∀ entry ∈ entries, Path.isPlain entry.1 = true ∧ entry.2.Plain) ↔
          ∀ name ∈ namesOfChildren members, Path.isPlain name = true)
  | [], entries, _, h => by
    rw [childrenOfJson?] at h
    cases h
    exact ⟨List.Pairwise.nil, iff_of_true (List.forall_mem_nil _) (List.forall_mem_nil _)⟩
  | (name, .object members) :: rest, entries, hdistinct, h => by
    rw [Json.DistinctMembers, Json.Distinct] at hdistinct
    simp only [childrenOfJson?] at h
    simp only [namesOfChildren]
    split at h
    next hname =>
      rw [if_pos hname]
      exact ⟨names_entriesOfJson? h ▸ hdistinct.1.1,
        plain_iff_entriesOfJson? members entries hdistinct.1.2 h⟩
    next hname =>
      rw [if_neg hname]
      exact plain_iff_childrenOfJson? rest entries hdistinct.2 h
  | (name, .array _) :: rest, entries, hdistinct, h => by
    rw [Json.DistinctMembers] at hdistinct
    simp only [childrenOfJson?] at h
    simp only [namesOfChildren]
    split at h
    next => cases h
    next hname =>
      rw [if_neg hname]
      exact plain_iff_childrenOfJson? rest entries hdistinct.2 h
  | (name, .scalar _) :: rest, entries, hdistinct, h => by
    rw [Json.DistinctMembers] at hdistinct
    simp only [childrenOfJson?] at h
    simp only [namesOfChildren]
    split at h
    next => cases h
    next hname =>
      rw [if_neg hname]
      exact plain_iff_childrenOfJson? rest entries hdistinct.2 h

theorem plain_iff_entriesOfJson? : ∀ (members : List (String × Json))
    (entries : List (String × Node)), Json.DistinctMembers members →
      entriesOfJson? members = some entries →
        ((∀ entry ∈ entries, Path.isPlain entry.1 = true ∧ entry.2.Plain) ↔
          ∀ name ∈ namesOfMembers members, Path.isPlain name = true)
  | [], entries, _, h => by
    rw [entriesOfJson?] at h
    cases h
    exact iff_of_true (List.forall_mem_nil _) (List.forall_mem_nil _)
  | (name, value) :: rest, entries, hdistinct, h => by
    rw [Json.DistinctMembers] at hdistinct
    rw [entriesOfJson?] at h
    split at h
    next node more hnode hmore =>
      cases h
      have hvalue := plain_iff_ofJson? value true node hdistinct.1 hnode
      have hrest := plain_iff_entriesOfJson? rest more hdistinct.2 hmore
      rw [namesOfMembers, List.forall_mem_cons, List.forall_mem_cons, List.forall_mem_append,
        hrest, and_assoc, hvalue]
    next => cases h

end

end Node

namespace Filesystem

/-- The names that a document gives to entries. -/
def namesInDocument (text : String) : List String :=
  match Json.parse? text with
  | none => []
  | some document =>
    match Node.rootValue document with
    | .ok value => Node.givenNames false value
    | .error _ => []

/-- The names at every depth of a tree that is loaded are plain if and only if the names in the document
are. -/
theorem plain_ofDocument_iff {text : String} {fs : Filesystem} (h : ofDocument text = .ok fs) :
    fs.root.Plain ↔ ∀ name ∈ namesInDocument text, Path.isPlain name = true := by
  obtain ⟨root, hroot, rfl⟩ := Result.map_eq_ok_iff.1 h
  obtain ⟨document, value, hparse, hvalue, hnode, -⟩ := Node.ofDocument_eq_ok_iff.1 hroot
  have hdistinct : value.Distinct := Node.distinct_rootValue (Json.distinct_of_parse? hparse) hvalue
  simp only [namesInDocument, hparse, hvalue]
  exact Node.plain_iff_ofJson? value false root hdistinct hnode

/-- **What loading a tree does to names.** In a tree that was loaded, every name at every depth is plain
and every entry that a walk lists is found under the path that it is listed with, if the document gives
plain names to its entries; otherwise a name in the tree is not plain. Loading itself looks at no
name. -/
theorem loaded_paths_resolve_iff {text : String} {fs : Filesystem} (h : ofDocument text = .ok fs) :
    (fs.root.Plain ∧ ∀ visit ∈ fs.walk Path.root, fs.lookup visit.path = some visit.node) ↔
      ∀ name ∈ namesInDocument text, Path.isPlain name = true := by
  rw [← plain_ofDocument_iff h]
  refine ⟨fun hboth => hboth.1, fun hplain => ⟨hplain, fun visit hvisit => ?_⟩⟩
  obtain ⟨root, hroot, rfl⟩ := Result.map_eq_ok_iff.1 h
  exact lookup_of_mem_walk (Node.ordered_ofDocument hroot) hplain hvisit

/-- A document with one plain name. -/
theorem loaded_paths_resolve_iff_plain_name :
    let text := "\x7b\"type\":\"directory\",\"children\":\x7b\"a\":\x7b\"type\":\"file\"\x7d\x7d\x7d"
    let fs : Filesystem := ⟨.directory [("a", Node.emptyFile)]⟩
    ofDocument text = .ok fs ∧ fs.root.Plain ∧
      ∀ visit ∈ fs.walk Path.root, fs.lookup visit.path = some visit.node := by
  intro text fs
  have hload : ofDocument text = .ok fs := Result.eq_ok_of_toOption (by decide +kernel)
  have hnames : ∀ name ∈ namesInDocument text, Path.isPlain name = true := by decide +kernel
  exact ⟨hload, (loaded_paths_resolve_iff hload).2 hnames⟩

/-- A document that gives a file the name `a/b`: it is loaded, and the path under which a walk lists the
file leads nowhere. -/
theorem loaded_name_with_slash :
    let text := "\x7b\"type\":\"directory\",\"children\":\x7b\"a/b\":\x7b\"type\":\"file\"\x7d\x7d\x7d"
    ∃ fs, ofDocument text = .ok fs ∧ ¬ fs.root.Plain ∧
      ∃ visit ∈ fs.walk Path.root, fs.lookup visit.path = none := by
  intro text
  have hload : ofDocument text = .ok ⟨.directory [("a/b", Node.emptyFile)]⟩ :=
    Result.eq_ok_of_toOption (by decide +kernel)
  have hname : ¬ ∀ name ∈ namesInDocument text, Path.isPlain name = true := by decide +kernel
  refine ⟨_, hload, fun hplain => hname ((plain_ofDocument_iff hload).1 hplain),
    ⟨"/a/b", "a/b", Node.emptyFile⟩, List.mem_singleton.2 rfl, by decide +kernel⟩

end Filesystem

end VirtualShell
