import VirtualShell.Proofs.Json.Reading
import VirtualShell.Proofs.Result
import VirtualShell.Proofs.Tree.Everywhere
import VirtualShell.Tree.Document

/-!
# Documents of trees

A tree that is written and read again is the same tree, unless it is too deep. Each directory is two
objects deep in the document, one for itself and one for its children, and a file is one
(`Node.nesting`); a document may be `Json.Reading.deepest` objects deep. `ofDocument_document` says what is
read in both cases.
-/

namespace VirtualShell

namespace Node

/-! ## Depth -/

mutual

/-- How many objects of its document are open at a time at the deepest place of a node. -/
def nesting : Node → Nat
  | file _ _ => 1
  | directory entries => 2 + nestingIn entries

/-- The same for the deepest of some entries. -/
def nestingIn : List (String × Node) → Nat
  | [] => 0
  | (_, node) :: rest => max (nesting node) (nestingIn rest)

end

theorem nesting_le_nestingIn {entries : List (String × Node)} {entry : String × Node}
    (h : entry ∈ entries) : entry.2.nesting ≤ nestingIn entries := by
  induction entries with
  | nil => cases h
  | cons first rest ih =>
    rw [nestingIn]
    rcases List.mem_cons.1 h with rfl | hrest
    · exact Nat.le_max_left _ _
    · exact (ih hrest).trans (Nat.le_max_right _ _)

theorem exists_nesting_eq {entries : List (String × Node)} (h : entries ≠ []) :
    ∃ entry ∈ entries, entry.2.nesting = nestingIn entries := by
  induction entries with
  | nil => exact absurd rfl h
  | cons first rest ih =>
    rw [nestingIn]
    by_cases hrest : rest = []
    · subst hrest
      exact ⟨first, List.mem_cons_self, by rw [nestingIn, Nat.max_zero]⟩
    · obtain ⟨entry, hentry, heq⟩ := ih hrest
      rcases Nat.le_total (nestingIn rest) first.2.nesting with hle | hle
      · exact ⟨first, List.mem_cons_self, (Nat.max_eq_left hle).symm⟩
      · exact ⟨entry, List.mem_cons_of_mem _ hentry, heq.trans (Nat.max_eq_right hle).symm⟩

/-- The objects that one node adds to those around it. -/
def ownNesting (node : Node) : Nat :=
  if node.isDirectory then 2 else 1

theorem ownNesting_le_nesting (node : Node) : node.ownNesting ≤ node.nesting := by
  cases node with
  | file content mode => exact Nat.le_refl _
  | directory entries => exact Nat.le_add_right _ _

/-- Each name on the way to a node is a directory more. -/
theorem nesting_descend {node below : Node} {names : List String}
    (h : node.descend names = some below) : 2 * names.length + below.nesting ≤ node.nesting := by
  induction names generalizing node with
  | nil =>
    obtain rfl := Option.some.inj h
    rw [List.length_nil]
    omega
  | cons name rest ih =>
    rw [descend_cons, Option.bind_eq_some_iff] at h
    obtain ⟨child, hchild, hrest⟩ := h
    cases node with
    | file content mode => cases hchild
    | directory entries =>
      have hle := nesting_le_nestingIn (Entries.mem_of_lookup hchild)
      have hbelow := ih hrest
      rw [nesting, List.length_cons]
      dsimp only at hle
      omega

mutual

/-- Somewhere a node is as deep as it is. -/
theorem exists_deepest : ∀ node : Node, node.Ordered → ∃ names below,
    node.descend names = some below ∧ node.nesting = 2 * names.length + below.ownNesting
  | file content mode, _ => ⟨[], file content mode, rfl, rfl⟩
  | directory [], _ => ⟨[], directory [], rfl, rfl⟩
  | directory (first :: rest), h => by
    rw [Ordered, Everywhere] at h
    obtain ⟨⟨name, child⟩, hmem, heq⟩ := exists_nesting_eq (List.cons_ne_nil first rest)
    obtain ⟨names, below, hdescend, hdeep⟩ := exists_deepest_in (first :: rest) h.2 (name, child) hmem
    refine ⟨name :: names, below, ?_, ?_⟩
    · have hlookup := (Entries.lookup_eq_some_iff_mem (Entries.Increasing.nodup h.1)).2 hmem
      rw [descend_cons, child?, hlookup]
      exact hdescend
    · rw [nesting, ← heq, hdeep, List.length_cons]
      omega

theorem exists_deepest_in : ∀ entries : List (String × Node),
    EverywhereIn (fun names => names.Pairwise (· < ·)) entries → ∀ entry ∈ entries,
      ∃ names below, entry.2.descend names = some below ∧
        entry.2.nesting = 2 * names.length + below.ownNesting
  | [], _, _, hentry => absurd hentry List.not_mem_nil
  | (name, node) :: rest, h, entry, hentry => by
    rw [EverywhereIn] at h
    rcases List.mem_cons.1 hentry with rfl | hrest
    · exact exists_deepest node h.1
    · exact exists_deepest_in rest h.2 entry hrest

end

/-- The nesting of a node is bounded by bounding the number of names that lead to its files and
directories. -/
theorem nesting_le_iff {node : Node} (h : node.Ordered) {limit : Nat} :
    node.nesting ≤ limit ↔ ∀ names below, node.descend names = some below →
      2 * names.length + below.ownNesting ≤ limit := by
  constructor
  · intro hle names below hbelow
    have hdeep := nesting_descend hbelow
    have hown := ownNesting_le_nesting below
    omega
  · intro hall
    obtain ⟨names, below, hbelow, heq⟩ := exists_deepest node h
    rw [heq]
    exact hall names below hbelow

mutual

theorem nesting_toJson : ∀ node : Node, node.toJson.nesting = node.nesting
  | file content none => rfl
  | file content (some mode) => rfl
  | directory entries => by
    rw [toJson, nesting, ← nestingOfMembers_entriesToJson entries]
    simp only [Json.nesting, Json.nestingOfMembers, Json.text]
    omega

theorem nestingOfMembers_entriesToJson : ∀ entries : List (String × Node),
    Json.nestingOfMembers (entriesToJson entries) = nestingIn entries
  | [] => rfl
  | (name, node) :: rest => by
    rw [entriesToJson, Json.nestingOfMembers, nestingIn, nesting_toJson node,
      nestingOfMembers_entriesToJson rest]

end

/-! ## Writing -/

mutual

theorem textual_toJson : ∀ node : Node, node.toJson.Textual
  | file content none => by simp [toJson, Json.Textual, Json.TextualMembers, Json.text]
  | file content (some mode) => by simp [toJson, Json.Textual, Json.TextualMembers, Json.text]
  | directory entries => by
    simp [toJson, Json.Textual, Json.TextualMembers, Json.text, textual_entriesToJson entries]

theorem textual_entriesToJson : ∀ entries : List (String × Node),
    Json.TextualMembers (entriesToJson entries)
  | [] => by
    rw [entriesToJson, Json.TextualMembers]
    trivial
  | (name, node) :: rest => by
    rw [entriesToJson, Json.TextualMembers]
    exact ⟨textual_toJson node, textual_entriesToJson rest⟩

end

theorem names_entriesToJson (entries : List (String × Node)) :
    Entries.names (entriesToJson entries) = Entries.names entries := by
  induction entries with
  | nil => rfl
  | cons entry rest ih =>
    rw [entriesToJson, Entries.names, Entries.names, List.map_cons, List.map_cons]
    exact congrArg (entry.1 :: ·) ih

mutual

/-- An ordered node repeats no name in its document. -/
theorem distinct_toJson : ∀ node : Node, node.Ordered → node.toJson.Distinct
  | file content none, _ => by
    simp [toJson, Json.Distinct, Json.DistinctMembers, Json.text, Entries.names]
  | file content (some mode), _ => by
    simp [toJson, Json.Distinct, Json.DistinctMembers, Json.text, Entries.names]
  | directory entries, h => by
    rw [Ordered, Everywhere] at h
    have hnodup : (Entries.names entries).Nodup := Entries.Increasing.nodup h.1
    rw [← names_entriesToJson] at hnodup
    simp only [toJson, Json.Distinct, Json.DistinctMembers, Json.text, and_true, true_and]
    exact ⟨by simp [Entries.names], hnodup, distinct_entriesToJson entries h.2⟩

theorem distinct_entriesToJson : ∀ entries : List (String × Node),
    EverywhereIn (fun names => names.Pairwise (· < ·)) entries →
      Json.DistinctMembers (entriesToJson entries)
  | [], _ => by
    rw [entriesToJson, Json.DistinctMembers]
    trivial
  | (name, node) :: rest, h => by
    rw [EverywhereIn] at h
    rw [entriesToJson, Json.DistinctMembers]
    exact ⟨distinct_toJson node h.1, distinct_entriesToJson rest h.2⟩

end

/-! ## Reading back -/

mutual

/-- A node that was written is read back. -/
theorem ofJson?_toJson : ∀ (node : Node) (belowRoot : Bool), node.Ordered →
    ofJson? belowRoot node.toJson = some node
  | file content none, belowRoot, _ => by
    simp [toJson, ofJson?, Json.text, Entries.lookup_cons_eq, Kind.ofJson?, fileOfJson?, contentOfJson?,
      modeOfJson?, Json.text?]
  | file content (some mode), belowRoot, _ => by
    simp [toJson, ofJson?, Json.text, Entries.lookup_cons_eq, Kind.ofJson?, fileOfJson?, contentOfJson?,
      modeOfJson?, Json.text?]
  | directory entries, belowRoot, h => by
    rw [Ordered, Everywhere] at h
    have hentries := entriesOfJson?_entriesToJson entries h.2
    have hsorted : Entries.sorted entries = entries := Entries.sorted_eq_self h.1
    simp [toJson, ofJson?, Json.text, Kind.ofJson?, childrenOfJson?, hentries,
      ofEntries, hsorted]

theorem entriesOfJson?_entriesToJson : ∀ entries : List (String × Node),
    EverywhereIn (fun names => names.Pairwise (· < ·)) entries →
      entriesOfJson? (entriesToJson entries) = some entries
  | [], _ => by rw [entriesToJson, entriesOfJson?]
  | (name, node) :: rest, h => by
    rw [EverywhereIn] at h
    rw [entriesToJson, entriesOfJson?, ofJson?_toJson node true h.1,
      entriesOfJson?_entriesToJson rest h.2]

end

/-- The root of a document that was written stands at its beginning. -/
theorem rootValue_toJson (node : Node) : rootValue node.toJson = .ok node.toJson := by
  cases node with
  | file content mode => cases mode <;> simp [toJson, rootValue]
  | directory entries => simp [toJson, rootValue]

/-- What is read where a text spells a document that holds a directory. -/
theorem ofDocument_of_spells {root : Node} {document : Json} {text : String}
    (hordered : root.Ordered) (hdirectory : root.isDirectory = true)
    (hspells : Json.Spells text document.tokens) (hdistinct : document.Distinct)
    (hroot : rootValue document = .ok root.toJson) :
    ofDocument text =
      if document.nesting ≤ Json.Reading.deepest then .ok root else .error .badJson := by
  have hparse := Json.parse?_of_spells hspells hdistinct
  by_cases hroom : document.nesting ≤ Json.Reading.deepest
  · rw [if_pos hroom] at hparse ⊢
    simp only [ofDocument, hparse, hroot, bind, Except.bind, ofJson?_toJson root false hordered,
      hdirectory]
    rfl
  · rw [if_neg hroom] at hparse ⊢
    simp only [ofDocument, hparse]
    rfl

/-- What is read where a directory was written. -/
theorem ofDocument_indented {root : Node} (hordered : root.Ordered)
    (hdirectory : root.isDirectory = true) :
    ofDocument root.toJson.indented =
      if root.nesting ≤ Json.Reading.deepest then .ok root else .error .badJson := by
  have hspells := Json.spells_indentedAt root.toJson 0 (textual_toJson root)
  rw [← nesting_toJson]
  exact ofDocument_of_spells hordered hdirectory hspells (distinct_toJson root hordered)
    (rootValue_toJson root)

end Node

namespace Filesystem

/-- A file system is read back from its document, unless its tree is too deep for one. -/
theorem ofDocument_document {fs : Filesystem} (hordered : fs.root.Ordered)
    (hdirectory : fs.root.isDirectory = true) :
    ofDocument fs.document =
      if fs.root.nesting ≤ Json.Reading.deepest then .ok fs else .error .badJson := by
  rw [ofDocument, document, Node.ofDocument_indented hordered hdirectory]
  split <;> rfl

end Filesystem

end VirtualShell
