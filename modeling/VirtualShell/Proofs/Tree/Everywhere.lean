import VirtualShell.Proofs.Entries
import VirtualShell.Proofs.Tree.Edit
import VirtualShell.Tree.Teaching

/-!
# Properties of names at every depth

A node has a property of names `Everywhere` if the names of each directory at or below it have it. Two
such properties matter. A node is `Ordered` if each directory holds its names once and in order, which is
how directories represent finite maps. It is `Plain` if each name is plain, so that a path can spell it.

A property that placing a plain name and taking a name out keep (`Kept`) is an invariant of all steps
that change a tree: `Edits.keeps_everywhere`.
-/

namespace VirtualShell

namespace Node

mutual

/-- The names of every directory at or below a node have a property. -/
def Everywhere (P : List String → Prop) : Node → Prop
  | file _ _ => True
  | directory entries => P (Entries.names entries) ∧ EverywhereIn P entries

/-- The names of every directory at or below some entries have a property. -/
def EverywhereIn (P : List String → Prop) : List (String × Node) → Prop
  | [] => True
  | (_, node) :: rest => Everywhere P node ∧ EverywhereIn P rest

end

mutual

instance decidableEverywhere (P : List String → Prop) [DecidablePred P] :
    ∀ node : Node, Decidable (node.Everywhere P)
  | file _ _ => inferInstanceAs (Decidable True)
  | directory entries =>
    have := decidableEverywhereIn P entries
    inferInstanceAs (Decidable (P (Entries.names entries) ∧ EverywhereIn P entries))

instance decidableEverywhereIn (P : List String → Prop) [DecidablePred P] :
    ∀ entries : List (String × Node), Decidable (EverywhereIn P entries)
  | [] => inferInstanceAs (Decidable True)
  | (_, node) :: rest =>
    have := decidableEverywhere P node
    have := decidableEverywhereIn P rest
    inferInstanceAs (Decidable (Everywhere P node ∧ EverywhereIn P rest))

end

/-- Names occur once and in order, at every depth. -/
def Ordered (node : Node) : Prop :=
  node.Everywhere fun names => names.Pairwise (· < ·)

/-- Names are plain, at every depth. -/
def Plain (node : Node) : Prop :=
  node.Everywhere fun names => ∀ name ∈ names, Path.isPlain name = true

instance (node : Node) : Decidable node.Ordered :=
  decidableEverywhere _ node

instance (node : Node) : Decidable node.Plain :=
  decidableEverywhere _ node

variable {P : List String → Prop} {entries : List (String × Node)} {node new : Node}

theorem everywhereIn_iff : EverywhereIn P entries ↔ ∀ entry ∈ entries, entry.2.Everywhere P := by
  induction entries with
  | nil => simp [EverywhereIn]
  | cons entry rest ih => rw [EverywhereIn, ih, List.forall_mem_cons]

theorem everywhere_directory_iff :
    (directory entries).Everywhere P ↔
      P (Entries.names entries) ∧ ∀ entry ∈ entries, entry.2.Everywhere P := by
  rw [Everywhere, everywhereIn_iff]

theorem everywhere_file (content : String) (mode : Option String) :
    (file content mode).Everywhere P := by
  rw [Everywhere]
  trivial

theorem everywhere_emptyDirectory (h : P []) : emptyDirectory.Everywhere P :=
  everywhere_directory_iff.2 ⟨h, List.forall_mem_nil _⟩

/-- A directory that is made of entries in any order is ordered. -/
theorem ordered_ofEntries (h : ∀ entry ∈ entries, entry.2.Ordered) : (ofEntries entries).Ordered :=
  everywhere_directory_iff.2 ⟨Entries.increasing_sorted entries, fun entry hentry =>
    h entry (Entries.mem_of_mem_sorted hentry)⟩

/-- What holds everywhere holds everywhere below. -/
theorem Everywhere.of_descend {path : List String} (h : node.Everywhere P)
    (hpath : node.descend path = some new) : new.Everywhere P := by
  induction path generalizing node with
  | nil =>
    obtain rfl := Option.some.inj hpath
    exact h
  | cons name path ih =>
    rw [descend_cons, Option.bind_eq_some_iff] at hpath
    obtain ⟨child, hchild, hpath⟩ := hpath
    cases node with
    | file content mode => cases hchild
    | directory entries =>
      exact ih ((everywhere_directory_iff.1 h).2 _ (Entries.mem_of_lookup hchild)) hpath

/-- Overwriting changes no names but those of the new node. -/
theorem Everywhere.replaceAt (h : node.Everywhere P) (hnew : new.Everywhere P)
    (path : List String) : (node.replaceAt path new).Everywhere P := by
  induction path generalizing node with
  | nil => exact hnew
  | cons name path ih =>
    cases node with
    | file content mode => exact h
    | directory entries =>
      rw [Node.replaceAt]
      split
      next => exact h
      next child hchild =>
        obtain ⟨hnames, hentries⟩ := everywhere_directory_iff.1 h
        have hmem := Entries.mem_of_lookup hchild
        rw [everywhere_directory_iff, Entries.names_put_of_mem (Entries.mem_names_of_mem hmem)]
        refine ⟨hnames, fun entry hentry => ?_⟩
        rcases Entries.mem_of_mem_put hentry with rfl | hold
        · exact ih (hentries _ hmem)
        · exact hentries entry hold

theorem ordered_teachingTree : teachingTree.Ordered := by decide

theorem plain_teachingTree : teachingTree.Plain := by decide

end Node

namespace Filesystem

variable {P : List String → Prop} {spared : String → Prop} {stock : Node → Prop}
  {fs after : Filesystem}

theorem everywhere_of_lookup {path : String} {node : Node} (h : fs.root.Everywhere P)
    (hlookup : fs.lookup path = some node) : node.Everywhere P :=
  h.of_descend (lookup_eq_some_iff.1 hlookup).2

theorem everywhere_overwrite {node : Node} (h : fs.root.Everywhere P) (hnode : node.Everywhere P)
    (path : String) : (fs.overwrite path node).root.Everywhere P := by
  rw [overwrite]
  split
  next => exact h
  next => exact h.replaceAt hnode _

/-- Neither a plain name more nor a name less violates the property. -/
structure Kept (P : List String → Prop) : Prop where
  nil : P []
  place : ∀ (entries : List (String × Node)) (name : String) (node : Node),
    Path.isPlain name = true → P (Entries.names entries) →
      P (Entries.names (Entries.place name node entries))
  erase : ∀ (entries : List (String × Node)) (name : String),
    P (Entries.names entries) → P (Entries.names (Entries.erase name entries))

theorem kept_ordered : Kept fun names => names.Pairwise (· < ·) where
  nil := List.Pairwise.nil
  place _ name node _ h := Entries.increasing_place h name node
  erase _ name h := Entries.increasing_erase h name

theorem kept_plain : Kept fun names => ∀ name ∈ names, Path.isPlain name = true where
  nil := List.forall_mem_nil _
  place _ _ _ hname h other hother := by
    rcases Entries.mem_names_place hother with rfl | hold
    · exact hname
    · exact h other hold
  erase _ _ h other hother := h other ((List.filter_sublist.map _).subset hother)

theorem Edit.keeps_everywhere (hP : Kept P) (hstock : ∀ node, stock node → node.Everywhere P)
    (h : Edit spared stock fs after) (hfs : fs.root.Everywhere P) : after.root.Everywhere P := by
  cases h with
  | @insert _ dir name node hnode h =>
    obtain ⟨hname, entries, hdir, -, rfl⟩ := insert_eq_ok_iff.1 h
    obtain ⟨hnames, hentries⟩ :=
      Node.everywhere_directory_iff.1 (everywhere_of_lookup hfs hdir)
    refine everywhere_overwrite hfs (Node.everywhere_directory_iff.2 ⟨?_, fun entry hentry => ?_⟩) _
    · exact hP.place entries name node hname hnames
    · rcases Entries.mem_of_mem_place hentry with rfl | hold
      · exact hstock node hnode
      · exact hentries entry hold
  | remove _ _ h =>
    obtain ⟨dir, name, entries, -, hdir, -, rfl⟩ := remove_eq_ok_iff.1 h
    obtain ⟨hnames, hentries⟩ :=
      Node.everywhere_directory_iff.1 (everywhere_of_lookup hfs hdir)
    refine everywhere_overwrite hfs (Node.everywhere_directory_iff.2 ⟨?_, fun entry hentry => ?_⟩) _
    · exact hP.erase entries name hnames
    · exact hentries entry (List.mem_filter.1 hentry).1
  | record _ mode => exact everywhere_overwrite hfs (Node.everywhere_file _ mode) _

/-- A property that is kept holds everywhere after all steps that insert only nodes with it. -/
theorem Edits.keeps_everywhere (hP : Kept P) (hstock : ∀ node, stock node → node.Everywhere P)
    (h : Edits spared stock fs after) (hfs : fs.root.Everywhere P) : after.root.Everywhere P :=
  h.keeps (P := fun fs => fs.root.Everywhere P)
    (fun hstep hbefore => hstep.keeps_everywhere hP hstock hbefore) hfs

end Filesystem

end VirtualShell
