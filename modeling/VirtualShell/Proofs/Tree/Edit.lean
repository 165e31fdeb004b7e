import Mathlib.Logic.Relation
import VirtualShell.Proofs.Tree.Entry

/-!
# Steps that change a tree

Every command changes the tree by three kinds of step: it inserts a node under a free name, it removes
what stands at a path, or it records a mode on a file. `Edit` has a constructor for each. Two
parameters say what a step must respect: `spared` are the paths that no removal may name, and `stock`
are the nodes that an insertion may put in.

What a step keeps, any number of steps keep. The main statement is `Edits.keeps_directory`: a directory
stays a directory as long as neither its path nor the path of a directory above it is removed. Nothing
else has to be excluded, since an insertion never overwrites and a mode is recorded on files only.
-/

namespace VirtualShell.Filesystem

/-- One step that changes a tree. -/
inductive Edit (spared : String → Prop) (stock : Node → Prop) : Filesystem → Filesystem → Prop
  | insert {fs after : Filesystem} {dir name : String} {node : Node} (hstock : stock node)
      (h : fs.insert dir name node = .ok after) : Edit spared stock fs after
  | remove {fs after : Filesystem} {path : String} {node : Node} (hnormal : Path.IsNormal path)
      (hspared : ¬ spared path) (h : fs.remove path = .ok (node, after)) : Edit spared stock fs after
  | record {fs : Filesystem} {path content : String} {old : Option String}
      (h : fs.lookup path = some (.file content old)) (mode : Option String) :
      Edit spared stock fs (fs.overwrite path (.file content mode))

/-- Any number of steps. -/
def Edits (spared : String → Prop) (stock : Node → Prop) : Filesystem → Filesystem → Prop :=
  Relation.ReflTransGen (Edit spared stock)

variable {spared : String → Prop} {stock : Node → Prop} {fs after : Filesystem}

theorem Edits.refl : Edits spared stock fs fs := Relation.ReflTransGen.refl

theorem Edits.single (h : Edit spared stock fs after) : Edits spared stock fs after :=
  Relation.ReflTransGen.single h

theorem Edits.trans {between : Filesystem} (h : Edits spared stock fs between)
    (h' : Edits spared stock between after) : Edits spared stock fs after :=
  Relation.ReflTransGen.trans h h'

instance : IsPreorder Filesystem (Edits spared stock) where
  refl _ := Edits.refl
  trans _ _ _ := Edits.trans

/-- What one step keeps, all steps keep. -/
theorem Edits.keeps {P : Filesystem → Prop} (h : Edits spared stock fs after)
    (hstep : ∀ {before next : Filesystem}, Edit spared stock before next → P before → P next)
    (hfs : P fs) : P after := by
  induction h with
  | refl => exact hfs
  | tail _ hlast ih => exact hstep hlast ih

/-! ## What a step leaves -/

/-- Nothing is found through a name that a directory does not have. -/
theorem entry_eq_absent_below {dir name path : String} {entries : List (String × Node)}
    (hdir : fs.lookup dir = some (.directory entries)) (hfree : entries.lookup name = none)
    (hpath : Path.segments dir ++ [name] <+: Path.segments path) : fs.entry path = .absent := by
  obtain ⟨rest, hrest⟩ := hpath
  rw [entry_eq_absent_iff]
  cases hlookup : fs.lookup path with
  | none => rfl
  | some node =>
    obtain ⟨-, hdescend⟩ := lookup_eq_some_iff.1 hlookup
    rw [← hrest, List.append_assoc, Node.descend_append, (lookup_eq_some_iff.1 hdir).2,
      Option.bind_some, List.singleton_append, Node.descend_cons, Node.child?, hfree] at hdescend
    cases hdescend

/-- An insertion changes nothing that was there, since it goes under a free name. -/
theorem entry_insert_of_present {dir name path : String} {node : Node}
    (h : fs.insert dir name node = .ok after) (hpath : fs.entry path ≠ .absent) :
    after.entry path = fs.entry path := by
  obtain ⟨-, entries, hdir, hfree, -⟩ := insert_eq_ok_iff.1 h
  apply entry_insert h
  intro hbelow
  exact hpath (entry_eq_absent_below hdir hfree hbelow)

/-- Recording a mode changes the entry of the file and no other. -/
theorem entry_record {path content : String} {old : Option String}
    (h : fs.lookup path = some (.file content old)) (mode : Option String) (other : String) :
    (fs.overwrite path (.file content mode)).entry other =
      if Path.segments other = Path.segments path then .file content mode else fs.entry other := by
  split
  next hsame =>
    have hrest : Path.segments other = Path.segments path ++ [] := by rw [hsame, List.append_nil]
    rw [entry, lookup_overwrite h hrest rfl, Node.descend_nil]
    rfl
  next hother =>
    apply entry_overwrite h
    intro rest hrest
    cases rest with
    | nil =>
      rw [List.append_nil] at hrest
      exact absurd hrest hother
    | cons name rest => rfl

/-! ## Directories -/

/-- A step that removes neither a directory nor one above it leaves the directory there. -/
theorem Edit.keeps_directory {path : String} (h : Edit spared stock fs after)
    (hspared : ∀ removed, Path.IsNormal removed →
      Path.segments removed <+: Path.segments path → spared removed)
    (hdir : fs.entry path = .directory) : after.entry path = .directory := by
  cases h with
  | insert _ h =>
    have hpresent : fs.entry path ≠ .absent := by
      intro habsent
      rw [hdir] at habsent
      cases habsent
    rw [entry_insert_of_present h hpresent]
    exact hdir
  | remove hnormal hnot h =>
    rw [entry_remove hnormal h fun hprefix => hnot (hspared _ hnormal hprefix)]
    exact hdir
  | record h mode =>
    rw [entry_record h, if_neg]
    · exact hdir
    · intro hsame
      rw [entry, lookup_congr hsame, h] at hdir
      cases hdir

theorem Edits.keeps_directory {path : String} (h : Edits spared stock fs after)
    (hspared : ∀ removed, Path.IsNormal removed →
      Path.segments removed <+: Path.segments path → spared removed)
    (hdir : fs.entry path = .directory) : after.entry path = .directory :=
  h.keeps (P := fun fs => fs.entry path = .directory)
    (fun hstep => hstep.keeps_directory hspared) hdir

end VirtualShell.Filesystem
