import VirtualShell.Proofs.Command.Transfer

/-!
# What copying and moving achieve

A transfer changes the tree in up to three steps, all of them planned on the tree before the first one. The
source and the target lie beside each other (`Plan.Sound.not_below`, `Plan.Sound.not_above`), so no step
touches what another one needs, and the effect can be told from the tree before (`Plan.Sound.effect`): the
node arrives at the target, a move leaves nothing at the source, a copy leaves it there, and every path
elsewhere keeps its entry.

The target is named by segments (`landing`): an existing directory takes the node in under the last segment
of its path.
-/

namespace VirtualShell.Command

/-- The path at which a destination puts what stands at `path`. A directory that is there takes it in under
its own name. -/
def landing (env : Environment) (path destination : String) : String :=
  let named := env.absolute destination
  if env.tree.isDirectory named then
    Path.ofSegments (Path.segments named ++ (Path.segments path).getLast?.toList)
  else named

/-- What stands anywhere but at the root lands where it is planned to. -/
theorem targetOf_eq_landing {env : Environment} {path : String} (hnormal : Path.IsNormal path)
    (hroot : path ≠ Path.root) (destination : String) :
    targetOf env path destination = landing env path destination := by
  obtain ⟨dir, name, hsplit⟩ := hnormal.exists_splitParent hroot
  obtain ⟨-, -, hsegments⟩ := hnormal.of_splitParent hsplit
  have hnamed : Path.IsNormal (env.absolute destination) := Path.isNormal_absolute _ _
  have hlast : (Path.segments path).getLast?.toList = [Path.fileName path] := by
    rw [hsegments, List.getLast?_concat, Path.fileName, hsplit]
    rfl
  rw [targetOf, landing, hlast, hnamed.join_eq]

variable {env : Environment} {transfer : Transfer} {plan : Plan}

/-- The root is never transferred, since every target lies below it. -/
theorem Plan.Sound.path_ne_root (h : plan.Sound env transfer) : plan.path ≠ Path.root := by
  intro hroot
  apply h.not_below
  rw [hroot, Path.segments_root]
  exact List.nil_prefix

/-- No path lies both within the source and within the target. -/
theorem Plan.Sound.disjoint (h : plan.Sound env transfer) {path : String}
    (hsource : Path.segments plan.path <+: Path.segments path) :
    ¬ Path.segments plan.destination.target <+: Path.segments path := by
  intro htarget
  rcases List.prefix_or_prefix_of_prefix hsource htarget with hbelow | habove
  · exact h.not_below hbelow
  · exact h.not_above habove

/-! ## What is replaced -/

/-- Only a file is replaced, and only by a file. -/
theorem Plan.Sound.replaces_file (h : plan.Sound env transfer) {old : Node}
    (hold : env.tree.lookup plan.destination.target = some old) :
    old.isDirectory = false ∧ plan.node.isDirectory = false := by
  cases hreplaces : plan.destination.replaces with
  | false =>
    rw [h.free hreplaces] at hold
    cases hold
  | true =>
    obtain ⟨hnode, content, mode, hfile⟩ := h.replaced hreplaces
    rw [hfile] at hold
    cases hold
    exact ⟨rfl, hnode⟩

/-- Whatever stands within the target stands at the target itself, since nothing lies below a file. -/
theorem Plan.Sound.segments_eq_of_present (h : plan.Sound env transfer) {path : String} {old : Node}
    (hold : env.tree.lookup path = some old)
    (hwithin : Path.segments plan.destination.target <+: Path.segments path) :
    Path.segments path = Path.segments plan.destination.target := by
  obtain ⟨rest, hrest⟩ := hwithin
  cases rest with
  | nil => rw [← hrest, List.append_nil]
  | cons name rest =>
    have hdirectory := Filesystem.entry_eq_directory_above hold hrest.symm
    obtain ⟨entries, hlookup⟩ := Filesystem.entry_eq_directory_iff.1 hdirectory
    cases (h.replaces_file hlookup).1

/-! ## The steps -/

/-- Taking the source out leaves what is not within it as it was. -/
theorem Plan.Sound.entry_of_takes (h : plan.Sound env transfer) {taken : Filesystem}
    (htaken : plan.Takes env.tree taken transfer) {other : String}
    (hother : transfer = .move → ¬ Path.segments plan.path <+: Path.segments other) :
    taken.entry other = env.tree.entry other := by
  cases transfer with
  | copy =>
    obtain rfl : taken = env.tree := htaken
    rfl
  | move => exact Filesystem.entry_remove h.path_normal htaken (hother rfl)

/-- Clearing the target leaves every node beside it as it was. -/
theorem Plan.Sound.lookup_of_clears (h : plan.Sound env transfer) {tree cleared : Filesystem}
    (hcleared : plan.destination.Clears tree cleared) {other : String}
    (hbelow : ¬ Path.segments plan.destination.target <+: Path.segments other)
    (habove : ¬ Path.segments other <+: Path.segments plan.destination.target) :
    cleared.lookup other = tree.lookup other := by
  rw [Destination.Clears] at hcleared
  split at hcleared
  next =>
    obtain ⟨old, hremove⟩ := hcleared
    exact Filesystem.lookup_remove_beside h.target_normal hremove hbelow habove
  next => rw [hcleared]

/-- The tree after a planned transfer, told from the tree before. -/
structure Plan.Effect (plan : Plan) (transfer : Transfer) (before after : Filesystem) : Prop where
  /-- The node is found at the target. -/
  arrives : after.lookup plan.destination.target = some plan.node
  /-- A move leaves nothing within the source. -/
  gone : transfer = .move → ∀ path, Path.segments plan.path <+: Path.segments path →
    after.lookup path = none
  /-- A copy leaves the source as it was. -/
  stays : transfer = .copy → after.lookup plan.path = some plan.node
  /-- Every other entry is as it was. -/
  elsewhere : ∀ path, (transfer = .move → ¬ Path.segments plan.path <+: Path.segments path) →
    ¬ Path.segments plan.destination.target <+: Path.segments path →
      after.entry path = before.entry path

/-- **Every planned transfer has its effect.** -/
theorem Plan.Sound.effect (h : plan.Sound env transfer) :
    ∃ after, carryOut env.tree plan transfer = ⟨after, none⟩ ∧
      plan.Effect transfer env.tree after := by
  obtain ⟨taken, cleared, after, htaken, hcleared, hafter, hdone⟩ := h.carryOut_succeeds
  have hframe : ∀ path, ¬ Path.segments plan.destination.target <+: Path.segments path →
      after.entry path = taken.entry path := by
    intro path hpath
    rw [Filesystem.entry_insert hafter (h.target_segments ▸ hpath),
      h.entry_of_clears hcleared hpath]
  refine ⟨after, hdone, ?_, ?_, ?_, ?_⟩
  · rw [Filesystem.lookup_insert hafter h.target_segments rfl]
    rfl
  · rintro rfl path hpath
    have hself : taken.lookup plan.path = none :=
      Filesystem.lookup_remove_self h.path_normal htaken
    rw [← Filesystem.entry_eq_absent_iff, hframe path (h.disjoint hpath),
      Filesystem.entry_eq_absent_iff]
    exact Filesystem.lookup_eq_none_below hself hpath
  · rintro rfl
    obtain rfl : taken = env.tree := htaken
    have hsegments := h.target_segments
    rw [Filesystem.lookup_insert_beside hafter (hsegments ▸ h.not_above) (hsegments ▸ h.not_below),
      h.lookup_of_clears hcleared h.not_above h.not_below, h.source]
  · intro path hsource htarget
    rw [hframe path htarget, h.entry_of_takes htaken hsource]

/-! ## The commands -/

/-- A transfer that is planned succeeds and has its effect. -/
theorem runTransfer_of_plan {args : List String} (hplan : planTransfer transfer env args = .ok plan) :
    (runTransfer transfer env args).2 = .ok .nothing ∧
      plan.Effect transfer env.tree (runTransfer transfer env args).1 := by
  obtain ⟨after, hdone, heffect⟩ := (planTransfer_sound hplan).effect
  rw [runTransfer_of_carryOut hplan hdone]
  exact ⟨rfl, heffect⟩

/-- A transfer succeeds if and only if it can be planned. -/
theorem isOk_runTransfer (transfer : Transfer) (env : Environment) (args : List String) :
    (runTransfer transfer env args).2.isOk = (planTransfer transfer env args).isOk := by
  cases hplan : planTransfer transfer env args with
  | error failure =>
    simp only [runTransfer, hplan]
    rfl
  | ok plan =>
    rw [(runTransfer_of_plan hplan).1]
    rfl

end VirtualShell.Command
