import VirtualShell.Proofs.Command.Relocation
import VirtualShell.Proofs.Command.Steps
import VirtualShell.Proofs.Tree.Undo

/-!
# Moves that are taken back

Planning refuses nothing but what would break a promise of `Plan.Sound`: a plan that keeps its promises is
planned (`planTransfer_of_sound`). So whether a move can be taken back is a question about the plan for the
way back (`Plan.back`), in the tree that the move has left, and not about the checks one by one.

That plan is sound if the place of arrival was free (`Plan.Sound.back_sound`). The promise that needs the
state before the move is the one about the current directory: nothing stood at the place of arrival, so the
current directory, which was there, does not lie within it. On the way back the node leaves the place that
it was put into and enters the place that it was taken out of, and each of these steps undoes one of the
first move (`Plan.Sound.carryOut_back`).
-/

namespace VirtualShell.Command

variable {env next : Environment} {transfer : Transfer} {plan : Plan}

/-! ## Planning -/

/-- No check of a destination fails for a plan that keeps its promises. -/
private theorem planDestination_of_sound (h : plan.Sound env transfer) {source destination : String}
    (htarget : targetOf env plan.path destination = plan.destination.target) :
    planDestination env transfer source destination plan.path plan.node.isDirectory =
      .ok plan.destination := by
  have houtside : ¬ (plan.node.isDirectory && Path.isWithin plan.destination.target plan.path) = true := by
    rw [Bool.and_eq_true]
    rintro ⟨hdirectory, hwithin⟩
    rw [h.outside hdirectory] at hwithin
    cases hwithin
  have hdots : ¬ Path.isDots plan.destination.name = true := by
    rw [h.name_not_dots]
    exact Bool.false_ne_true
  have hparent : ∀ context, checkParent env.tree context plan.destination.parent = .ok () := by
    intro context
    obtain ⟨entries, hlookup⟩ := Filesystem.entry_eq_directory_iff.1 h.parent
    rw [checkParent, hlookup]
  have hreplaces : checkTarget env.tree transfer source destination plan.destination.target
      plan.node.isDirectory = .ok plan.destination.replaces := by
    rw [checkTarget.eq_def]
    cases hcase : plan.destination.replaces with
    | false => rw [h.free hcase]
    | true =>
      obtain ⟨hfile, content, mode, hlookup⟩ := h.replaced hcase
      rw [hlookup, hfile]
  simp only [planDestination, htarget, if_neg h.distinct, if_neg houtside, h.split, if_neg hdots, hparent,
    hreplaces]
  rfl

/-- A plan that keeps its promises is what the operands that name its paths are planned to. -/
theorem planTransfer_of_sound (h : plan.Sound env transfer) {args rest : List String}
    {source destination : String} (hoperands : operandsOf args = source :: destination :: rest)
    (hpath : env.absolute source = plan.path)
    (htarget : targetOf env plan.path destination = plan.destination.target)
    (hcontext : transfer.context source destination = plan.context) :
    planTransfer transfer env args = .ok plan := by
  have hboth : sourceAndDestination transfer args = .ok (source, destination) := by
    rw [sourceAndDestination, hoperands]
  have hmovable : checkSource env source plan.path transfer = .ok () := by
    cases transfer with
    | copy => rfl
    | move =>
      obtain ⟨hroot, hunused⟩ := h.movable rfl
      rw [checkSource, if_neg (by simp [hroot, hunused])]
  refine Result.bind_eq_ok_iff.2 ⟨_, hboth, ?_⟩
  simp only [hpath, h.source]
  refine Result.bind_eq_ok_iff.2 ⟨_, hmovable, ?_⟩
  refine Result.bind_eq_ok_iff.2 ⟨_, planDestination_of_sound h htarget, ?_⟩
  rw [hcontext]
  rfl

/-! ## The way back -/

/-- The plan that takes a node back to the directory and the name that it had. -/
def Plan.back (plan : Plan) (parent name context : String) : Plan where
  path := plan.destination.target
  node := plan.node
  destination := ⟨parent, name, plan.path, false⟩
  context := context

variable {parent name : String}

/-- The name that a source has is plain, since the source was found under it. -/
theorem Plan.Sound.isPlain_of_splitParent (h : plan.Sound env transfer)
    (hsplit : Path.splitParent plan.path = some (parent, name)) : Path.isPlain name = true := by
  obtain ⟨-, hsegment, hsegments⟩ := h.path_normal.of_splitParent hsplit
  obtain ⟨hdots, -⟩ := Filesystem.lookup_eq_some_iff.1 h.source
  rw [hsegments, List.any_append, Bool.or_eq_false_iff] at hdots
  exact Path.isPlain_iff.2 ⟨hsegment, by simpa using hdots.2⟩

/-- Nothing that leads to the current directory stands in the place that a move fills. -/
theorem Plan.Sound.target_not_inUse (h : plan.Sound env transfer)
    (hfree : plan.destination.replaces = false) (hnormal : Path.IsNormal env.cwd)
    (hcwd : env.tree.entry env.cwd = .directory) :
    Path.isWithin env.cwd plan.destination.target = false := by
  rw [← Bool.not_eq_true, Path.isWithin_iff_segments hnormal h.target_normal]
  intro habove
  have hdirectory := Filesystem.entry_eq_directory_upward hcwd habove
  rw [Filesystem.entry_eq_absent_iff.2 (h.free hfree)] at hdirectory
  cases hdirectory

/-- After a move to a free place, the plan for the way back keeps its promises. -/
theorem Plan.Sound.back_sound (h : plan.Sound env .move) (hfree : plan.destination.replaces = false)
    (hnormal : Path.IsNormal env.cwd) (hcwd : env.tree.entry env.cwd = .directory)
    (hsplit : Path.splitParent plan.path = some (parent, name))
    (heffect : plan.Effect .move env.tree next.tree) (hsame : next.cwd = env.cwd) (context : String) :
    (plan.back parent name context).Sound next .move := by
  obtain ⟨-, -, hsegments⟩ := h.path_normal.of_splitParent hsplit
  have hshort : ¬ Path.segments plan.path <+: Path.segments parent := by
    intro hprefix
    have hlength := hprefix.length_le
    rw [hsegments, List.length_append, List.length_singleton] at hlength
    omega
  have hbeside : ¬ Path.segments plan.destination.target <+: Path.segments parent := by
    intro hprefix
    apply h.not_above
    rw [hsegments]
    exact hprefix.trans (List.prefix_append _ _)
  refine {
    path_normal := h.target_normal
    source := heffect.arrives
    movable := fun _ => ⟨?_, ?_⟩
    target_normal := h.path_normal
    split := hsplit
    name_not_dots := ?_
    parent := ?_
    distinct := h.distinct.symm
    outside := fun _ => ?_
    replaced := fun hreplaces => Bool.noConfusion hreplaces
    free := fun _ => heffect.gone rfl plan.path List.prefix_rfl }
  · show plan.destination.target ≠ Path.root
    intro hroot
    have hnone := h.target_segments
    rw [hroot, Path.segments_root] at hnone
    exact absurd hnone.symm (by simp)
  · rw [hsame]
    exact h.target_not_inUse hfree hnormal hcwd
  · exact Path.isDots_of_isPlain (h.isPlain_of_splitParent hsplit)
  · show next.tree.entry parent = .directory
    rw [heffect.elsewhere parent (fun _ => hshort) hbeside]
    exact Filesystem.entry_eq_directory_above h.source hsegments
  · show Path.isWithin plan.path plan.destination.target = false
    rw [← Bool.not_eq_true, Path.isWithin_iff_segments h.path_normal h.target_normal]
    exact h.not_above

/-- Carrying out a move to a free place and then the plan for the way back leaves the tree exactly as it was,
if the names in it are in order. -/
theorem Plan.Sound.carryOut_back (h : plan.Sound env .move) (hfree : plan.destination.replaces = false)
    (hordered : env.tree.root.Ordered) (hsplit : Path.splitParent plan.path = some (parent, name))
    (context : String) :
    carryOut (carryOut env.tree plan .move).tree (plan.back parent name context) .move =
      ⟨env.tree, none⟩ := by
  obtain ⟨taken, cleared, after, htaken, hcleared, hafter, hdone⟩ := h.carryOut_succeeds
  rw [Destination.Clears, if_neg (by simp [hfree])] at hcleared
  subst hcleared
  have hremoved : env.tree.remove plan.path = .ok (plan.node, cleared) := htaken
  have hout := Filesystem.remove_of_insert hafter h.split
  have hin := Filesystem.insert_of_remove hordered hremoved hsplit (h.isPlain_of_splitParent hsplit)
  rw [hdone]
  simp only [carryOut, Plan.back, hout, place, Bool.false_eq_true, if_false, hin]
  rfl

/-- Where nothing stands, nothing is replaced. -/
theorem Plan.Sound.replaces_eq_false {transfer : Transfer} (h : plan.Sound env transfer)
    (hfree : env.tree.lookup plan.destination.target = none) : plan.destination.replaces = false := by
  rw [← Bool.not_eq_true]
  intro hreplaces
  obtain ⟨-, content, mode, hfile⟩ := h.replaced hreplaces
  rw [hfree] at hfile
  cases hfile

/-- A node is put at the very place that an operand names, unless a directory is there. -/
theorem targetOf_eq_absolute {destination : String} (h : env.tree.lookup (env.absolute destination) = none)
    (path : String) : targetOf env path destination = env.absolute destination := by
  rw [targetOf, if_neg]
  rw [Filesystem.isDirectory, h]
  exact Bool.false_ne_true

/-- **A move to a free place is taken back by its operands in the other order**, read in the same directory
and with the same home. -/
theorem runTransfer_back {args args' rest rest' : List String} {source destination : String}
    (hoperands : operandsOf args = source :: destination :: rest)
    (hoperands' : operandsOf args' = destination :: source :: rest')
    (hplan : planTransfer .move env args = .ok plan)
    (hfree : env.tree.lookup (env.absolute destination) = none) (hnormal : Path.IsNormal env.cwd)
    (hcwd : env.tree.entry env.cwd = .directory) (hordered : env.tree.root.Ordered)
    (htree : next.tree = (runTransfer .move env args).1) (hsame : next.cwd = env.cwd)
    (hconfig : next.config = env.config) :
    runTransfer .move next args' = (env.tree, .ok .nothing) := by
  have hsound := planTransfer_sound hplan
  obtain ⟨hpath, htarget⟩ := planTransfer_operands hoperands hplan
  rw [targetOf_eq_absolute hfree] at htarget
  have hunused : plan.destination.replaces = false := by
    apply hsound.replaces_eq_false
    rw [htarget, hfree]
  obtain ⟨parent, name, hsplit⟩ := hsound.path_normal.exists_splitParent hsound.path_ne_root
  have heffect : plan.Effect .move env.tree next.tree := by
    rw [htree]
    exact (runTransfer_of_plan hplan).2
  have hback := hsound.back_sound hunused hnormal hcwd hsplit heffect hsame
    (Transfer.context destination source .move)
  have hgone : next.tree.lookup (next.absolute source) = none := by
    rw [Environment.absolute_congr hsame hconfig, ← hpath]
    exact heffect.gone rfl plan.path List.prefix_rfl
  have hplan' : planTransfer .move next args' =
      .ok (plan.back parent name (Transfer.context destination source .move)) := by
    apply planTransfer_of_sound hback hoperands'
    · rw [Environment.absolute_congr hsame hconfig, ← htarget]
      rfl
    · rw [targetOf_eq_absolute hgone, Environment.absolute_congr hsame hconfig, ← hpath]
      rfl
    · rfl
  have hdone : next.tree = (carryOut env.tree plan .move).tree := by
    obtain ⟨after, hcarried, -⟩ := hsound.effect
    rw [htree, runTransfer_of_carryOut hplan hcarried, hcarried]
  apply runTransfer_of_carryOut hplan'
  rw [hdone]
  exact hsound.carryOut_back hunused hordered hsplit _

end VirtualShell.Command
