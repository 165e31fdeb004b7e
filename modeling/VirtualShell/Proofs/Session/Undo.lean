import VirtualShell.Proofs.Command.Discard
import VirtualShell.Proofs.Session.Names
import VirtualShell.Proofs.Session.Relocation

/-!
# Lines that take back other lines

A line that moves something to a free place is taken back by the line with its operands in the other order,
and a line that creates something there by the removal of its operand. The second line is read in the world
that the first one has left, so its operands mean the same paths: the current directory and the home have not
changed.
-/

namespace VirtualShell.Session

open Command

/-- **A move to a place where nothing stands can be taken back.** If a line moves a source to a destination
whose absolute form names nothing, then the line with the two operands in the other order, entered next,
succeeds too, and the whole world is exactly as it was: the tree, the current directory and the variables.
In between the node is found at the destination, and nothing is left at the source. The operands may be
spelled in any way and lie anywhere, and the node may be a file or a directory. The session is in any state
whose current directory is there; that its tree is `Ordered` says that the lists in it are finite maps, as
after every run. -/
theorem move_undone {session : Session} (hregistry : session.registry = .standard)
    (hgrounded : session.world.Grounded) (hordered : session.world.tree.root.Ordered)
    {input back : Input} {args args' rest rest' : List String} {source destination : String}
    (hwords : input.words = "mv" :: args) (hoperands : operandsOf args = source :: destination :: rest)
    (hback : back.words = "mv" :: args') (hoperands' : operandsOf args' = destination :: source :: rest')
    (hfree : session.world.tree.lookup ((session.surroundings input).absolute destination) = none)
    (hsuccess : session.Succeeds input) :
    let next := (session.feed input).1
    let s := (session.surroundings input).absolute source
    let t := (session.surroundings input).absolute destination
    (∃ node, session.world.tree.lookup s = some node ∧ next.world.tree.lookup t = some node) ∧
      next.world.tree.lookup s = none ∧
      next.Succeeds back ∧ (next.feed back).1.world = session.world := by
  intro next s t
  let env := session.surroundings input
  have hstandard : next.registry = .standard := (session.feed_registry input).trans hregistry
  have hworld : next.world = { session.world with tree := (runTransfer .move env args).1 } := by
    rw [feed_world, @outcome_transfer session hregistry input .move args hwords]
    exact settle_eq_self rfl
  rw [@succeeds_transfer_iff session hregistry input .move args hwords] at hsuccess
  cases hplan : planTransfer .move env args with
  | error failure =>
    rw [hplan] at hsuccess
    cases hsuccess
  | ok plan =>
    have hrun : runTransfer .move (next.surroundings back) args' = (session.world.tree, .ok .nothing) := by
      apply runTransfer_back hoperands hoperands' hplan hfree hgrounded.normal hgrounded.directory hordered
      · show next.world.tree = _
        rw [hworld]
      · show next.world.cwd = session.world.cwd
        rw [hworld]
      · exact session.feed_config input
    have houtcome := @outcome_transfer next hstandard back .move args' hback
    rw [hrun] at houtcome
    have hsound := planTransfer_sound hplan
    have htree : next.world.tree = (runTransfer .move env args).1 := by rw [hworld]
    have heffect : plan.Effect .move env.tree next.world.tree := htree ▸ (runTransfer_of_plan hplan).2
    obtain ⟨hpath, htarget⟩ := planTransfer_operands hoperands hplan
    rw [targetOf_eq_absolute hfree] at htarget
    have hs : plan.path = s := hpath
    have ht : plan.destination.target = t := htarget
    rw [← hs, ← ht]
    refine ⟨⟨plan.node, hsound.source, heffect.arrives⟩, heffect.gone rfl plan.path List.prefix_rfl, ?_, ?_⟩
    · rw [Succeeds, houtcome]
      rfl
    · rw [feed_world, houtcome, hworld]
      exact settle_eq_self rfl

/-- A directory is moved into another one under a new name, spelled with a doubled slash and from the home
directory, and back. -/
theorem move_undone_directory :
    let session : Session :=
      ⟨.standard, ⟨"/home/user", ⟨Node.teachingTree⟩, .initial .usual "/home/user"⟩, [], .usual⟩
    let input : Input := ⟨"", "mv documents ~/projects//papers"⟩
    let back : Input := ⟨"", "mv ~/projects//papers documents"⟩
    session.registry = .standard ∧ session.world.Grounded ∧ session.world.tree.root.Ordered ∧
      input.words = ["mv", "documents", "~/projects//papers"] ∧
      back.words = ["mv", "~/projects//papers", "documents"] ∧
      session.world.tree.lookup ((session.surroundings input).absolute "~/projects//papers") = none ∧
      session.Succeeds input ∧
      (∃ node, session.world.tree.lookup ((session.surroundings input).absolute "documents") = some node ∧
        (session.feed input).1.world.tree.lookup
          ((session.surroundings input).absolute "~/projects//papers") = some node) ∧
      (session.feed input).1.world.tree.lookup ((session.surroundings input).absolute "documents") = none ∧
      (session.feed input).1.Succeeds back ∧
      ((session.feed input).1.feed back).1.world = session.world := by
  intro session input back
  have hgrounded : session.world.Grounded := ⟨by decide, by decide⟩
  have hordered : session.world.tree.root.Ordered := Node.ordered_teachingTree
  have hwords : input.words = ["mv", "documents", "~/projects//papers"] := by decide
  have hback : back.words = ["mv", "~/projects//papers", "documents"] := by decide
  have hsuccess : session.Succeeds input :=
    (@succeeds_transfer_iff session rfl input .move ["documents", "~/projects//papers"] hwords).2
      (by decide)
  have hfree : session.world.tree.lookup
      ((session.surroundings input).absolute "~/projects//papers") = none := by
    rw [← Option.isNone_iff_eq_none]
    decide
  exact ⟨rfl, hgrounded, hordered, hwords, hback, hfree, hsuccess,
    move_undone rfl hgrounded hordered hwords rfl hback rfl hfree hsuccess⟩

/-! ## Creations -/

/-- **A creation where nothing stands can be taken back.** If a line makes a directory or an empty file, or
copies something, at an operand whose absolute form names nothing, then something stands there afterwards. The
recursive removal of that operand, entered next, succeeds without output, and the whole world is exactly as it
was. The operand may be spelled in any way and lie anywhere, and what is copied may be a file or a directory.
The session is in any state whose current directory is there. -/
theorem creation_undone {session : Session} (hregistry : session.registry = .standard)
    (hcwd : session.world.tree.entry session.world.cwd = .directory) {input back : Input} {args : List String}
    {operand : String} (hcreates : Creates input.words operand) (hback : back.words = "rm" :: args)
    (hoperands : operandsOf args = [operand]) (hflags : 'r' ∈ flagsOf args ∨ 'R' ∈ flagsOf args)
    (hfree : session.world.tree.lookup ((session.surroundings input).absolute operand) = none)
    (hsuccess : session.Succeeds input) :
    let next := (session.feed input).1
    next.world.tree.entry ((session.surroundings input).absolute operand) ≠ .absent ∧
      next.Succeeds back ∧ (next.feed back).2.output = "" ∧ (next.feed back).1.world = session.world := by
  intro next
  let env := session.surroundings input
  have hcall : session.outcome input = Registry.standard.call env input.words := by
    rw [outcome, hregistry]
  rw [Succeeds, hcall] at hsuccess
  obtain ⟨after, hputs, hworld⟩ := hcreates.puts hfree hsuccess
  have hnext : next.world = { session.world with tree := after } := by
    apply feed_world_of_edit
    rw [hcall, hworld]
    rfl
  have hstandard : next.registry = .standard := (session.feed_registry input).trans hregistry
  have hthere : (next.surroundings back).tree = after := by
    show next.world.tree = after
    rw [hnext]
  have hhere : (next.surroundings back).cwd = env.cwd := by
    show next.world.cwd = session.world.cwd
    rw [hnext]
  have hrun : runRm (next.surroundings back) args = (session.world.tree, .ok .nothing) :=
    (hthere ▸ hputs).runRm_eq hcwd hhere (session.feed_config input) hoperands hflags
  have houtcome : next.outcome back = ⟨session.world, .ok .nothing⟩ := by
    have hremoval : next.outcome back =
        ⟨{ next.world with tree := (runRm (next.surroundings back) args).1 },
          (runRm (next.surroundings back) args).2⟩ := by
      rw [outcome, hstandard, hback]
      rfl
    rw [hremoval, hrun, hnext]
  refine ⟨?_, ?_, ?_, ?_⟩
  · rw [hnext]
    exact hputs.present
  · rw [Succeeds, houtcome]
    rfl
  · rw [feed_output, houtcome]
    rfl
  · rw [feed_world, houtcome, hnext]
    exact settle_eq_self rfl

/-- A directory with a file in it is copied to a free name, spelled from the home directory, and the copy is
removed. -/
theorem creation_undone_copy :
    let session : Session :=
      ⟨.standard, ⟨"/home/user", ⟨Node.teachingTree⟩, .initial .usual "/home/user"⟩, [], .usual⟩
    let input : Input := ⟨"", "cp documents ~/projects//papers/"⟩
    let back : Input := ⟨"", "rm -r ~/projects//papers/"⟩
    session.registry = .standard ∧ session.world.tree.entry session.world.cwd = .directory ∧
      Creates input.words "~/projects//papers/" ∧ back.words = ["rm", "-r", "~/projects//papers/"] ∧
      session.world.tree.lookup ((session.surroundings input).absolute "~/projects//papers/") = none ∧
      session.Succeeds input ∧
      (session.feed input).1.world.tree.entry
        ((session.surroundings input).absolute "~/projects//papers/") ≠ .absent ∧
      (session.feed input).1.Succeeds back ∧ ((session.feed input).1.feed back).2.output = "" ∧
      ((session.feed input).1.feed back).1.world = session.world := by
  intro session input back
  have hcwd : session.world.tree.entry session.world.cwd = .directory := by decide
  have hwords : input.words = ["cp", "documents", "~/projects//papers/"] := by decide
  have hback : back.words = ["rm", "-r", "~/projects//papers/"] := by decide
  have hcreates : Creates input.words "~/projects//papers/" := .copy hwords rfl
  have hfree : session.world.tree.lookup
      ((session.surroundings input).absolute "~/projects//papers/") = none := by
    rw [← Option.isNone_iff_eq_none]
    decide
  have hsuccess : session.Succeeds input :=
    (@succeeds_transfer_iff session rfl input .copy ["documents", "~/projects//papers/"] hwords).2
      (by decide)
  exact ⟨rfl, hcwd, hcreates, hback, hfree, hsuccess,
    creation_undone rfl hcwd hcreates hback rfl (.inl (by decide)) hfree hsuccess⟩

end VirtualShell.Session
