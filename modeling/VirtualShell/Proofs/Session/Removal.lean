import VirtualShell.Proofs.Command.Removal
import VirtualShell.Proofs.Session.Run
import VirtualShell.Tree.Teaching

/-!
# Lines that remove

What a session's tree is after a line that removes, told from the tree before and from the operands, whether
all of them are removed, some or none.
-/

namespace VirtualShell.Session

open Command

/-- A line that removes changes the tree and nothing else, whatever it answers. -/
theorem feed_rm {session : Session} (hregistry : session.registry = .standard) {input : Input}
    {args : List String} (hwords : input.words = "rm" :: args) :
    (session.feed input).1.world =
      { session.world with tree := (runRm (session.surroundings input) args).1 } := by
  apply feed_world_of_edit
  rw [outcome, hregistry, hwords]
  rfl

/-- **What a removal does to the tree.** Nothing is left at a path that lies within the absolute form of an
operand that was removable in the tree before the line, and every other entry is as it was: absent, a
directory, or a file with the same content and mode. So the tree does not depend on the order of the operands
and flags or on how often they are given, and the same line entered again changes nothing. The state of the
session is arbitrary, and the line may fail for any of its operands. -/
theorem removal_closed_form {session : Session} (hregistry : session.registry = .standard) {input : Input}
    {args : List String} (hwords : input.words = "rm" :: args) :
    let env := session.surroundings input
    let before := session.world.tree
    let next := (session.feed input).1
    (∀ path, next.world.tree.entry path =
      if ∃ operand ∈ operandsOf args, Removable env (flagsOf args) operand ∧
          Path.segments (env.absolute operand) <+: Path.segments path
        then .absent else before.entry path) ∧
    (∀ (other : Input) (args' : List String), other.words = "rm" :: args' →
      (∀ flag, flag ∈ flagsOf args' ↔ flag ∈ flagsOf args) →
      (∀ operand, operand ∈ operandsOf args' ↔ operand ∈ operandsOf args) →
        (session.feed other).1.world = next.world) ∧
    ∀ again : Input, again.words = input.words → (next.feed again).1.world = next.world := by
  intro env before next
  have hnext : next.world = { session.world with tree := (runRm env args).1 } :=
    feed_rm hregistry hwords
  refine ⟨?_, ?_, ?_⟩
  · intro path
    rw [hnext]
    exact entry_runRm env args path
  · intro other args' hother hflags hoperands
    have hsame : (runRm (session.surroundings other) args').1 = (runRm env args).1 :=
      @runRm_congr (session.surroundings input) (session.surroundings other) rfl rfl rfl _ _ hflags hoperands
    rw [feed_rm hregistry hother, hsame, hnext]
  · intro again hagain
    have hstandard : next.registry = .standard := (session.feed_registry input).trans hregistry
    have hsame : (runRm (next.surroundings again) args).1 = next.world.tree := by
      apply @runRm_again env
      · show next.world.tree = _
        rw [hnext]
      · show next.world.cwd = session.world.cwd
        rw [hnext]
      · exact session.feed_config input
    rw [feed_rm hstandard (hagain.trans hwords), hsame]

/-- One operand within another, and the current directory, which stays. In the second line the directory is
named twice and the operands come in another order. -/
theorem removal_closed_form_nested :
    let session : Session :=
      ⟨.standard, ⟨"/home/user", ⟨Node.teachingTree⟩, .initial .usual "/home/user"⟩, [], .usual⟩
    let input : Input := ⟨"", "rm -r documents/notes.txt documents ~"⟩
    let other : Input := ⟨"", "rm documents ~ -r documents documents/notes.txt"⟩
    let next := (session.feed input).1
    session.registry = .standard ∧
      input.words = ["rm", "-r", "documents/notes.txt", "documents", "~"] ∧
      next.world.tree.entry "/home/user/documents/readme.txt" = .absent ∧
      next.world.tree.entry "/home/user" = .directory ∧
      (session.feed other).1.world = next.world ∧ (next.feed input).1.world = next.world := by
  intro session input other next
  have hwords : input.words = ["rm", "-r", "documents/notes.txt", "documents", "~"] := by decide
  have hother : other.words = ["rm", "documents", "~", "-r", "documents", "documents/notes.txt"] := by decide
  obtain ⟨hentries, horder, hagain⟩ := @removal_closed_form session rfl input _ hwords
  refine ⟨rfl, hwords, ?_, ?_, horder other _ hother ?_ ?_, hagain input rfl⟩
  · rw [hentries]
    decide
  · rw [hentries]
    decide
  · intro flag
    exact Iff.rfl
  · have hsame : ∀ {names others : List String}, names ⊆ others → others ⊆ names →
        ∀ operand, operand ∈ names ↔ operand ∈ others :=
      fun hnames hothers _ => ⟨fun hmem => hnames hmem, fun hmem => hothers hmem⟩
    exact hsame (by decide) (by decide)

end VirtualShell.Session
