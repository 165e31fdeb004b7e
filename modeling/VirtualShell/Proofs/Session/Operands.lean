import VirtualShell.Proofs.Command.Operands
import VirtualShell.Proofs.Session.Run

/-!
# Lines with several operands

A line that calls a command for several operands (`InTurn`) does what as many lines do that call it for one
operand each. The later operands find the tree as the earlier ones have left it, in one line as in several
ones; and a line that reports several failures says what the single lines say. The edits that one line
carries out are the common ground: `feed_edits` says what a line does with them, and `after_singles` that
single lines carry them out one by one.
-/

namespace VirtualShell.Session

variable {edit : Environment → String → Edited CommandError}

/-- A report shows the message of every failure on a line of its own. -/
theorem shown_report (failures : List CommandError) :
    shown (report failures) = Text.unlines (failures.map CommandError.message) := by
  rw [report.eq_def]
  split
  next => rfl
  next => rfl
  next => rfl

/-- The output for one operand, if it is not empty, is the message of its failure. -/
theorem filter_shown_failure {failure : Option CommandError}
    (h : ∀ {cause}, failure = some cause → cause.message ≠ "") :
    [Text.unlines (failure.toList.map CommandError.message)].filter (· ≠ "") =
      failure.toList.map CommandError.message := by
  cases failure with
  | none => rfl
  | some cause =>
    have hworded : decide (cause.message ≠ "") = true := decide_eq_true (h rfl)
    exact List.filter_cons_of_pos hworded

/-- What a line does that carries out an edit for some operands. -/
theorem feed_edits (hedit : PlainEdit edit) {session : Session} {input : Input} {operands : List String}
    (hcall : ∀ env, session.registry.call env input.words = .ofEdits edit env operands)
    {env : Environment} (hworld : env.toWorld = session.world) (hconfig : env.config = session.config) :
    (session.feed input).1.world =
        { session.world with tree := (editEach edit env operands).1 } ∧
      (session.feed input).2.output =
        Text.unlines ((editEach edit env operands).2.map CommandError.message) := by
  obtain ⟨env', hworld', hconfig', hnext, houtput⟩ := session.feed_eq input
  have hsame : editEach edit env' operands = editEach edit env operands :=
    hedit.editEach_congr (hworld'.trans hworld.symm) (hconfig'.trans hconfig.symm) operands
  rw [hcall, Outcome.ofEdits, hsame] at hnext houtput
  rw [hworld'] at hnext
  exact ⟨hnext.trans (settle_eq_self rfl), houtput.trans (shown_report _)⟩

/-- Lines that carry out an edit for one operand each. -/
theorem after_singles (hedit : PlainEdit edit) {call operands : List String} {session : Session}
    (hcall : ∀ operand ∈ operands, ∀ env,
      session.registry.call env (call ++ [operand]) = .ofEdits edit env [operand])
    {inputs : List Input}
    (hinputs : inputs.map Input.words = operands.map fun operand => call ++ [operand])
    {env : Environment} (hworld : env.toWorld = session.world) (hconfig : env.config = session.config) :
    (session.after inputs).world =
        { session.world with tree := (editEach edit env operands).1 } ∧
      ((session.answers inputs).map Answer.output).filter (· ≠ "") =
        (editEach edit env operands).2.map CommandError.message := by
  induction operands generalizing session inputs env with
  | nil =>
    obtain rfl := List.map_eq_nil_iff.1 hinputs
    rw [after_nil, editEach, hworld]
    exact ⟨rfl, rfl⟩
  | cons operand rest ih =>
    obtain ⟨input, others, rfl, hwords, hothers⟩ := List.map_eq_cons_iff.1 hinputs
    obtain ⟨hfirst, hrest⟩ := List.forall_mem_cons.1 hcall
    have hline : ∀ env, session.registry.call env input.words = .ofEdits edit env [operand] := by
      rw [hwords]
      exact hfirst
    obtain ⟨hnext, houtput⟩ := feed_edits hedit hline hworld hconfig
    -- the surroundings in which the other lines begin
    have hworld' : (env.withTree (edit env operand).tree).toWorld = (session.feed input).1.world := by
      rw [hnext, ← hworld]
      rfl
    rw [← session.feed_registry input] at hrest
    obtain ⟨hafter, houtputs⟩ :=
      ih hrest hothers hworld' (hconfig.trans (session.feed_config input).symm)
    constructor
    · rw [after_cons, hafter, hnext]
      rfl
    · have hone : (editEach edit env [operand]).2 = (edit env operand).failure.toList :=
        List.append_nil _
      have hmore : (editEach edit env (operand :: rest)).2 = (edit env operand).failure.toList ++
          (editEach edit (env.withTree (edit env operand).tree) rest).2 := rfl
      rw [answers, List.map_cons, ← List.singleton_append, List.filter_append, houtputs, houtput,
        hone, filter_shown_failure hedit.worded, hmore, List.map_append]

/-- **Operands are handled as if each had a line of its own.** A line calls `mkdir`, `touch` or `rm` with
flags, or `chmod` with a mode, for one operand or more. Lines that call the same for one operand each leave
the same tree, current directory and variables, and what the one line puts out are the outputs of these
lines that are not empty, in order and each on a line of its own. This holds for every session with the
standard commands, whatever its world is and whichever of the operands fail. -/
theorem operands_in_turn {session : Session} (hregistry : session.registry = .standard)
    {call operands : List String} (hcall : InTurn call operands) (hne : operands ≠ [])
    {input : Input} (hinput : input.words = call ++ operands) {singles : List Input}
    (hsingles : singles.map Input.words = operands.map fun operand => call ++ [operand]) :
    (session.feed input).1.world = (session.after singles).world ∧
      (session.feed input).2.output = Text.unlines
        (((session.answers singles).map Answer.output).filter (· ≠ "")) := by
  obtain ⟨edit, hedit, hcalls⟩ := hcall.exists_edit
  rw [← hregistry] at hcalls
  have hall : ∀ env, session.registry.call env input.words = .ofEdits edit env operands := by
    rw [hinput]
    exact hcalls operands (List.Subset.refl operands) hne
  have heach : ∀ operand ∈ operands, ∀ env,
      session.registry.call env (call ++ [operand]) = .ofEdits edit env [operand] := by
    intro operand hmem
    exact hcalls [operand] (List.cons_subset.2 ⟨hmem, List.nil_subset _⟩) (List.cons_ne_nil _ _)
  have hworld : (session.environment input.clock).toWorld = session.world := rfl
  have hconfig : (session.environment input.clock).config = session.config := rfl
  obtain ⟨hnext, houtput⟩ := feed_edits hedit hall hworld hconfig
  obtain ⟨hafter, houtputs⟩ := after_singles hedit heach hsingles hworld hconfig
  exact ⟨hnext.trans hafter.symm, houtput.trans (congrArg Text.unlines houtputs.symm)⟩

/-- Removals below the home directory: the second operand is gone with the first one, the third is the
directory above all, and the last one is removed all the same. -/
theorem operands_in_turn_removals :
    let input : Input := ⟨"", "rm -r documents documents/notes.txt / projects"⟩
    let singles : List Input := [⟨"", "rm -r documents"⟩, ⟨"", " rm -r documents/notes.txt"⟩,
      ⟨"", "rm -r /"⟩, ⟨"", "rm\t-r projects"⟩]
    let call := ["rm", "-r"]
    let operands := ["documents", "documents/notes.txt", "/", "projects"]
    InTurn call operands ∧ operands ≠ [] ∧ input.words = call ++ operands ∧
      (singles.map Input.words = operands.map fun operand => call ++ [operand]) ∧
      ∃ session, start Node.teachingTree Config.usual = .ok session ∧
        session.registry = .standard ∧
        (session.feed input).1.world = (session.after singles).world ∧
        (session.feed input).2.output = Text.unlines
          (((session.answers singles).map Answer.output).filter (· ≠ "")) := by
  intro input singles call operands
  have hcall : InTurn call operands := .flags (by decide) (by decide) (by decide)
  have hne : operands ≠ [] := List.cons_ne_nil _ _
  have hinput : input.words = call ++ operands := by decide
  have hsingles : singles.map Input.words = operands.map fun operand => call ++ [operand] := by
    decide
  obtain ⟨session, hstart, hregistry, -⟩ :=
    @start_eq Node.teachingTree Config.usual rfl rfl
  exact ⟨hcall, hne, hinput, hsingles, session, hstart, hregistry,
    operands_in_turn hregistry hcall hne hinput hsingles⟩

end VirtualShell.Session
