import VirtualShell.Proofs.Command.Creation
import VirtualShell.Proofs.Session.Frame
import VirtualShell.Tree.Teaching

/-!
# Lines that make files and directories

It is no failure of `touch` or of `mkdir -p` that something is there already. What such a line leaves is a
matter of the set of its operands, although some of them may fail and one may make what another one needs or
what is in its way: for each operand there is a step on the tree, whether it fails or not, and the steps can
change places and be repeated (`Supplies.exists_step`). So a line may be thought to begin with any one of its
operands, and what that one makes survives the others.
-/

namespace VirtualShell

open Command

/-- A call that makes what is missing: files, or directories with all above them. -/
def Supplies (name : String) (args : List String) : Prop :=
  name = "touch" ∨ name = "mkdir" ∧ 'p' ∈ flagsOf args

/-- There is one step for every operand, whichever the operands are. -/
theorem Supplies.exists_step {name : String} {args : List String} (h : Supplies name args) :
    ∃ step : Filesystem → String → Filesystem, Orderless step ∧
      ∀ args', Supplies name args' → ∀ env : Environment,
        (Registry.standard.call env (name :: args')).world =
          { env.toWorld with
            tree := (operandsOf args').foldl (fun tree operand => step tree (env.absolute operand))
              env.tree } := by
  rcases h with rfl | ⟨rfl, -⟩
  · refine ⟨_, Filesystem.orderless_withFile, fun args' _ env => ?_⟩
    rw [← runTouch_tree]
    rfl
  · refine ⟨_, Filesystem.orderless_withDirectories, fun args' h' env => ?_⟩
    obtain ⟨-, hparents⟩ := h'.resolve_left (by decide)
    rw [← runMkdir_tree env hparents]
    rfl

/-- What a call with one operand makes is there, if it succeeds. -/
theorem Supplies.present {name : String} {args : List String} (h : Supplies name args) {env : Environment}
    {operand : String} (hoperands : operandsOf args = [operand])
    (hok : (Registry.standard.call env (name :: args)).result.isOk = true) :
    (Registry.standard.call env (name :: args)).world.tree.entry (env.absolute operand) ≠ .absent := by
  let There (tree : Filesystem) : Prop := tree.entry (env.absolute operand) ≠ .absent
  rcases h with rfl | ⟨rfl, hparents⟩
  · exact holds_of_single (P := There) (runTouch_single env hoperands) present_touchOne hok
  · have hrun := runMkdir_single env hoperands
    rw [List.contains_iff_mem.2 hparents] at hrun
    exact holds_of_single (P := There) hrun present_mkdirOne hok

theorem Supplies.not_mem {name : String} {args : List String} (h : Supplies name args) :
    name ∉ ["rm", "cp", "mv"] := by
  rcases h with rfl | ⟨rfl, -⟩ <;> decide

namespace Session

/-- The lines of a command that makes what is missing take a step for every operand. The paths of the operands
may be read in any surroundings with the same current directory and the same settings. -/
theorem exists_feed_step {name : String} {args : List String} (h : Supplies name args) (env : Environment) :
    ∃ step : Filesystem → String → Filesystem, Orderless step ∧
      ∀ {session : Session} {input : Input} {args' : List String}, session.registry = .standard →
        session.world.cwd = env.cwd → session.config = env.config → input.words = name :: args' →
        Supplies name args' → (session.feed input).1.world =
          { session.world with tree := (operandsOf args').foldl step session.world.tree } := by
  obtain ⟨step, horderless, hcall⟩ := h.exists_step
  refine ⟨fun tree operand => step tree (env.absolute operand), horderless.comp _, ?_⟩
  intro session input args' hregistry hcwd hconfig hwords hsame
  have habsolute : (session.surroundings input).absolute = env.absolute :=
    funext (Environment.absolute_congr hcwd hconfig)
  apply feed_world_of_edit
  rw [outcome, hregistry, hwords, hcall args' hsame, habsolute]
  rfl

/-- What a line with one operand makes is there, if the line succeeds. -/
theorem feed_present {session : Session} (hregistry : session.registry = .standard) {input : Input}
    {name operand : String} {args : List String} (hwords : input.words = name :: args)
    (hsupplies : Supplies name args) (hoperands : operandsOf args = [operand])
    (hsuccess : session.Succeeds input) :
    (session.feed input).1.world.tree.entry ((session.surroundings input).absolute operand) ≠ .absent := by
  rw [Succeeds, outcome, hregistry, hwords] at hsuccess
  rw [feed_world, settle_tree, outcome, hregistry, hwords]
  exact hsupplies.present hoperands hsuccess

/-- **Making what is missing is a matter of the set of operands.** A line that makes files, or directories
with all above them, leaves the same world as every line of the same command with the same operands, in
whatever order and however often they are given, and the same line entered again changes nothing. If an
operand alone would succeed, then something stands at its absolute form after the line with all operands. The
state of the session is arbitrary; the operands may fail, may be spelled differently for the same path, and may
lie below each other. -/
theorem making_orderless {session : Session} (hregistry : session.registry = .standard) {input : Input}
    {name : String} {args : List String} (hwords : input.words = name :: args)
    (hsupplies : Supplies name args) :
    let next := (session.feed input).1
    (∀ (other : Input) (args' : List String), other.words = name :: args' → Supplies name args' →
      (∀ operand, operand ∈ operandsOf args' ↔ operand ∈ operandsOf args) →
        (session.feed other).1.world = next.world) ∧
    (∀ again : Input, again.words = input.words → (next.feed again).1.world = next.world) ∧
    ∀ (single : Input) (args' : List String) (operand : String), single.words = name :: args' →
      Supplies name args' → operandsOf args' = [operand] → operand ∈ operandsOf args →
        session.Succeeds single →
          next.world.tree.entry ((session.surroundings single).absolute operand) ≠ .absent := by
  intro next
  obtain ⟨step, horderless, hfeed⟩ := exists_feed_step hsupplies (session.surroundings input)
  have hnext : next.world = { session.world with tree := (operandsOf args).foldl step session.world.tree } :=
    hfeed hregistry rfl rfl hwords hsupplies
  refine ⟨?_, ?_, ?_⟩
  · intro other args' hother hsame hoperands
    rw [hfeed hregistry rfl rfl hother hsame, hnext, horderless.foldl_congr hoperands]
  · intro again hagain
    have hstandard : next.registry = .standard := (session.feed_registry input).trans hregistry
    have hcwd : next.world.cwd = session.world.cwd := by rw [hnext]
    rw [hfeed hstandard hcwd (session.feed_config input) (hagain.trans hwords) hsupplies, hnext,
      horderless.foldl_foldl_of_subset (List.Subset.refl _)]
  · intro single args' operand hsingle hsame hoperand hmem hsuccess
    let first := (session.feed single).1
    have hstandard : first.registry = .standard := (session.feed_registry single).trans hregistry
    have hfirst : first.world = { session.world with tree := step session.world.tree operand } := by
      rw [hfeed hregistry rfl rfl hsingle hsame, hoperand]
      rfl
    have hcwd : first.world.cwd = session.world.cwd := by rw [hfirst]
    -- the line leaves the same if the one operand has been handled before
    have hthen : (first.feed input).1.world = next.world := by
      rw [hfeed hstandard hcwd (session.feed_config single) hwords hsupplies, hnext, hfirst,
        horderless.foldl_step_of_mem hmem]
    have hcommand : input.command ∉ ["rm", "cp", "mv"] := by
      rw [Input.command, ← Input.words, hwords]
      exact hsupplies.not_mem
    rw [← hthen]
    exact ((feed_leaves hstandard input).entries hcommand _).present
      (feed_present hregistry hsingle hsame hoperand hsuccess)

/-- One operand lies below another one and is given twice, and one is refused for a file on the way. -/
theorem making_orderless_nested :
    let session : Session :=
      ⟨.standard, ⟨"/home/user", ⟨Node.teachingTree⟩, .initial .usual "/home/user"⟩, [], .usual⟩
    let input : Input := ⟨"", "mkdir -p drafts/old .bashrc/old drafts drafts/old"⟩
    let other : Input := ⟨"", "mkdir drafts .bashrc/old -p drafts/old"⟩
    let next := (session.feed input).1
    session.registry = .standard ∧
      input.words = ["mkdir", "-p", "drafts/old", ".bashrc/old", "drafts", "drafts/old"] ∧
      Supplies "mkdir" ["-p", "drafts/old", ".bashrc/old", "drafts", "drafts/old"] ∧
      (session.feed other).1.world = next.world ∧ (next.feed input).1.world = next.world ∧
      next.world.tree.entry "/home/user/drafts/old" ≠ .absent := by
  intro session input other next
  have hwords : input.words =
      ["mkdir", "-p", "drafts/old", ".bashrc/old", "drafts", "drafts/old"] := by decide
  have hother : other.words = ["mkdir", "drafts", ".bashrc/old", "-p", "drafts/old"] := by decide
  have hsupplies : Supplies "mkdir" ["-p", "drafts/old", ".bashrc/old", "drafts", "drafts/old"] :=
    .inr ⟨rfl, by decide⟩
  obtain ⟨horder, hagain, hmakes⟩ := @making_orderless session rfl input _ _ hwords hsupplies
  have hsame := @mem_iff_of_subset _ ["drafts", ".bashrc/old", "drafts/old"]
    ["drafts/old", ".bashrc/old", "drafts", "drafts/old"] (by decide) (by decide)
  let single : Input := ⟨"", "mkdir -p drafts/old"⟩
  have hsingle : single.words = ["mkdir", "-p", "drafts/old"] := by decide
  have hpath : (session.surroundings single).absolute "drafts/old" = "/home/user/drafts/old" := by decide
  have hsuccess : session.Succeeds single := by
    have hdone : (mkdirOne true (session.surroundings single) "drafts/old").failure = none := by
      obtain ⟨context, hmade⟩ := mkdirOne_parents (session.surroundings single) "drafts/old"
      rw [hmade, Edited.failure_inContext_eq_none_iff, hpath, ← Option.isNone_iff_eq_none]
      decide
    have hparents : (flagsOf ["-p", "drafts/old"]).contains 'p' = true := by decide
    have hoperands : operandsOf ["-p", "drafts/old"] = ["drafts/old"] := by decide
    rw [Succeeds, outcome, hsingle]
    show (runMkdir (session.surroundings single) ["-p", "drafts/old"]).2.isOk = true
    rw [runMkdir_single _ hoperands, hparents, editAll_single, hdone]
    rfl
  have hthere : next.world.tree.entry ((session.surroundings single).absolute "drafts/old") ≠ .absent :=
    hmakes single ["-p", "drafts/old"] "drafts/old" hsingle (.inr ⟨rfl, by decide⟩) rfl (by decide) hsuccess
  rw [hpath] at hthere
  exact ⟨rfl, hwords, hsupplies, horder other _ hother (.inr ⟨rfl, by decide⟩) hsame, hagain input rfl,
    hthere⟩

end Session

end VirtualShell
