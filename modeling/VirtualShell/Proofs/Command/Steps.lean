import Mathlib.Order.Defs.Unbundled
import VirtualShell.Command.Creation
import VirtualShell.Command.Permission
import VirtualShell.Command.Removal
import VirtualShell.Proofs.Command.Expression
import VirtualShell.Proofs.Result

/-!
# The steps of commands with operands

A command with operands changes the tree for one operand after another, and each change is a few single
edits. So if a preorder holds between the trees before and after every such edit, it holds between the trees
before and after the command. The lemmas here say, for each command, which edits those are. What the
preorder says about trees is left to the modules that choose one.
-/

namespace VirtualShell

/-! ## Surroundings -/

@[simp]
theorem Environment.withTree_withTree (env : Environment) (first second : Filesystem) :
    (env.withTree first).withTree second = env.withTree second := rfl

/-- Putting a failure into words changes no tree. -/
@[simp]
theorem Edited.tree_inContext (context : String) (edited : Edited TreeError) :
    (edited.inContext context).tree = edited.tree := rfl

@[simp]
theorem Edited.failure_inContext_eq_none_iff {context : String} {edited : Edited TreeError} :
    (edited.inContext context).failure = none ↔ edited.failure = none :=
  Option.map_eq_none_iff

variable {R : Filesystem → Filesystem → Prop} [IsPreorder Filesystem R] {env : Environment}

/-! ## Operands in turn -/

/-- The first operand is handled first, and the others on the tree that it leaves. -/
theorem editEach_cons_tree (edit : Environment → String → Edited CommandError) (env : Environment)
    (operand : String) (rest : List String) :
    (editEach edit env (operand :: rest)).1 =
      (editEach edit (env.withTree (edit env operand).tree) rest).1 := rfl

/-- With one operand a command reports the failure of its edit, and leaves what that leaves. -/
theorem editAll_single (edit : Environment → String → Edited CommandError) (env : Environment)
    (operand : String) :
    editAll edit env [operand] = ((edit env operand).tree, report (edit env operand).failure.toList) := by
  simp only [editAll, editEach, List.append_nil]
  rfl

/-- What holds after an edit that does not fail holds after a command that succeeds with one operand. -/
theorem holds_of_single {edit : Environment → String → Edited CommandError} {operand : String}
    {result : Filesystem × Except CommandError Output} {P : Filesystem → Prop}
    (hresult : result = editAll edit env [operand])
    (hedit : (edit env operand).failure = none → P (edit env operand).tree) (hok : result.2.isOk = true) :
    P result.1 := by
  rw [hresult, editAll_single] at hok ⊢
  apply hedit
  cases hfailure : (edit env operand).failure with
  | none => rfl
  | some cause =>
    rw [hfailure] at hok
    cases hok

/-- If what one operand leaves is a matter of the tree and of the path, so is what all of them leave. -/
theorem editEach_eq_foldl {edit : Environment → String → Edited CommandError}
    {step : Filesystem → String → Filesystem}
    (hedit : ∀ tree operand,
      (edit (env.withTree tree) operand).tree = step tree (env.absolute operand))
    (operands : List String) (tree : Filesystem) :
    (editEach edit (env.withTree tree) operands).1 =
      operands.foldl (fun tree operand => step tree (env.absolute operand)) tree := by
  induction operands generalizing tree with
  | nil => rfl
  | cons operand rest ih =>
    rw [editEach_cons_tree, Environment.withTree_withTree, hedit, ih, List.foldl_cons]

/-- Every failure is that of an operand on the tree that was left to it. -/
theorem exists_of_mem_editEach {edit : Environment → String → Edited CommandError} {operands : List String}
    {failure : CommandError} (h : failure ∈ (editEach edit env operands).2) :
    ∃ tree operand, operand ∈ operands ∧ (edit (env.withTree tree) operand).failure = some failure := by
  induction operands generalizing env with
  | nil => cases h
  | cons operand rest ih =>
    obtain hfirst | hrest := List.mem_append.1 h
    · exact ⟨env.tree, operand, List.mem_cons_self, Option.mem_toList.1 hfirst⟩
    · obtain ⟨tree, other, hother, hfailure⟩ := ih hrest
      exact ⟨tree, other, List.mem_cons_of_mem _ hother, hfailure⟩

/-- A report that is a failure is the failure of one operand. -/
theorem mem_of_report_eq_error {failures : List CommandError} {failure : CommandError}
    (h : report failures = .error failure) : failure ∈ failures := by
  match failures with
  | [] => cases h
  | [only] =>
    cases h
    exact List.mem_singleton_self _
  | _ :: _ :: _ => cases h

/-- Without operands a command is refused and leaves the tree as it is, as edits for no operands do. -/
theorem tree_editAll_unless_empty (edit : Environment → String → Edited CommandError) (env : Environment)
    (operands : List String) (refusal : Except CommandError Output) :
    (if operands.isEmpty then (env.tree, refusal) else editAll edit env operands).1 =
      (editEach edit env operands).1 := by
  cases operands with
  | nil => rfl
  | cons operand rest => rfl

/-- An edit in place that is a single step does what the step does, or nothing. -/
theorem related_ofExcept {ε : Type} {before : Filesystem} {result : Except ε Filesystem}
    (h : ∀ after, result = .ok after → R before after) :
    R before (Edited.ofExcept before result).tree := by
  cases result with
  | error failure => exact refl_of R before
  | ok after => exact h after rfl

/-- The operands are handled in the same surroundings, but for the tree. -/
theorem related_editEach {edit : Environment → String → Edited CommandError}
    (hedit : ∀ tree operand, R tree (edit (env.withTree tree) operand).tree)
    (operands : List String) (tree : Filesystem) :
    R tree (editEach edit (env.withTree tree) operands).1 := by
  induction operands generalizing tree with
  | nil => exact refl_of R tree
  | cons operand rest ih => exact trans_of R (hedit tree operand) (ih _)

theorem related_editAll {edit : Environment → String → Edited CommandError}
    (hedit : ∀ tree operand, R tree (edit (env.withTree tree) operand).tree)
    (operands : List String) : R env.tree (editAll edit env operands).1 :=
  related_editEach hedit operands env.tree

/-! ## Making -/

section

variable (hmake : ∀ {fs after : Filesystem} {dir name : String},
  fs.insert dir name Node.emptyDirectory = .ok after → R fs after)
include hmake

theorem related_makeChain (names : List String) (dir : String) (tree : Filesystem) :
    R tree (tree.makeChain dir names).tree := by
  induction names generalizing dir tree with
  | nil => exact refl_of R tree
  | cons name rest ih =>
    rw [Filesystem.makeChain]
    split
    next => exact ih _ tree
    next => exact refl_of R tree
    next =>
      split
      next made hmade => exact trans_of R (hmake hmade) (ih _ made)
      next => exact refl_of R tree

theorem related_makeParents (tree : Filesystem) (path : String) :
    R tree (tree.makeParents path).tree := by
  rw [Filesystem.makeParents]
  split
  next => exact refl_of R tree
  next => exact related_makeChain hmake _ _ tree

omit [IsPreorder Filesystem R] in
theorem related_makeDirectory {tree after : Filesystem} {path : String}
    (h : tree.makeDirectory path = .ok after) : R tree after := by
  unfold Filesystem.makeDirectory at h
  split at h
  next => exact hmake h
  next => cases h

theorem Command.related_runMkdir (args : List String) : R env.tree (runMkdir env args).1 := by
  simp only [runMkdir]
  split
  next => exact refl_of R env.tree
  next =>
    apply related_editAll
    intro tree operand
    simp only [mkdirOne, Edited.inContext]
    split
    next => exact related_makeParents hmake tree _
    next => exact related_ofExcept fun after h => related_makeDirectory hmake h

end

namespace Command

theorem related_runTouch
    (hmake : ∀ {fs after : Filesystem} {dir name : String},
      fs.insert dir name Node.emptyFile = .ok after → R fs after)
    (args : List String) : R env.tree (runTouch env args).1 := by
  simp only [runTouch]
  split
  next => exact refl_of R env.tree
  next =>
    apply related_editAll
    intro tree operand
    apply related_ofExcept
    intro after h
    rw [touchOne, Result.mapError_eq_ok_iff, Filesystem.touch] at h
    split at h
    next =>
      cases h
      exact refl_of R tree
    next =>
      split at h
      next => exact hmake h
      next =>
        cases h
        exact refl_of R tree

/-! ## Removing and recording -/

/-- A removal of one operand that succeeds passes over what names nothing, or it has made all checks and takes
something out. -/
theorem removeOne_eq_ok {removal : Removal} {operand : String} {after : Filesystem}
    (h : removeOne removal env operand = .ok after) :
    env.tree.lookup (env.absolute operand) = none ∧ after = env.tree ∨
      Path.isDots (lastTyped operand) = false ∧
      (∃ node, env.tree.lookup (env.absolute operand) = some node ∧
        (node.isDirectory = true → removal.recursive = true)) ∧
      env.absolute operand ≠ Path.root ∧ Path.isWithin env.cwd (env.absolute operand) = false ∧
      ∃ removed, env.tree.remove (env.absolute operand) = .ok (removed, after) := by
  -- the checks in order
  simp only [removeOne] at h
  split at h
  next => cases h
  next hdots =>
    split at h
    next hlookup =>
      split at h
      next => exact .inl ⟨hlookup, (Except.ok.inj h).symm⟩
      next => cases h
    next node hlookup =>
      split at h
      next => cases h
      next hwhole =>
        split at h
        next => cases h
        next hroot =>
          split at h
          next => cases h
          next hunused =>
            rw [Result.mapError_eq_ok_iff, Result.map_eq_ok_iff] at h
            obtain ⟨⟨removed, _⟩, hremoved, rfl⟩ := h
            exact .inr ⟨by simpa using hdots, ⟨node, hlookup, by simpa using hwhole⟩, hroot,
              by simpa using hunused, removed, hremoved⟩

/-- What is removed is neither the current directory nor above it. -/
theorem related_runRm
    (hremove : ∀ {fs after : Filesystem} {path : String} {node : Node}, Path.IsNormal path →
      ¬ Path.isWithin env.cwd path = true → fs.remove path = .ok (node, after) → R fs after)
    (args : List String) : R env.tree (runRm env args).1 := by
  simp only [runRm]
  split
  next => exact refl_of R env.tree
  next =>
    apply related_editAll
    intro tree operand
    apply related_ofExcept
    intro after h
    rcases removeOne_eq_ok h with ⟨-, hnone⟩ | ⟨-, -, -, hunused, node, hremoved⟩
    · rw [hnone]
      exact refl_of R tree
    · refine hremove (Path.isNormal_absolute _ _) ?_ hremoved
      rw [Bool.not_eq_true]
      exact hunused

/-- A mode is recorded on files only. -/
theorem related_runChmod
    (hrecord : ∀ {fs : Filesystem} {path content : String} {old : Option String} (mode : Option String),
      fs.lookup path = some (.file content old) → R fs (fs.overwrite path (.file content mode)))
    (args : List String) : R env.tree (runChmod env args).1 := by
  rw [runChmod.eq_def]
  split
  next => exact refl_of R env.tree
  next => exact refl_of R env.tree
  next mode files _ =>
    split
    next =>
      apply related_editAll
      intro tree operand
      apply related_ofExcept
      intro after h
      simp only [recordMode] at h
      split at h
      next hlookup =>
        cases h
        exact hrecord (some mode) hlookup
      next =>
        cases h
        exact refl_of R tree
      next => cases h
    next => exact refl_of R env.tree

end Command

end VirtualShell
