import VirtualShell.Registry.Standard

/-!
# Calls that handle operands in turn

Four commands handle each operand by an edit of its own: `mkdir`, `touch` and `rm` behind their flags, and
`chmod` behind a mode. For such a call (`InTurn`) there is one edit, the same for every choice among the
operands, and the call carries out that edit for each operand and reports what failed
(`InTurn.exists_edit`). What the edit does to an operand depends on the world and the settings only
(`PlainEdit`), so that it does not matter when the operand is handled, but for what the tree is then.
-/

namespace VirtualShell

/-! ## Failures have words -/

/-- A text that ends in another one is not empty. -/
private theorem append_ne_empty {start tail : String} (h : tail ≠ "") : start ++ tail ≠ "" :=
  fun hempty => h (String.append_eq_empty_iff.1 hempty).2

theorem TreeError.message_inContext_ne_empty (context : String) (cause : TreeError) :
    (cause.inContext context).message ≠ "" := by
  cases cause with
  | missing path => exact append_ne_empty (by decide)
  | notDirectory path => exact append_ne_empty (by decide)
  | occupied path => exact append_ne_empty (by decide)
  | badName name => exact append_ne_empty (by decide)

/-! ## Edits for one operand -/

/-- An edit for one operand that looks at the world and the settings only, and does not fail without a
word. -/
structure PlainEdit (edit : Environment → String → Edited CommandError) : Prop where
  /-- The lines entered so far and the time of day do not count. -/
  timeless : ∀ {env env' : Environment}, env.toWorld = env'.toWorld → env.config = env'.config →
    edit env = edit env'
  /-- A failure has a message. -/
  worded : ∀ {env : Environment} {operand : String} {failure : CommandError},
    (edit env operand).failure = some failure → failure.message ≠ ""

/-- What several operands do together depends on no more than what each does. -/
theorem PlainEdit.editEach_congr {edit : Environment → String → Edited CommandError}
    (h : PlainEdit edit) {env env' : Environment} (hworld : env.toWorld = env'.toWorld)
    (hconfig : env.config = env'.config) (operands : List String) :
    editEach edit env operands = editEach edit env' operands := by
  induction operands generalizing env env' with
  | nil => rw [editEach, editEach, hworld]
  | cons operand rest ih =>
    have hnext : (env.withTree (edit env operand).tree).toWorld =
        (env'.withTree (edit env' operand).tree).toWorld := by
      rw [h.timeless hworld hconfig]
      simp only [Environment.withTree, hworld]
    rw [editEach, editEach, ih hnext hconfig, h.timeless hworld hconfig]

namespace Command

theorem plainEdit_mkdirOne (parents : Bool) : PlainEdit (mkdirOne parents) where
  timeless := by
    rintro ⟨world, _, config, _⟩ ⟨_, _, _, _⟩ rfl rfl
    rfl
  worded := by
    intro env operand failure h
    rw [mkdirOne, Edited.inContext] at h
    obtain ⟨cause, -, rfl⟩ := Option.map_eq_some_iff.1 h
    exact cause.message_inContext_ne_empty _

theorem plainEdit_singly {edit : Environment → String → Except CommandError Filesystem}
    (htimeless : ∀ {env env' : Environment}, env.toWorld = env'.toWorld → env.config = env'.config →
      edit env = edit env')
    (hworded : ∀ {env : Environment} {operand : String} {failure : CommandError},
      edit env operand = .error failure → failure.message ≠ "") : PlainEdit (singly edit) where
  timeless := by
    intro env env' hworld hconfig
    have htree : env.tree = env'.tree := by rw [hworld]
    funext operand
    rw [singly, singly, htimeless hworld hconfig, htree]
  worded := by
    intro env operand failure h
    rw [singly] at h
    cases hedit : edit env operand with
    | ok after =>
      rw [hedit] at h
      cases h
    | error cause =>
      rw [hedit] at h
      cases h
      exact hworded hedit

/-- A failure of the tree that is put into the words of a command. -/
theorem message_ne_empty_of_mapError {α : Type} {result : Except TreeError α} {context : String}
    {failure : CommandError}
    (h : result.mapError (TreeError.inContext context) = .error failure) : failure.message ≠ "" := by
  cases result with
  | ok after => cases h
  | error cause =>
    cases h
    exact cause.message_inContext_ne_empty context

theorem plainEdit_touchOne : PlainEdit (singly touchOne) := by
  refine plainEdit_singly ?_ ?_
  · rintro ⟨world, _, config, _⟩ ⟨_, _, _, _⟩ rfl rfl
    rfl
  · intro env operand failure h
    exact message_ne_empty_of_mapError h

theorem plainEdit_removeOne (removal : Removal) : PlainEdit (singly (removeOne removal)) := by
  refine plainEdit_singly ?_ ?_
  · rintro ⟨world, _, config, _⟩ ⟨_, _, _, _⟩ rfl rfl
    rfl
  · intro env operand failure h
    simp only [removeOne] at h
    split at h
    next =>
      cases h
      exact append_ne_empty (by decide)
    next =>
      split at h
      next =>
        split at h
        next => cases h
        next =>
          cases h
          exact append_ne_empty (by decide)
      next =>
        split at h
        next =>
          cases h
          exact append_ne_empty (by decide)
        next =>
          split at h
          next =>
            cases h
            decide
          next =>
            split at h
            next =>
              cases h
              exact append_ne_empty (by decide)
            next => exact message_ne_empty_of_mapError h

theorem plainEdit_recordMode (mode : String) : PlainEdit (singly (recordMode mode)) := by
  refine plainEdit_singly ?_ ?_
  · rintro ⟨world, _, config, _⟩ ⟨_, _, _, _⟩ rfl rfl
    rfl
  · intro env operand failure h
    simp only [recordMode] at h
    split at h
    next => cases h
    next => cases h
    next =>
      cases h
      exact append_ne_empty (by decide)

end Command

/-! ## Calls -/

/-- Flags in front of operands are the flags, and the operands the operands. -/
theorem flagsOf_operandsOf_append {flags operands : List String}
    (hflags : ∀ flag ∈ flags, (flagLetters? flag).isSome = true)
    (hoperands : ∀ operand ∈ operands, flagLetters? operand = none) :
    flagsOf (flags ++ operands) = flagsOf flags ∧ operandsOf (flags ++ operands) = operands := by
  constructor
  · have hnone : flagsOf operands = [] := by
      rw [flagsOf, List.flatMap_eq_nil_iff]
      intro operand hmem
      rw [hoperands operand hmem]
      rfl
    rw [flagsOf, List.flatMap_append, ← flagsOf, ← flagsOf, hnone, List.append_nil]
  · have hnone : operandsOf flags = [] := by
      rw [operandsOf, List.filter_eq_nil_iff]
      intro flag hmem
      rw [Option.isNone_iff_eq_none, ← ne_eq, ← Option.isSome_iff_ne_none]
      exact hflags flag hmem
    have hall : operandsOf operands = operands := by
      rw [operandsOf, List.filter_eq_self]
      intro operand hmem
      rw [hoperands operand hmem]
      rfl
    rw [operandsOf, List.filter_append, ← operandsOf, ← operandsOf, hnone, hall, List.nil_append]

/-- Words that call a command for operands behind them, one after the other. -/
inductive InTurn : List String → List String → Prop
  /-- Behind flags. -/
  | flags {name : String} {flags operands : List String} (hname : name ∈ ["mkdir", "touch", "rm"])
      (hflags : ∀ flag ∈ flags, (flagLetters? flag).isSome = true)
      (hoperands : ∀ operand ∈ operands, flagLetters? operand = none) :
      InTurn (name :: flags) operands
  /-- Behind a mode. -/
  | mode {mode : String} (operands : List String) (hmode : Command.isMode mode = true) :
      InTurn ["chmod", mode] operands

/-- The outcome of an edit for some operands in turn. -/
def Outcome.ofEdits (edit : Environment → String → Edited CommandError) (env : Environment)
    (operands : List String) : Outcome :=
  ⟨{ env.toWorld with tree := (editEach edit env operands).1 },
    report (editEach edit env operands).2⟩

theorem Outcome.run_edit {run : Environment → List String → Filesystem × Except CommandError Output}
    {edit : Environment → String → Edited CommandError} {env : Environment}
    {args operands : List String} (h : run env args = editAll edit env operands) :
    (Action.edit run).run env args = .ofEdits edit env operands := by
  rw [Action.run, h]
  rfl

/-- The words call for one edit for every operand, whichever of the operands stand behind them. -/
theorem InTurn.exists_edit {call operands : List String} (h : InTurn call operands) :
    ∃ edit, PlainEdit edit ∧ ∀ chosen ⊆ operands, chosen ≠ [] → ∀ env : Environment,
      Registry.standard.call env (call ++ chosen) = .ofEdits edit env chosen := by
  cases h with
  | @flags name flags _ hname hflags hoperands =>
    have hsplit : ∀ chosen ⊆ operands, flagsOf (flags ++ chosen) = flagsOf flags ∧
        operandsOf (flags ++ chosen) = chosen := by
      intro chosen hsub
      apply flagsOf_operandsOf_append hflags
      exact fun operand hmem => hoperands operand (hsub hmem)
    simp only [List.mem_cons, List.not_mem_nil, or_false] at hname
    rcases hname with rfl | rfl | rfl
    · refine ⟨Command.mkdirOne ((flagsOf flags).contains 'p'), Command.plainEdit_mkdirOne _, ?_⟩
      intro chosen hsub hne env
      obtain ⟨hflagged, hchosen⟩ := hsplit chosen hsub
      have hrun : Command.runMkdir env (flags ++ chosen) =
          editAll (Command.mkdirOne ((flagsOf flags).contains 'p')) env chosen := by
        simp only [Command.runMkdir, hflagged, hchosen, List.isEmpty_iff, if_neg hne]
      exact Outcome.run_edit hrun
    · refine ⟨singly Command.touchOne, Command.plainEdit_touchOne, ?_⟩
      intro chosen hsub hne env
      obtain ⟨-, hchosen⟩ := hsplit chosen hsub
      have hrun : Command.runTouch env (flags ++ chosen) =
          editAll (singly Command.touchOne) env chosen := by
        simp only [Command.runTouch, hchosen, List.isEmpty_iff, if_neg hne]
      exact Outcome.run_edit hrun
    · let removal : Command.Removal :=
        { recursive := (flagsOf flags).contains 'r' || (flagsOf flags).contains 'R'
          force := (flagsOf flags).contains 'f' }
      refine ⟨singly (Command.removeOne removal), Command.plainEdit_removeOne removal, ?_⟩
      intro chosen hsub hne env
      obtain ⟨hflagged, hchosen⟩ := hsplit chosen hsub
      have hrun : Command.runRm env (flags ++ chosen) =
          editAll (singly (Command.removeOne removal)) env chosen := by
        simp only [Command.runRm, hflagged, hchosen, List.isEmpty_iff, if_neg hne, removal]
      exact Outcome.run_edit hrun
  | @mode mode _ hmode =>
    refine ⟨singly (Command.recordMode mode), Command.plainEdit_recordMode mode, ?_⟩
    intro chosen _ hne env
    have hrun : Command.runChmod env (mode :: chosen) =
        editAll (singly (Command.recordMode mode)) env chosen := by
      rw [Command.runChmod, if_pos hmode]
      exact hne
    exact Outcome.run_edit hrun

end VirtualShell
