import VirtualShell.Proofs.Command.Operands
import VirtualShell.Proofs.Command.Steps
import VirtualShell.Proofs.Text.Regular
import VirtualShell.Proofs.Tree.Insertion

/-!
# The language of modes

Modes are a regular language: up to four octal digits, or clauses with commas between them (`modes`). `isMode` reads
a text from left to right instead. The letters for users end where the first operator stands, so a clause is cut there
(`isModeClause_iff`), and behind the first operator there may be operators and permissions in any order, since a group
may be empty but for its operator (`followsOperator_iff`, `mem_groups_iff`). A text of digits is no symbolic mode,
since those have an operator.
-/

namespace VirtualShell.Command

open RegularExpression
open VirtualShell.Text

/-! ## Modes as regular expressions -/

/-- One to four octal digits. -/
def octalModes : RegularExpression Char :=
  oneOf "01234567".toList * (1 + oneOf "01234567".toList) ^ 3

/-- An operator and any number of permissions. -/
def modeGroups : RegularExpression Char :=
  oneOf "+-=".toList * star (oneOf "rwxXst".toList)

/-- Any number of users and one or more groups. -/
def modeClauses : RegularExpression Char :=
  star (oneOf "ugoa".toList) * (modeGroups * star modeGroups)

/-- An octal mode, or one or more clauses with a comma between any two. -/
def modes : RegularExpression Char :=
  octalModes + separated ',' modeClauses

variable {c : Char} {clause word : List Char}

/-! ## The tests for characters -/

theorem mem_users_iff : c ∈ "ugoa".toList ↔ isUserLetter c = true := by
  simp [isUserLetter, or_assoc]

theorem mem_operators_iff : c ∈ "+-=".toList ↔ isModeOperator c = true := by
  simp [isModeOperator, or_assoc]

theorem mem_permissions_iff : c ∈ "rwxXst".toList ↔ isPermission c = true := by
  simp [isPermission, or_assoc]

theorem mem_octalDigits_iff : c ∈ "01234567".toList ↔ c.isDigit = true ∧ c < '8' := by
  constructor
  · have hdigits : ∀ c ∈ "01234567".toList, c.isDigit = true ∧ c < '8' := by simp
    exact hdigits c
  · rintro ⟨hdigit, hless⟩
    have hall : ∀ n < 56, 48 ≤ n → Char.ofNat n ∈ "01234567".toList := by decide
    simp only [Char.isDigit, Bool.and_eq_true, decide_eq_true_eq] at hdigit
    have hleast : 48 ≤ c.toNat := UInt32.le_iff_toNat_le.1 hdigit.1
    have hgreatest : c.toNat < 56 := UInt32.lt_iff_toNat_lt.1 hless
    rw [← Char.ofNat_toNat c]
    exact hall _ hgreatest hleast

/-- No operator is a digit, a letter for users or a comma. -/
theorem other_of_isModeOperator (h : isModeOperator c = true) :
    c.isDigit = false ∧ isUserLetter c = false ∧ c ≠ ',' := by
  have hall : ∀ c ∈ "+-=".toList, c.isDigit = false ∧ isUserLetter c = false ∧ c ≠ ',' := by simp [isUserLetter]
  exact hall c (mem_operators_iff.2 h)

/-! ## The parts of a mode -/

theorem mem_octalModes_iff :
    word ∈ octalModes.matches' ↔ isOctalMode word = true ∧ ∀ c ∈ word, c.isDigit = true := by
  have hmem : word ∈ octalModes.matches' ↔
      ∃ c rest, word = c :: rest ∧ rest.length ≤ 3 ∧ ∀ d ∈ c :: rest, d ∈ "01234567".toList := by
    unfold octalModes
    rw [matches'_mul, Language.mem_mul]
    constructor
    · rintro ⟨first, hfirst, rest, hrest, rfl⟩
      obtain ⟨c, hc, rfl⟩ := mem_oneOf_iff.1 hfirst
      obtain ⟨hlength, hrest⟩ := (mem_atMost_oneOf_iff 3).1 hrest
      exact ⟨c, rest, rfl, hlength, List.forall_mem_cons.2 ⟨hc, hrest⟩⟩
    · rintro ⟨c, rest, rfl, hlength, hall⟩
      obtain ⟨hc, hrest⟩ := List.forall_mem_cons.1 hall
      exact ⟨[c], mem_oneOf_iff.2 ⟨c, hc, rfl⟩, rest, (mem_atMost_oneOf_iff 3).2 ⟨hlength, hrest⟩, rfl⟩
  rw [hmem]
  simp only [mem_octalDigits_iff, isOctalMode, Bool.and_eq_true, decide_eq_true_eq, List.all_eq_true]
  constructor
  · rintro ⟨c, rest, rfl, hlength, hall⟩
    refine ⟨⟨⟨Nat.le_add_left 1 _, Nat.succ_le_succ hlength⟩, fun d hd => (hall d hd).2⟩, fun d hd => (hall d hd).1⟩
  · rintro ⟨⟨⟨hfirst, hlength⟩, hless⟩, hdigits⟩
    obtain ⟨c, rest, rfl⟩ := List.exists_cons_of_length_pos hfirst
    exact ⟨c, rest, rfl, Nat.le_of_succ_le_succ hlength, fun d hd => ⟨hdigits d hd, hless d hd⟩⟩

theorem mem_modeGroups_iff : word ∈ modeGroups.matches' ↔
    ∃ c rest, word = c :: rest ∧ isModeOperator c = true ∧ ∀ d ∈ rest, isPermission d = true := by
  unfold modeGroups
  simp only [matches'_mul, Language.mem_mul, mem_oneOf_iff, mem_star_oneOf_iff, mem_operators_iff, mem_permissions_iff]
  constructor
  · rintro ⟨_, ⟨c, hc, rfl⟩, rest, hrest, rfl⟩
    exact ⟨c, rest, rfl, hc, hrest⟩
  · rintro ⟨c, rest, rfl, hc, hrest⟩
    exact ⟨[c], ⟨c, hc, rfl⟩, rest, hrest, rfl⟩

/-- Operators and permissions are permissions and then groups, each of which begins at an operator. -/
theorem exists_permissions_groups (h : ∀ d ∈ word, isModeOperator d = true ∨ isPermission d = true) :
    ∃ permissions groups, word = permissions ++ groups ∧ (∀ d ∈ permissions, isPermission d = true) ∧
      groups ∈ (star modeGroups).matches' := by
  induction word with
  | nil => exact ⟨[], [], rfl, List.forall_mem_nil _, Language.nil_mem_kstar _⟩
  | cons c rest ih =>
    obtain ⟨hc, hrest⟩ := List.forall_mem_cons.1 h
    obtain ⟨permissions, groups, rfl, hpermissions, hgroups⟩ := ih hrest
    obtain hoperator | hpermission := hc
    · have hgroup : c :: permissions ∈ modeGroups.matches' :=
        mem_modeGroups_iff.2 ⟨c, permissions, rfl, hoperator, hpermissions⟩
      exact ⟨[], c :: permissions ++ groups, rfl, List.forall_mem_nil _, append_mem_star hgroup hgroups⟩
    · exact ⟨c :: permissions, groups, rfl, List.forall_mem_cons.2 ⟨hpermission, hpermissions⟩, hgroups⟩

/-- Behind the first operator there are operators and permissions in any order. -/
theorem mem_groups_iff : word ∈ (modeGroups * star modeGroups).matches' ↔
    ∃ c rest, word = c :: rest ∧ isModeOperator c = true ∧
      ∀ d ∈ rest, isModeOperator d = true ∨ isPermission d = true := by
  rw [matches'_mul, Language.mem_mul]
  constructor
  · rintro ⟨first, hfirst, groups, hgroups, rfl⟩
    obtain ⟨c, permissions, rfl, hc, hpermissions⟩ := mem_modeGroups_iff.1 hfirst
    obtain ⟨pieces, rfl, hpieces⟩ := Language.mem_kstar.1 hgroups
    refine ⟨c, permissions ++ pieces.flatten, rfl, hc, List.forall_mem_append.2 ⟨?_, ?_⟩⟩
    · intro d hd
      exact .inr (hpermissions d hd)
    · intro d hd
      obtain ⟨piece, hpiece, hmem⟩ := List.mem_flatten.1 hd
      obtain ⟨operator, more, rfl, hoperator, hmore⟩ := mem_modeGroups_iff.1 (hpieces piece hpiece)
      obtain rfl | hmem := List.mem_cons.1 hmem
      · exact .inl hoperator
      · exact .inr (hmore d hmem)
  · rintro ⟨c, rest, rfl, hc, hrest⟩
    obtain ⟨permissions, groups, rfl, hpermissions, hgroups⟩ := exists_permissions_groups hrest
    exact ⟨c :: permissions, mem_modeGroups_iff.2 ⟨c, permissions, rfl, hc, hpermissions⟩, groups, hgroups, rfl⟩

/-- What follows an operator are operators and permissions in any order, since a group may be empty but for its
operator. -/
theorem followsOperator_iff :
    followsOperator word = true ↔ ∀ d ∈ word, isModeOperator d = true ∨ isPermission d = true := by
  induction word with
  | nil => simp [followsOperator]
  | cons c rest ih =>
    rw [followsOperator, List.forall_mem_cons, ← ih]
    by_cases hpermission : isPermission c = true
    · rw [if_pos hpermission]
      exact (and_iff_right (.inr hpermission)).symm
    · rw [if_neg hpermission, Bool.and_eq_true, or_iff_left hpermission]

/-- A clause is letters for users, an operator, and then operators and permissions in any order. -/
theorem isModeClause_iff : isModeClause clause = true ↔
    ∃ c rest, clause.dropWhile isUserLetter = c :: rest ∧ isModeOperator c = true ∧
      ∀ d ∈ rest, isModeOperator d = true ∨ isPermission d = true := by
  rw [isModeClause]
  cases clause.dropWhile isUserLetter with
  | nil => simp
  | cons c rest => simp [followsOperator_iff]

theorem mem_modeClauses_iff : clause ∈ modeClauses.matches' ↔ isModeClause clause = true := by
  have hmem : clause ∈ modeClauses.matches' ↔
      ∃ users c rest, clause = users ++ c :: rest ∧ (∀ d ∈ users, isUserLetter d = true) ∧
        isModeOperator c = true ∧ ∀ d ∈ rest, isModeOperator d = true ∨ isPermission d = true := by
    rw [modeClauses, matches'_mul, Language.mem_mul]
    simp only [mem_star_oneOf_iff, mem_groups_iff, mem_users_iff]
    constructor
    · rintro ⟨users, husers, _, ⟨c, rest, rfl, hc, hrest⟩, rfl⟩
      exact ⟨users, c, rest, rfl, husers, hc, hrest⟩
    · rintro ⟨users, c, rest, rfl, husers, hc, hrest⟩
      exact ⟨users, husers, c :: rest, ⟨c, rest, rfl, hc, hrest⟩, rfl⟩
  rw [hmem, isModeClause_iff]
  constructor
  · rintro ⟨users, c, rest, rfl, husers, hc, hrest⟩
    have hother : ¬ isUserLetter c = true := by
      rw [(other_of_isModeOperator hc).2.1]
      exact Bool.false_ne_true
    refine ⟨c, rest, ?_, hc, hrest⟩
    rw [List.dropWhile_append_of_pos husers, List.dropWhile_cons_of_neg hother]
  · rintro ⟨c, rest, hbehind, hc, hrest⟩
    refine ⟨clause.takeWhile isUserLetter, c, rest, ?_, List.all_eq_true.1 List.all_takeWhile, hc, hrest⟩
    rw [← hbehind, List.takeWhile_append_dropWhile]

/-- Every clause has an operator. -/
theorem exists_operator_of_isModeClause (h : isModeClause clause = true) :
    ∃ c ∈ clause, isModeOperator c = true := by
  obtain ⟨c, rest, hbehind, hc, -⟩ := isModeClause_iff.1 h
  have hmem : c ∈ clause.dropWhile isUserLetter := hbehind ▸ List.mem_cons_self
  exact ⟨c, List.dropWhile_subset _ hmem, hc⟩

/-- Whatever is in a clause is a letter for users or permissions or an operator. -/
theorem mem_letters_of_mem_modeClause (h : isModeClause clause = true) (hc : c ∈ clause) :
    c ∈ "ugoa+-=rwxXst".toList := by
  have hletters : "ugoa+-=rwxXst".toList = "ugoa".toList ++ ("+-=".toList ++ "rwxXst".toList) := rfl
  rw [hletters, List.mem_append, List.mem_append, mem_users_iff, mem_operators_iff, mem_permissions_iff]
  rw [← List.takeWhile_append_dropWhile (p := isUserLetter) (l := clause), List.mem_append] at hc
  obtain ⟨operator, rest, hbehind, hoperator, hrest⟩ := isModeClause_iff.1 h
  rw [hbehind, List.mem_cons] at hc
  obtain huser | rfl | hmem := hc
  · exact .inl (List.all_eq_true.1 List.all_takeWhile c huser)
  · exact .inr (.inl hoperator)
  · exact .inr (hrest c hmem)

/-! ## Modes -/

theorem comma_not_mem_of_mem_modeClauses (h : clause ∈ modeClauses.matches') : ',' ∉ clause := by
  intro hmem
  have hletter := mem_letters_of_mem_modeClause (mem_modeClauses_iff.1 h) hmem
  exact absurd hletter (by decide)

/-- A symbolic mode is made of clauses. -/
theorem mem_symbolic_iff :
    word ∈ (separated ',' modeClauses).matches' ↔ (word.splitOn ',').all isModeClause = true := by
  rw [mem_separated_iff fun _ => comma_not_mem_of_mem_modeClauses, List.all_eq_true]
  simp only [mem_modeClauses_iff]

/-- Modes are recognized. -/
theorem mem_modes_iff {mode : String} : mode.toList ∈ modes.matches' ↔ isMode mode = true := by
  rw [modes, matches'_add, Language.mem_add, mem_octalModes_iff, mem_symbolic_iff, isMode]
  by_cases hdigits : ∀ c ∈ mode.toList, c.isDigit = true
  · -- without a comma there is one clause, and it would have an operator
    have hcomma : ',' ∉ mode.toList := by
      intro hmem
      exact absurd (hdigits ',' hmem) (by decide)
    have hsymbolic : ¬ (mode.toList.splitOn ',').all isModeClause = true := by
      rw [List.splitOn_eq_singleton hcomma, List.all_cons, List.all_nil, Bool.and_true]
      intro hclause
      obtain ⟨c, hc, hoperator⟩ := exists_operator_of_isModeClause hclause
      exact Bool.false_ne_true ((other_of_isModeOperator hoperator).1.symm.trans (hdigits c hc))
    rw [if_pos (List.all_eq_true.2 hdigits)]
    exact (or_iff_left hsymbolic).trans (and_iff_left hdigits)
  · rw [if_neg (mt List.all_eq_true.1 hdigits)]
    exact or_iff_right fun h => hdigits h.2

/-- A mode is made of octal digits or of letters, operators and commas, and of nothing else. -/
theorem forall_mem_of_mem_modes (h : word ∈ modes.matches') :
    (∀ c ∈ word, c ∈ "01234567".toList) ∨ ∀ c ∈ word, c ∈ "ugoa+-=rwxXst,".toList := by
  obtain hoctal | hsymbolic := h
  · left
    obtain ⟨hoctal, hdigits⟩ := mem_octalModes_iff.1 hoctal
    simp only [isOctalMode, Bool.and_eq_true, List.all_eq_true, decide_eq_true_eq] at hoctal
    exact fun c hc => mem_octalDigits_iff.2 ⟨hdigits c hc, hoctal.2 c hc⟩
  · right
    intro c hc
    have hletters : "ugoa+-=rwxXst,".toList = "ugoa+-=rwxXst".toList ++ [','] := rfl
    rw [hletters, List.mem_append, List.mem_singleton]
    obtain rfl | ⟨clause, hclause, hc⟩ := eq_mark_or_mem_of_separated hsymbolic hc
    · exact .inr rfl
    · exact .inl (mem_letters_of_mem_modeClause (mem_modeClauses_iff.1 hclause) hc)

/-! ## Recording modes -/

section

variable {env : Environment} {operands : List String} {mode : String}

/-- Recording a mode refuses nothing. -/
theorem result_recordMode_ne_refused (reason : Refusal) :
    (Outcome.ofEdits (singly (recordMode mode)) env operands).result ≠ .error (.refused reason) := by
  intro h
  obtain ⟨tree, operand, -, hfailure⟩ := exists_of_mem_editEach (mem_of_report_eq_error h)
  have hrecord := Edited.failure_ofExcept_eq_some_iff.1 hfailure
  simp only [recordMode] at hrecord
  split at hrecord <;> cases hrecord

theorem run_chmod_of_mem_modes (h : mode.toList ∈ modes.matches') (file : String) (files : List String) :
    chmod.action.run env (mode :: file :: files) = .ofEdits (singly (recordMode mode)) env (file :: files) :=
  Outcome.run_edit (if_pos (mem_modes_iff.1 h))

theorem run_chmod_of_not_mem_modes (h : mode.toList ∉ modes.matches') (file : String) (files : List String) :
    chmod.action.run env (mode :: file :: files) = ⟨env.toWorld, .error (.refused (.badMode mode))⟩ := by
  have hrun : runChmod env (mode :: file :: files) = (env.tree, .error (.refused (.badMode mode))) :=
    if_neg (mt mem_modes_iff.2 h)
  show Outcome.mk { env.toWorld with tree := (runChmod env (mode :: file :: files)).1 }
    (runChmod env (mode :: file :: files)).2 = _
  rw [hrun]

end

/-- **What `chmod` accepts as a mode**: what matches `modes`, and nothing else. Such a mode is recorded for each operand
in turn, and any other text is refused before anything is changed. So the empty text is refused, and a text with a
character that is in no mode, with digits among others, or with a clause that has no operator. -/
theorem chmod_accepts_modes (env : Environment) (mode file : String) (files : List String) :
    let outcome := chmod.action.run env (mode :: file :: files)
    let refused := outcome = ⟨env.toWorld, .error (.refused (.badMode mode))⟩
    (mode.toList ∈ modes.matches' → outcome = .ofEdits (singly (recordMode mode)) env (file :: files)) ∧
      (refused ↔ mode.toList ∉ modes.matches') ∧
      (mode = "" → refused) ∧
      ((∃ c ∈ mode.toList, c ∉ "01234567ugoa+-=rwxXst,".toList) → refused) ∧
      ((∃ c ∈ mode.toList, c.isDigit = true) → (∃ c ∈ mode.toList, c.isDigit = false) → refused) ∧
      ((∃ c ∈ mode.toList, c.isDigit = false) →
        (∃ clause ∈ mode.toList.splitOn ',', ∀ c ∈ clause, c ∉ "+-=".toList) → refused) := by
  intro outcome refused
  have hrefuses : mode.toList ∉ modes.matches' → refused := fun h => run_chmod_of_not_mem_modes h file files
  refine ⟨fun h => run_chmod_of_mem_modes h file files, ⟨?_, hrefuses⟩, ?_, ?_, ?_, ?_⟩
  · intro hrefused hmode
    apply @result_recordMode_ne_refused env (file :: files) mode (.badMode mode)
    rw [← run_chmod_of_mem_modes hmode]
    exact congrArg Outcome.result hrefused
  · rintro rfl
    exact hrefuses (mt mem_modes_iff.1 (by decide))
  · rintro ⟨c, hc, hother⟩
    refine hrefuses fun hmode => hother ?_
    have halphabet : "01234567ugoa+-=rwxXst,".toList = "01234567".toList ++ "ugoa+-=rwxXst,".toList := rfl
    rw [halphabet, List.mem_append]
    exact (forall_mem_of_mem_modes hmode).imp (fun hall => hall c hc) (fun hall => hall c hc)
  · rintro ⟨digit, hdigit, hisDigit⟩ ⟨c, hc, hnot⟩
    refine hrefuses fun hmode => ?_
    obtain hoctal | hsymbolic := forall_mem_of_mem_modes hmode
    · exact Bool.false_ne_true (hnot.symm.trans (mem_octalDigits_iff.1 (hoctal c hc)).1)
    · have hnone : ∀ c ∈ "ugoa+-=rwxXst,".toList, c.isDigit = false := by simp
      exact Bool.false_ne_true ((hnone digit (hsymbolic digit hdigit)).symm.trans hisDigit)
  · rintro ⟨c, hc, hnot⟩ ⟨clause, hclause, hnone⟩
    refine hrefuses fun hmode => ?_
    obtain hoctal | hsymbolic := hmode
    · exact Bool.false_ne_true (hnot.symm.trans ((mem_octalModes_iff.1 hoctal).2 c hc))
    · have hclauses := List.all_eq_true.1 (mem_symbolic_iff.1 hsymbolic)
      obtain ⟨operator, hoperator, his⟩ := exists_operator_of_isModeClause (hclauses clause hclause)
      exact hnone operator hoperator (mem_operators_iff.2 his)

/-- A mode without users and with an empty group, and the same text with a comma behind it. -/
theorem chmod_accepts_modes_symbolic :
    let env : Environment :=
      { cwd := "/", tree := ⟨.directory [("f", .file "" none)]⟩, vars := .empty, history := [], config := .usual,
        clock := "" }
    "u+x=,-".toList ∈ modes.matches' ∧
      (chmod.action.run env ["u+x=,-", "f"]).world.tree = ⟨.directory [("f", .file "" (some "u+x=,-"))]⟩ ∧
      "u+x=,-,".toList ∉ modes.matches' ∧
      chmod.action.run env ["u+x=,-,", "f"] = ⟨env.toWorld, .error (.refused (.badMode "u+x=,-,"))⟩ := by
  intro env
  have hmode : "u+x=,-".toList ∈ modes.matches' := mem_modes_iff.2 (by decide)
  have hrun := (chmod_accepts_modes env "u+x=,-" "f" []).1 hmode
  have hother : "u+x=,-,".toList ∉ modes.matches' := mt mem_modes_iff.1 (by decide)
  refine ⟨hmode, ?_, hother, (chmod_accepts_modes env "u+x=,-," "f" []).2.1.2 hother⟩
  rw [hrun]
  decide

end VirtualShell.Command
