import VirtualShell.Command.Content
import VirtualShell.Proofs.Number.Decimal

/-!
# What head and tail show

A count of lines is spelled in one of three ways, and reading it takes one argument or two (`readExcerpt_flag`).
Whatever was read before, the last of some counts is the one that is left (`readExcerpt_flags`), so counts may stand
on both sides of the file (`readExcerpt_invocation`). Of the lines that the two commands then show, one has the
beginning and the other the end.
-/

namespace VirtualShell.Command

/-! ## Counts among the arguments -/

/-- The ways to give a count: `-n 5`, `-n5` and `-5`. -/
inductive CountSpelling
  | apart
  | attached
  | bare
  deriving DecidableEq

/-- A count that is given in one of these ways, by digits that spell a number of 64 bits. -/
structure CountFlag where
  spelling : CountSpelling
  digits : List Char
  digits_ne_nil : digits ≠ []
  isDigit_of_mem : ∀ c ∈ digits, c.isDigit = true
  fits : Number.digitsValue digits < 2 ^ 64

namespace CountFlag

/-- The number of lines that is asked for. -/
def count (flag : CountFlag) : ℕ :=
  Number.digitsValue flag.digits

/-- The arguments that a count is given by. -/
def arguments (flag : CountFlag) : List String :=
  match flag.spelling with
  | .apart => ["-n", String.ofList flag.digits]
  | .attached => [String.ofList ('-' :: 'n' :: flag.digits)]
  | .bare => [String.ofList ('-' :: flag.digits)]

/-- A number, given by its usual numeral. -/
def ofNat (spelling : CountSpelling) (n : ℕ) (h : n < 2 ^ 64) : CountFlag where
  spelling := spelling
  digits := Nat.toDigits 10 n
  digits_ne_nil := Nat.toDigits_ne_nil
  isDigit_of_mem := fun _ hc => Nat.isDigit_of_mem_toDigits (by omega) (by omega) hc
  fits := by rwa [Number.digitsValue_toDigits]

theorem count_ofNat (spelling : CountSpelling) (n : ℕ) (h : n < 2 ^ 64) : (ofNat spelling n h).count = n :=
  Number.digitsValue_toDigits n

/-- The digits are read as the number that they spell. -/
theorem excerptCount_digits (flag : CountFlag) (command argument : String) :
    excerptCount command argument flag.digits = .ok flag.count := by
  have hfits : Number.digitsValue flag.digits ≤ Number.largestCount := Nat.le_pred_of_lt flag.fits
  have hunsigned : Number.unsignedCount? flag.digits = some flag.count := by
    have hdigits : flag.digits.all Char.isDigit = true := List.all_eq_true.2 flag.isDigit_of_mem
    have hne : flag.digits.isEmpty = false := List.isEmpty_eq_false_iff.2 flag.digits_ne_nil
    rw [Number.unsignedCount?, hdigits, hne, if_neg (by simp)]
    exact if_pos hfits
  have hread : Number.readCount? (String.ofList flag.digits) = some flag.count := by
    rw [Number.readCount?, String.toList_ofList]
    split
    next rest hplus =>
      have hdigit := flag.isDigit_of_mem '+' (hplus ▸ List.mem_cons_self)
      exact absurd hdigit (by decide)
    next => exact hunsigned
  rw [excerptCount, hread]

end CountFlag

/-- The last of some counts, and 10 if there is none. -/
def lastCount (flags : List CountFlag) : ℕ :=
  (flags.getLast?.map CountFlag.count).getD 10

/-- The arguments that give a file, and counts before and after it. -/
def invocation (before : List CountFlag) (file : String) (after : List CountFlag) : List String :=
  before.flatMap CountFlag.arguments ++ file :: after.flatMap CountFlag.arguments

variable {command : String} {excerpt : Excerpt} {file : String}

/-- A count replaces the one that was read before, however it is spelled. -/
theorem readExcerpt_flag (flag : CountFlag) (rest : List String) :
    readExcerpt command excerpt (flag.arguments ++ rest) =
      readExcerpt command { excerpt with count := flag.count } rest := by
  obtain ⟨c, digits, hdigits⟩ := List.exists_cons_of_ne_nil flag.digits_ne_nil
  have hletter : c ≠ 'n' := by
    rintro rfl
    have hdigit := flag.isDigit_of_mem 'n' (hdigits ▸ List.mem_cons_self)
    exact absurd hdigit (by decide)
  have hread := flag.excerptCount_digits command
  unfold CountFlag.arguments
  cases flag.spelling with
  | apart =>
    have hflag : "-n".toList = ['-', 'n'] := rfl
    simp only [List.cons_append, List.nil_append, readExcerpt, hflag, String.toList_ofList, hread]
    rfl
  | attached =>
    rw [List.singleton_append, readExcerpt.eq_def]
    simp only [String.toList_ofList, hdigits]
    rw [← hdigits, hread]
    rfl
  | bare =>
    rw [List.singleton_append, readExcerpt.eq_def]
    simp only [String.toList_ofList, hdigits]
    split
    next heq => exact absurd (List.cons.inj (List.cons.inj heq).2).1 hletter
    next heq => exact absurd (List.cons.inj (List.cons.inj heq).2).1 hletter
    next heq _ _ => exact absurd (List.cons.inj (List.cons.inj heq).2).1 hletter
    next heq _ _ =>
      rw [← (List.cons.inj heq).2, ← hdigits, hread]
      rfl
    next hother _ _ => exact absurd rfl (hother c digits)

/-- What does not begin with a dash is the file, unless there was one before. -/
theorem readExcerpt_file (h : Text.startsWith file "-" = false) (rest : List String) :
    readExcerpt command excerpt (file :: rest) =
      readExcerpt command { excerpt with file := some (excerpt.file.getD file) } rest := by
  have hdash : ∀ chars, file.toList ≠ '-' :: chars := by
    intro chars hchars
    simp [Text.startsWith, hchars, List.isPrefixOf] at h
  rw [readExcerpt.eq_def]
  simp only
  split
  next heq => exact absurd heq (hdash _)
  next heq => exact absurd heq (hdash _)
  next heq _ _ => exact absurd heq (hdash _)
  next heq _ _ => exact absurd heq (hdash _)
  next => rfl

/-- Of some counts the last one is left. -/
theorem readExcerpt_flags (flags : List CountFlag) (rest : List String) :
    readExcerpt command excerpt (flags.flatMap CountFlag.arguments ++ rest) =
      readExcerpt command { excerpt with count := (flags.getLast?.map CountFlag.count).getD excerpt.count }
        rest := by
  induction flags generalizing excerpt with
  | nil => rfl
  | cons flag flags ih =>
    rw [List.flatMap_cons, List.append_assoc, readExcerpt_flag, ih, List.getLast?_cons]
    cases flags.getLast? <;> rfl

/-- All arguments together leave the last count and the file. -/
theorem readExcerpt_invocation (h : Text.startsWith file "-" = false) (before after : List CountFlag) :
    readExcerpt command ⟨usualCount, none⟩ (invocation before file after) =
      .ok ⟨lastCount (before ++ after), some file⟩ := by
  have hafter := @readExcerpt_flags command ⟨(before.getLast?.map CountFlag.count).getD usualCount, some file⟩ after []
  rw [List.append_nil] at hafter
  rw [invocation, readExcerpt_flags, readExcerpt_file h, Option.getD_none, hafter, readExcerpt, lastCount,
    List.getLast?_append]
  cases after.getLast? with
  | none => rfl
  | some last => rfl

section

variable {env : Environment} {text : String} {mode : Option String} (hfile : Text.startsWith file "-" = false)
  (hread : env.resolve file = some (.file text mode)) (before after : List CountFlag)

include hfile hread

/-- The lines are chosen by the last count. -/
theorem runExcerpt_invocation (choose : ℕ → List String → List String) :
    runExcerpt command choose env (invocation before file after) =
      .ok (.text (Text.unlines (choose (lastCount (before ++ after)) (Text.lines text)))) := by
  rw [runExcerpt, readExcerpt_invocation hfile]
  show (readFile env file _ _ >>= _) = _
  rw [readFile_of_resolve hread]
  rfl

theorem head_invocation : head.action.run env (invocation before file after) =
    ⟨env.toWorld, .ok (.text (Text.unlines ((Text.lines text).take (lastCount (before ++ after)))))⟩ :=
  congrArg (Outcome.mk env.toWorld) (runExcerpt_invocation hfile hread before after _)

theorem tail_invocation : tail.action.run env (invocation before file after) =
    ⟨env.toWorld, .ok (.text (Text.unlines
      ((Text.lines text).drop ((Text.lines text).length - lastCount (before ++ after)))))⟩ :=
  congrArg (Outcome.mk env.toWorld) (runExcerpt_invocation hfile hread before after _)

end

/-- **What `head` and `tail` show** of a file that can be read, with counts before and after it, each in any of the
three spellings: as many lines as the last count says, and 10 if there is none, or all if there are not so many. Those
of `tail` begin at a place within the lines. Every number of 64 bits can be given by its numeral in each of the
spellings. If `head` shows some lines and `tail` is asked for as many as are left, they show all lines, one after
the other. -/
theorem excerpts_by_last_count {env : Environment} {text : String} {mode : Option String}
    (hfile : Text.startsWith file "-" = false) (hread : env.resolve file = some (.file text mode)) :
    let lines := Text.lines text
    (∀ before after : List CountFlag,
      let args := invocation before file after
      let shown := min (lastCount (before ++ after)) lines.length
      head.action.run env args = ⟨env.toWorld, .ok (.text (Text.unlines (lines.take shown)))⟩ ∧
        ∃ start ≤ lines.length, start + shown = lines.length ∧
          tail.action.run env args = ⟨env.toWorld, .ok (.text (Text.unlines (lines.drop start)))⟩) ∧
      (∀ spelling, ∀ k < 2 ^ 64, ∃ flag : CountFlag,
        flag.spelling = spelling ∧ flag.digits = Nat.toDigits 10 k ∧ flag.count = k) ∧
      ∀ k ≤ lines.length, ∀ before after before' after' : List CountFlag,
        lastCount (before ++ after) = k → lastCount (before' ++ after') = lines.length - k →
        ∃ first last, first.length = k ∧ first ++ last = lines ∧
          head.action.run env (invocation before file after) =
            ⟨env.toWorld, .ok (.text (Text.unlines first))⟩ ∧
          tail.action.run env (invocation before' file after') =
            ⟨env.toWorld, .ok (.text (Text.unlines last))⟩ := by
  intro lines
  refine ⟨fun before after => ?_, fun spelling k hk => ⟨.ofNat spelling k hk, rfl, rfl, CountFlag.count_ofNat ..⟩, ?_⟩
  · intro args shown
    refine ⟨?_, lines.length - lastCount (before ++ after), Nat.sub_le _ _, by omega,
      tail_invocation hfile hread before after⟩
    rw [head_invocation hfile hread, ← List.take_eq_take_min]
  · intro k hk before after before' after' hfirst hlast
    refine ⟨lines.take k, lines.drop k, List.length_take_of_le hk, List.take_append_drop k lines, ?_, ?_⟩
    · rw [head_invocation hfile hread, hfirst]
    · rw [tail_invocation hfile hread, hlast, show lines.length - (lines.length - k) = k by omega]

/-- Three counts in three spellings, of which the last one has a zero in front, and one of them before the file. -/
theorem excerpts_by_last_count_spelled :
    let env : Environment :=
      { cwd := "/", tree := ⟨.directory [("f", .file "a\nb\nc\n" none)]⟩, vars := .empty, history := [],
        config := .usual, clock := "" }
    let args := ["-n", "3", "f", "-n2", "-01"]
    Text.startsWith "f" "-" = false ∧ env.resolve "f" = some (.file "a\nb\nc\n" none) ∧
      head.action.run env args = ⟨env.toWorld, .ok (.text "a")⟩ ∧
      tail.action.run env args = ⟨env.toWorld, .ok (.text "c")⟩ := by
  intro env args
  have hfile : Text.startsWith "f" "-" = false := by decide
  have hread : env.resolve "f" = some (.file "a\nb\nc\n" none) := by decide
  have hlines : Text.lines "a\nb\nc\n" = ["a", "b", "c"] := by decide
  let before : List CountFlag := [.ofNat .apart 3 (by omega)]
  let after : List CountFlag := [.ofNat .attached 2 (by omega), ⟨.bare, ['0', '1'], by decide, by simp, by decide⟩]
  have hargs : invocation before "f" after = args := by decide
  have hlast : lastCount (before ++ after) = 1 := by decide
  obtain ⟨hhead, start, -, hstart, htail⟩ := (excerpts_by_last_count hfile hread).1 before after
  rw [hlines, hlast, hargs] at hhead
  rw [hlines, hargs] at htail
  rw [hlines, hlast] at hstart
  obtain rfl : start = 2 := Nat.add_right_cancel hstart
  exact ⟨hfile, hread, hhead, htail⟩

end VirtualShell.Command
