import Mathlib.Data.List.Infix
import VirtualShell.Command.Selection
import VirtualShell.Proofs.Result
import VirtualShell.Proofs.Text.Case
import VirtualShell.Proofs.Text.Lines

/-!
# What a selection shows

The arguments of `grep` begin with flags, as many as there are (`selectionFlags_eq`), and behind them stand a
pattern and files. Of a file those lines are selected that match, or those that do not (`selected`), and what is
shown for it is a line for each of them or one line with their number (`shownLines`). The lines of several files
are put one below the other. They are joined file by file first, which makes no difference
(`Text.unlines_flatten`): a file without a selected line leaves no trace, and every line that is shown under the
label of a file is longer than the label.

Ignoring case is to compare lower case forms, the form of the pattern and that of the whole line. It keeps a line
that has the pattern in it unless a capital sigma of the pattern is a final one there and not in the line, or the
other way round (`ignoring_case_adds_iff`).
-/

namespace VirtualShell.Command

/-! ## Flags -/

/-- An argument that gives selection flags: a dash and behind it one letter or more. -/
def IsCluster (arg : String) : Prop :=
  ∃ letters, arg.toList = '-' :: letters ∧ letters ≠ [] ∧ ∀ c ∈ letters, c ∈ ['i', 'v', 'n', 'c']

theorem selectionLetters?_eq_some_iff {arg : String} {letters : List Char} :
    selectionLetters? arg = some letters ↔
      arg.toList = '-' :: letters ∧ letters ≠ [] ∧ ∀ c ∈ letters, c ∈ ['i', 'v', 'n', 'c'] := by
  have hflag : flagLetters? arg = some letters ↔ arg.toList = '-' :: letters ∧ letters ≠ [] := by
    unfold flagLetters?
    split
    next c rest heq =>
      rw [heq, Option.some_inj, List.cons_inj_right]
      constructor
      · rintro rfl
        exact ⟨rfl, List.cons_ne_nil c rest⟩
      · exact fun h => h.1
    next hother =>
      constructor
      · intro h
        cases h
      · rintro ⟨heq, hne⟩
        obtain ⟨c, rest, rfl⟩ := List.exists_cons_of_ne_nil hne
        exact absurd heq (hother c rest)
  have hall : (letters.all fun c => c == 'i' || c == 'v' || c == 'n' || c == 'c') = true ↔
      ∀ c ∈ letters, c ∈ ['i', 'v', 'n', 'c'] := by
    simp [List.all_eq_true, or_assoc]
  rw [selectionLetters?, Option.filter_eq_some_iff, hflag, hall, and_assoc]

instance (arg : String) : Decidable (IsCluster arg) :=
  decidable_of_iff ((selectionLetters? arg).isSome = true) <| by
    simp only [Option.isSome_iff_exists, selectionLetters?_eq_some_iff, IsCluster]

/-- What begins with two dashes, or with an argument that is no cluster, gives no more flags. -/
theorem selectionFlags_of_not_isCluster {args : List String} (h : ∀ arg ∈ args.head?, ¬ IsCluster arg) :
    selectionFlags args = ([], if args.head? = some "--" then args.tail else args) := by
  cases args with
  | nil => rfl
  | cons arg rest =>
    have hnone : selectionLetters? arg = none := by
      rw [Option.eq_none_iff_forall_ne_some]
      exact fun letters hletters => h arg rfl ⟨letters, selectionLetters?_eq_some_iff.1 hletters⟩
    by_cases hdashes : arg = "--"
    · simp [selectionFlags, hdashes]
    · simp [selectionFlags, hdashes, hnone]

theorem selectionFlags_cons {arg : String} (h : IsCluster arg) (rest : List String) :
    selectionFlags (arg :: rest) =
      (arg.toList.tail ++ (selectionFlags rest).1, (selectionFlags rest).2) := by
  obtain ⟨letters, hletters⟩ := h
  have hsome := selectionLetters?_eq_some_iff.2 hletters
  have htail : arg.toList.tail = letters := by rw [hletters.1, List.tail_cons]
  have hdashes : arg ≠ "--" := by
    rintro rfl
    have heq : ['-'] = letters := List.cons_inj_right _ |>.1 hletters.1
    have hmem := hletters.2.2 '-' (heq ▸ List.mem_singleton_self _)
    exact absurd hmem (by decide)
  rw [selectionFlags, if_neg hdashes, hsome, htail]

/-- The flags are the letters of the clusters that the arguments begin with. -/
theorem selectionFlags_eq (args : List String) :
    let behind := args.dropWhile IsCluster
    selectionFlags args = ((args.takeWhile IsCluster).flatMap (·.toList.tail),
      if behind.head? = some "--" then behind.tail else behind) := by
  induction args with
  | nil => rfl
  | cons arg rest ih =>
    by_cases h : IsCluster arg
    · simp [selectionFlags_cons h, ih, h]
    · have hhead : ∀ first ∈ (arg :: rest).head?, ¬ IsCluster first := by simpa using h
      simp [selectionFlags_of_not_isCluster hhead, h]

/-! ## Lines that are selected -/

/-- Whether a line contains a pattern, both in lower case if case is ignored. -/
def Matches (flags : List Char) (pattern line : String) : Prop :=
  if 'i' ∈ flags then (Text.lowercase pattern).toList <:+: (Text.lowercase line).toList
  else pattern.toList <:+: line.toList

instance (flags : List Char) (pattern line : String) : Decidable (Matches flags pattern line) :=
  inferInstanceAs <| Decidable <|
    if 'i' ∈ flags then (Text.lowercase pattern).toList <:+: (Text.lowercase line).toList
    else pattern.toList <:+: line.toList

/-- The lines of a text that match, or those that do not if the selection is inverted, each behind its number,
counted from one. -/
def selected (flags : List Char) (pattern text : String) : List (Nat × String) :=
  ((Text.lines text).mapIdx fun index line => (index + 1, line)).filter fun numbered =>
    ¬ (Matches flags pattern numbered.2 ↔ 'v' ∈ flags)

/-- The lines that are shown for a text, each behind the label. -/
def shownLines (flags : List Char) (label pattern text : String) : List String :=
  if 'c' ∈ flags then [label ++ toString (selected flags pattern text).length]
  else
    (selected flags pattern text).map fun numbered =>
      label ++ (if 'n' ∈ flags then toString numbered.1 ++ ":" else "") ++ numbered.2

/-- The lines that are shown for what a file expression stands for. -/
def shownFor (env : Environment) (flags : List Char) (pattern label file : String) :
    Except CommandError (List String) :=
  match env.resolve file with
  | some (.file text _) => .ok (shownLines flags label pattern text)
  | some (.directory _) => .error (.isDirectory s!"grep: {file}")
  | none => .error (.missing s!"grep: {file}")

/-- The lines of a result, or the complaint about a failure as a line. -/
def linesOrComplaint : Except CommandError (List String) → List String
  | .ok lines => lines
  | .error failure => [failure.message]

variable {env : Environment} {flags : List Char} {label pattern text : String}

theorem isMatch_ofFlags {line : String} :
    (Selection.ofFlags flags).isMatch pattern line = decide (Matches flags pattern line) := by
  rw [Bool.eq_iff_iff, decide_eq_true_iff, Selection.isMatch, Selection.ofFlags, Matches]
  simp only [List.contains_eq_mem, decide_eq_true_eq]
  split
  · exact Text.occursIn_iff
  · exact Text.occursIn_iff

theorem isMatch_bne_inverted {line : String} :
    ((Selection.ofFlags flags).isMatch pattern line != (Selection.ofFlags flags).inverted) =
      decide (¬ (Matches flags pattern line ↔ 'v' ∈ flags)) := by
  rw [isMatch_ofFlags, Selection.ofFlags]
  by_cases hmatch : Matches flags pattern line <;> by_cases hinverted : 'v' ∈ flags <;> simp [hmatch, hinverted]

theorem mem_select_iff {line : String} {number : Nat} :
    (line, number) ∈ (Selection.ofFlags flags).select pattern text ↔
      (line, number) ∈ (Text.lines text).zipIdx 1 ∧ ¬ (Matches flags pattern line ↔ 'v' ∈ flags) := by
  rw [Selection.select, List.mem_filter]
  simp only [isMatch_bne_inverted, decide_eq_true_eq]

theorem select_ofFlags :
    (Selection.ofFlags flags).select pattern text = (selected flags pattern text).map Prod.swap := by
  have hnumbered : (Text.lines text).zipIdx 1 =
      ((Text.lines text).mapIdx fun index line => (index + 1, line)).map Prod.swap := by
    rw [List.mapIdx_eq_zipIdx_map, List.map_map, List.zipIdx_eq_map_add]
    exact List.map_congr_left fun numbered _ => by simp [Nat.add_comm]
  rw [Selection.select, hnumbered, List.filter_map, selected]
  exact congrArg (List.map Prod.swap) (List.filter_congr fun _ _ => isMatch_bne_inverted)

theorem listing_ofFlags :
    (Selection.ofFlags flags).listing label pattern text = Text.unlines (shownLines flags label pattern text) := by
  rw [Selection.listing, select_ofFlags, shownLines, List.length_map, List.map_map]
  by_cases hcount : 'c' ∈ flags
  · simp [Selection.ofFlags, hcount, Text.unlines]
  · have hlines : (Selection.ofFlags flags).countOnly = false := by simpa [Selection.ofFlags] using hcount
    simp only [hlines, Bool.false_eq_true, if_false, if_neg hcount]
    refine congrArg Text.unlines (List.map_congr_left fun numbered _ => ?_)
    by_cases hnumbers : 'n' ∈ flags
    · have hshown : (Selection.ofFlags flags).numbers = true := by simpa [Selection.ofFlags] using hnumbers
      simp only [Function.comp_apply, Prod.fst_swap, Prod.snd_swap, hshown, if_true, if_pos hnumbers]
      exact congrArg (· ++ numbered.2) String.append_assoc
    · have hhidden : (Selection.ofFlags flags).numbers = false := by simpa [Selection.ofFlags] using hnumbers
      simp only [Function.comp_apply, Prod.fst_swap, hhidden, Bool.false_eq_true, if_false, if_neg hnumbers,
        String.append_empty]

/-- A line that is shown under a label is longer than the label. -/
theorem ne_empty_of_mem_shownLines {file line : String} (h : line ∈ shownLines flags (file ++ ":") pattern text) :
    line ≠ "" := by
  have hlabel : ∀ behind, file ++ ":" ++ behind ≠ "" := by
    intro behind hempty
    have htext := (String.append_eq_empty_iff.1 (String.append_eq_empty_iff.1 hempty).1).2
    exact absurd htext (by decide)
  unfold shownLines at h
  split at h
  · rw [List.mem_singleton.1 h]
    exact hlabel _
  · obtain ⟨numbered, -, rfl⟩ := List.mem_map.1 h
    rw [String.append_assoc]
    exact hlabel _

/-- One file is shown without a label. -/
theorem listing_file (pattern file : String) :
    (do
      let text ← readFile env file s!"grep: {file}" s!"grep: {file}"
      return Output.text ((Selection.ofFlags flags).listing "" pattern text)) =
      (shownFor env flags pattern "" file).map fun shown => .text (Text.unlines shown) := by
  match hresolve : env.resolve file with
  | some (.file text mode) =>
    simp only [readFile, shownFor, hresolve, listing_ofFlags]
    rfl
  | some (.directory entries) =>
    simp only [readFile, shownFor, hresolve]
    rfl
  | none =>
    simp only [readFile, shownFor, hresolve]
    rfl

/-- One of several files is shown with its name, unless nothing is selected. -/
theorem labelledListing_eq (pattern file : String) :
    labelledListing env (Selection.ofFlags flags) pattern file =
      let shown := linesOrComplaint (shownFor env flags pattern (file ++ ":") file)
      if shown = [] then none else some (Text.unlines shown) := by
  match hresolve : env.resolve file with
  | some (.file text mode) =>
    have hempty : Text.unlines (shownLines flags (file ++ ":") pattern text) = "" ↔
        shownLines flags (file ++ ":") pattern text = [] :=
      Text.unlines_eq_empty_iff fun line hline => ne_empty_of_mem_shownLines hline
    simp only [labelledListing, readFile, shownFor, hresolve, listing_ofFlags, linesOrComplaint,
      String.isEmpty_iff, hempty]
  | some (.directory entries) =>
    simp only [labelledListing, readFile, shownFor, hresolve, linesOrComplaint, Text.unlines_singleton]
    rfl
  | none =>
    simp only [labelledListing, readFile, shownFor, hresolve, linesOrComplaint, Text.unlines_singleton]
    rfl

/-- Several files are shown one below the other. -/
theorem unlines_labelledListing (pattern : String) (files : List String) :
    Text.unlines (files.filterMap (labelledListing env (Selection.ofFlags flags) pattern)) =
      Text.unlines (files.flatMap fun file =>
        linesOrComplaint (shownFor env flags pattern (file ++ ":") file)) := by
  let block (file : String) := linesOrComplaint (shownFor env flags pattern (file ++ ":") file)
  have hblocks : files.filterMap (labelledListing env (Selection.ofFlags flags) pattern) =
      ((files.map block).filter (· ≠ [])).map Text.unlines := by
    induction files with
    | nil => rfl
    | cons file rest ih =>
      by_cases hblock : block file = []
      · have hnone : labelledListing env (Selection.ofFlags flags) pattern file = none :=
          (labelledListing_eq pattern file).trans (if_pos hblock)
        rw [List.filterMap_cons_none hnone, List.map_cons, List.filter_cons_of_neg (by simp [hblock]), ih]
      · have hsome : labelledListing env (Selection.ofFlags flags) pattern file = some (Text.unlines (block file)) :=
          (labelledListing_eq pattern file).trans (if_neg hblock)
        rw [List.filterMap_cons_some hsome, List.map_cons, List.filter_cons_of_pos (by simp [hblock]), List.map_cons,
          ih]
  have hne : ∀ shown ∈ (files.map block).filter (· ≠ []), shown ≠ [] := by
    intro shown hshown
    exact of_decide_eq_true (List.mem_filter.1 hshown).2
  rw [hblocks, ← Text.unlines_flatten hne, List.flatten_filter_ne_nil, List.flatMap_def]

/-! ## What is printed -/

theorem matches_congr {others : List Char} (h : 'i' ∈ flags ↔ 'i' ∈ others) {line : String} :
    Matches flags pattern line ↔ Matches others pattern line := by
  unfold Matches
  simp only [h]

/-- A line is selected either as the flags are or with the selection inverted. -/
theorem selected_append_perm (flags : List Char) (pattern text : String) :
    ((selected (flags.filter (· ≠ 'v')) pattern text).map Prod.fst ++
      (selected ('v' :: flags) pattern text).map Prod.fst).Perm (List.range' 1 (Text.lines text).length) := by
  let numbered := (Text.lines text).mapIdx fun index line => (index + 1, line)
  let matching (line : Nat × String) : Bool := Matches flags pattern line.2
  have hkept : selected (flags.filter (· ≠ 'v')) pattern text = numbered.filter matching := by
    refine List.filter_congr fun line _ => ?_
    have hsame : 'i' ∈ flags.filter (· ≠ 'v') ↔ 'i' ∈ flags := by simp
    have hplain : 'v' ∉ flags.filter (· ≠ 'v') := by simp
    simp only [matches_congr hsame, hplain, matching, iff_false, not_not]
  have hleft : selected ('v' :: flags) pattern text = numbered.filter (fun line => !matching line) := by
    refine List.filter_congr fun line _ => ?_
    have hsame : 'i' ∈ 'v' :: flags ↔ 'i' ∈ flags := by simp
    simp only [matches_congr hsame, List.mem_cons_self, matching, iff_true, decide_not]
  have hnumbers : numbered.map Prod.fst = List.range' 1 (Text.lines text).length := by
    rw [List.range'_eq_map_range]
    apply List.ext_getElem
    · simp [numbered]
    · intro index _ _
      simp [numbered, Nat.add_comm]
  rw [hkept, hleft, ← List.map_append, ← hnumbers]
  exact (List.filter_append_perm matching numbered).map Prod.fst

/-- **What `grep` prints**: the flags are the letters of the clusters that the arguments begin with, and behind them,
and behind two dashes if these come next, stand a pattern and files, at least one. Of one file the selected lines
are shown, or their number, or the reason that there are none. Of several files the same is shown for each, under
its name. A line is selected either with or without inversion and never with both. -/
theorem grep_prints_selection (env : Environment) (args : List String) :
    let clusters := args.takeWhile IsCluster
    let behind := args.dropWhile IsCluster
    let flags := clusters.flatMap (·.toList.tail)
    let operands := if behind.head? = some "--" then behind.tail else behind
    (runGrep env args =
      match operands with
      | [] | [_] => .error (.usage "Usage: grep [pattern] [file...]")
      | [pattern, file] => (shownFor env flags pattern "" file).map fun shown => .text (Text.unlines shown)
      | pattern :: files =>
        .ok (.text (Text.unlines (files.flatMap fun file =>
          linesOrComplaint (shownFor env flags pattern (file ++ ":") file))))) ∧
    ∀ pattern text,
      ((selected (flags.filter (· ≠ 'v')) pattern text).map Prod.fst ++
        (selected ('v' :: flags) pattern text).map Prod.fst).Perm
        (List.range' 1 (Text.lines text).length) := by
  intro clusters behind flags operands
  refine ⟨?_, selected_append_perm flags⟩
  have hflags : selectionFlags args = (flags, operands) := selectionFlags_eq args
  match operands with
  | [] => simp only [runGrep, hflags]
  | [pattern] => simp only [runGrep, hflags]
  | [pattern, file] =>
    simp only [runGrep, hflags]
    exact listing_file pattern file
  | pattern :: first :: second :: files =>
    simp only [runGrep, hflags, unlines_labelledListing]

/-! ## Ignoring case -/

theorem matches_iff_occurs (h : 'i' ∉ flags) {line : String} :
    Matches flags pattern line ↔ pattern.toList <:+: line.toList := by
  rw [Matches, if_neg h]

theorem matches_iff_occurs_lowered (h : 'i' ∈ flags) {line : String} :
    Matches flags pattern line ↔ Text.lowerFrom [] pattern.toList <:+: Text.lowerFrom [] line.toList := by
  rw [Matches, if_pos h, Text.lowercase, Text.lowercase, String.toList_ofList, String.toList_ofList]

/-- Without inversion the lines that match are selected. -/
theorem mem_select_iff_matches (h : 'v' ∉ flags) {line : String} {number : Nat} :
    (line, number) ∈ (Selection.ofFlags flags).select pattern text ↔
      (line, number) ∈ (Text.lines text).zipIdx 1 ∧ Matches flags pattern line := by
  rw [mem_select_iff]
  simp only [h, iff_false, not_not]

/-- **When ignoring case only adds lines** to what is selected of any file: if and only if the pattern has a line
break, and so is in no line, or the surroundings of each capital sigma in the pattern tell whether it is final. -/
theorem ignoring_case_adds_iff (flags : List Char) (hcase : 'i' ∉ flags) (hkept : 'v' ∉ flags)
    (pattern : String) :
    (∀ text, (Selection.ofFlags flags).select pattern text ⊆ (Selection.ofFlags ('i' :: flags)).select pattern text) ↔
      '\n' ∈ pattern.toList ∨ Text.SigmasSettled pattern.toList := by
  have hfolded : 'i' ∈ 'i' :: flags := List.mem_cons_self
  have hkept' : 'v' ∉ 'i' :: flags := by simp [hkept]
  constructor
  · intro hadds
    by_contra hnot
    obtain ⟨hnewline, hsettled⟩ := not_or.1 hnot
    obtain ⟨chars, hoccurs, hchars, hlost⟩ := Text.exists_not_infix_lowerFrom hsettled
    -- a file with this line only
    let line := String.ofList chars
    have hline : line.toList = chars := String.toList_ofList
    have hfree : '\n' ∉ line.toList := by
      rw [hline]
      intro hmem
      obtain hmem | heq | heq := hchars _ hmem
      · exact hnewline hmem
      · exact absurd heq (by decide)
      · exact absurd heq (by decide)
    have hne : line ≠ "" := by
      intro hempty
      have hnil : pattern.toList = [] := by
        rw [← hline, hempty] at hoccurs
        exact List.eq_nil_of_infix_nil hoccurs
      rw [hnil] at hlost
      exact hlost (List.nil_infix)
    have hnumbered : (line, 1) ∈ (Text.lines line).zipIdx 1 := by
      rw [Text.lines_of_newline_not_mem hne hfree]
      exact List.mem_singleton_self _
    have hselected : (line, 1) ∈ (Selection.ofFlags flags).select pattern line := by
      rw [mem_select_iff_matches hkept, matches_iff_occurs hcase, hline]
      exact ⟨hnumbered, hoccurs⟩
    have hmatches := ((mem_select_iff_matches hkept').1 (hadds line hselected)).2
    rw [matches_iff_occurs_lowered hfolded, hline] at hmatches
    exact hlost hmatches
  · rintro hpattern text ⟨line, number⟩ hselected
    obtain ⟨hnumbered, hmatches⟩ := (mem_select_iff_matches hkept).1 hselected
    rw [matches_iff_occurs hcase] at hmatches
    rw [mem_select_iff_matches hkept', matches_iff_occurs_lowered hfolded]
    refine ⟨hnumbered, ?_⟩
    obtain hnewline | hsettled := hpattern
    · have hline : line ∈ Text.lines text := List.fst_mem_of_mem_zipIdx hnumbered
      exact absurd (hmatches.subset hnewline) (Text.newline_not_mem_of_mem_lines hline)
    · exact hsettled.infix_lowerFrom hmatches

/-- A sigma between two letters is no final one, whatever stands around them. -/
theorem ignoring_case_adds_iff_inner_sigma :
    'i' ∉ ['n'] ∧ 'v' ∉ ['n'] ∧ Text.SigmasSettled "ΑΣΤ".toList ∧
      ∀ text, (Selection.ofFlags ['n']).select "ΑΣΤ" text ⊆ (Selection.ofFlags ['i', 'n']).select "ΑΣΤ" text := by
  have hcase : 'i' ∉ ['n'] := by decide
  have hkept : 'v' ∉ ['n'] := by decide
  have hsettled : Text.SigmasSettled "ΑΣΤ".toList := by
    intro before behind h
    obtain ⟨rfl, rfl⟩ : before = ['Α'] ∧ behind = ['Τ'] := by
      simpa [List.cons_eq_append_iff] using h
    exact ⟨fun _ => ⟨'Τ', List.mem_singleton_self _, by decide⟩, fun _ => by decide⟩
  exact ⟨hcase, hkept, hsettled, (ignoring_case_adds_iff ['n'] hcase hkept "ΑΣΤ").2 (.inr hsettled)⟩

/-- The sigma at the end of this pattern is final, the one in the line is not. -/
theorem ignoring_case_loses_line :
    let env : Environment :=
      { cwd := "/", tree := ⟨.directory [("f", .file "ΚΑΣΤΡΟ" none)]⟩, vars := .empty, history := [],
        config := .usual, clock := "" }
    runGrep env ["ΑΣ", "f"] = .ok (.text "ΚΑΣΤΡΟ") ∧ runGrep env ["-i", "ΑΣ", "f"] = .ok (.text "") := by
  intro env
  exact ⟨Result.eq_ok_of_toOption (by decide), Result.eq_ok_of_toOption (by decide)⟩

end VirtualShell.Command
