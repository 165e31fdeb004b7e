import Mathlib.Data.List.Destutter
import Mathlib.Data.List.TakeWhile
import VirtualShell.Text.Blank
import VirtualShell.Text.Lines

/-!
# The lines of a text

A line feed ends a line wherever it stands (`lines_append_newline`), so a text that is one ended line has that
line only. The line may have lost a carriage return at its end, which trimming would take off as well
(`trim_dropReturn`). Lines can be joined in blocks first (`unlines_flatten`). Where neighbours that are equal are
collapsed to one (`List.destutter`), the last line tells what becomes of another one (`destutter_concat`).
-/

namespace VirtualShell.Text

/-- Splitting leaves no separator in the pieces. -/
theorem not_mem_of_mem_splitOn {mark : Char} {piece : List Char} :
    ∀ {text : List Char}, piece ∈ text.splitOn mark → mark ∉ piece
  | [], h => by
    rw [List.splitOn_nil, List.mem_singleton] at h
    simp [h]
  | c :: text, h => by
    have ih := fun p => @not_mem_of_mem_splitOn mark p text
    rw [List.splitOn_cons_eq_if_modifyHead] at h
    cases hsplit : text.splitOn mark with
    | nil => exact absurd hsplit (List.splitOn_ne_nil mark text)
    | cons first rest =>
      simp only [hsplit, List.mem_cons] at ih h
      split at h
      next =>
        rcases List.mem_cons.1 h with rfl | h
        · exact List.not_mem_nil
        · exact ih piece (List.mem_cons.1 h)
      next hc =>
        rcases List.mem_cons.1 h with rfl | h
        · have hne : mark ≠ c := fun e => hc (by simp [e])
          simpa [hne] using ih first (.inl rfl)
        · exact ih piece (.inr h)

/-- A piece that was ended is a line, whatever follows. -/
theorem linesOfPieces_cons {pieces : List (List Char)} (h : pieces ≠ []) (piece : List Char) :
    linesOfPieces (piece :: pieces) = dropReturn piece :: linesOfPieces pieces := by
  cases pieces with
  | nil => exact absurd rfl h
  | cons next rest => rw [linesOfPieces]

/-- Taking the ending off adds nothing. -/
theorem mem_of_mem_dropReturn {piece : List Char} {c : Char} (h : c ∈ dropReturn piece) : c ∈ piece := by
  unfold dropReturn at h
  split at h
  · exact List.dropLast_subset piece h
  · exact h

/-- No line holds a line feed. -/
theorem newline_not_mem_of_mem_lines {text line : String} (h : line ∈ lines text) : '\n' ∉ line.toList := by
  obtain ⟨chars, hchars, rfl⟩ := List.mem_map.1 h
  have hpieces : ∀ piece ∈ text.toList.splitOn '\n', '\n' ∉ piece := fun piece => not_mem_of_mem_splitOn
  rw [String.toList_ofList]
  generalize text.toList.splitOn '\n' = pieces at hchars hpieces
  induction pieces with
  | nil => cases hchars
  | cons piece rest ih =>
    obtain ⟨hpiece, hrest⟩ := List.forall_mem_cons.1 hpieces
    by_cases hlast : rest = []
    · rw [hlast, linesOfPieces] at hchars
      split at hchars
      · cases hchars
      · rwa [List.mem_singleton.1 hchars]
    · rw [linesOfPieces_cons hlast] at hchars
      rcases List.mem_cons.1 hchars with rfl | hlater
      · exact fun hmem => hpiece (mem_of_mem_dropReturn hmem)
      · exact ih hlater hrest

/-- A text without a line feed is one line, unless it is empty. -/
theorem lines_of_newline_not_mem {line : String} (hne : line ≠ "") (h : '\n' ∉ line.toList) :
    lines line = [line] := by
  have hchars : line.toList ≠ [] := mt String.toList_eq_nil_iff.1 hne
  simp [lines, List.splitOn_eq_singleton h, linesOfPieces, hchars]

/-- The lines of a text that begins with an ended line. -/
theorem lines_append_newline {line : String} (h : '\n' ∉ line.toList) (rest : String) :
    lines (line ++ "\n" ++ rest) = String.ofList (dropReturn line.toList) :: lines rest := by
  have htext : (line ++ "\n" ++ rest).toList = line.toList ++ '\n' :: rest.toList := by simp
  have hpieces : (line.toList ++ '\n' :: rest.toList).splitOn '\n' =
      line.toList :: rest.toList.splitOn '\n' := by
    rw [List.splitOn_append_cons_self, List.splitOn_eq_singleton h, List.singleton_append]
  rw [lines, htext, hpieces, linesOfPieces_cons (List.splitOn_ne_nil _ _), List.map_cons, lines]

/-- A text that is one ended line. -/
theorem lines_newline {line : String} (h : '\n' ∉ line.toList) :
    lines (line ++ "\n") = [String.ofList (dropReturn line.toList)] := by
  have hlines := lines_append_newline h ""
  rwa [String.append_empty] at hlines

/-- Blanks behind a text are trimmed off. -/
theorem trim_append_blanks {blanks : List Char} (h : ∀ c ∈ blanks, isBlank c = true)
    (text : List Char) : trim (String.ofList (text ++ blanks)) = trim (String.ofList text) := by
  have hnone : blanks.dropWhile isBlank = [] := List.dropWhile_eq_nil_iff.2 h
  have hend : ∀ cs, dropEndWhile isBlank (cs ++ blanks) = dropEndWhile isBlank cs := by
    intro cs
    rw [dropEndWhile, List.reverse_append,
      List.dropWhile_append_of_pos fun c hc => h c (List.mem_reverse.1 hc), dropEndWhile]
  simp only [trim, trimStart, trimEnd, String.toList_ofList, List.dropWhile_append, hnone]
  split
  next hempty => rw [List.isEmpty_iff.1 hempty]
  next => rw [hend]

/-- The carriage return that may stand at the end of a line makes no difference to the trimmed line. -/
theorem trim_dropReturn (piece : List Char) :
    trim (String.ofList (dropReturn piece)) = trim (String.ofList piece) := by
  have hblank : ∀ c ∈ ['\r'], isBlank c = true := List.forall_mem_singleton.2 rfl
  rw [dropReturn]
  split
  next hreturn =>
    obtain ⟨text, rfl⟩ := List.getLast?_eq_some_iff.1 hreturn
    rw [List.dropLast_concat, trim_append_blanks hblank]
  next => rfl

/-! ## Joining lines -/

theorem unlines_singleton (line : String) : unlines [line] = line :=
  String.intercalate_singleton

/-- Lines that are not empty, if there are any, make a text that is not empty. -/
theorem unlines_eq_empty_iff {ls : List String} (h : ∀ line ∈ ls, line ≠ "") : unlines ls = "" ↔ ls = [] := by
  constructor
  · intro hempty
    cases ls with
    | nil => rfl
    | cons line rest =>
      have hline : line ≠ "" := h line List.mem_cons_self
      by_cases hrest : rest = []
      · rw [hrest, unlines_singleton] at hempty
        exact absurd hempty hline
      · rw [unlines, String.intercalate_cons_of_ne_nil hrest, String.append_assoc] at hempty
        exact absurd (String.append_eq_empty_iff.1 hempty).1 hline
  · rintro rfl
    rfl

/-- Blocks of lines that are joined each by itself make up the text of all their lines. -/
theorem unlines_flatten {blocks : List (List String)} (h : ∀ block ∈ blocks, block ≠ []) :
    unlines blocks.flatten = unlines (blocks.map unlines) := by
  induction blocks with
  | nil => rfl
  | cons block rest ih =>
    obtain ⟨hblock, hblocks⟩ := List.forall_mem_cons.1 h
    rw [List.flatten_cons, List.map_cons]
    cases rest with
    | nil => rw [List.flatten_nil, List.append_nil, List.map_nil, unlines_singleton]
    | cons next more =>
      have hnext : (next :: more).flatten ≠ [] := by
        rw [List.flatten_cons]
        exact List.append_ne_nil_of_left_ne_nil (List.forall_mem_cons.1 hblocks).1 _
      have hjoined : (next :: more).map unlines ≠ [] := List.cons_ne_nil _ _
      rw [unlines, String.intercalate_append_of_ne_nil hblock hnext, unlines,
        String.intercalate_cons_of_ne_nil hjoined]
      exact congrArg _ (ih hblocks)

/-! ## Collapsing neighbours -/

/-- One more line is dropped if it is the last one again. -/
theorem destutter'_concat (first line : String) (lines : List String) :
    (lines ++ [line]).destutter' (· ≠ ·) first =
      if (first :: lines).getLast? = some line then lines.destutter' (· ≠ ·) first
      else lines.destutter' (· ≠ ·) first ++ [line] := by
  induction lines generalizing first with
  | nil =>
    rw [List.nil_append, List.destutter'_singleton, List.destutter'_nil, List.getLast?_singleton]
    by_cases hsame : first = line
    · simp [hsame]
    · simp [hsame]
  | cons second rest ih =>
    rw [List.cons_append, List.getLast?_cons_cons]
    by_cases hsame : first = second
    · subst hsame
      rw [List.destutter'_cons_neg _ (not_not.2 rfl), List.destutter'_cons_neg _ (not_not.2 rfl)]
      exact ih first
    · rw [List.destutter'_cons_pos _ hsame, List.destutter'_cons_pos _ hsame, ih second]
      split
      next => rfl
      next => rw [List.cons_append]

theorem destutter_concat (lines : List String) (line : String) :
    (lines ++ [line]).destutter (· ≠ ·) =
      if lines.getLast? = some line then lines.destutter (· ≠ ·)
      else lines.destutter (· ≠ ·) ++ [line] := by
  cases lines with
  | nil => rfl
  | cons first rest => exact destutter'_concat first line rest

/-- Collapsing keeps the last line. -/
theorem getLast?_destutter (lines : List String) :
    (lines.destutter (· ≠ ·)).getLast? = lines.getLast? := by
  induction lines using List.reverseRecOn with
  | nil => rfl
  | append_singleton lines line ih =>
    rw [destutter_concat, List.getLast?_concat]
    split
    next hlast => rw [ih, hlast]
    next => exact List.getLast?_concat

end VirtualShell.Text
