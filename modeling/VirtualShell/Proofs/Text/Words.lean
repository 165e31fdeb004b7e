import VirtualShell.Text.Blank

/-!
# The words of a text

A blank ends a word wherever it stands (`words_append_cons`). So the words of a line are known from the
words of its parts, and trimming the line takes none of them away.
-/

namespace VirtualShell.Text

/-- A text that is one word. -/
def IsWord (word : String) : Prop :=
  word ≠ "" ∧ ∀ c ∈ word.toList, isBlank c = false

instance (word : String) : Decidable (IsWord word) :=
  decidable_of_iff (word ≠ "" ∧ (word.toList.all fun c => !isBlank c) = true)
    (by simp [IsWord, List.all_eq_true])

/-- What is put behind a word without a blank makes a longer word. -/
theorem IsWord.append {word behind : String} (h : IsWord word)
    (hbehind : ∀ c ∈ behind.toList, isBlank c = false) : IsWord (word ++ behind) := by
  refine ⟨fun hempty => h.1 (String.append_eq_empty_iff.1 hempty).1, fun c hc => ?_⟩
  rw [String.toList_append, List.mem_append] at hc
  exact hc.elim (h.2 c) (hbehind c)

/-- A blank parts the words before it from those behind it. -/
theorem words_append_cons {blank : Char} (h : isBlank blank = true) (before behind : List Char) :
    words (String.ofList (before ++ blank :: behind)) =
      words (String.ofList before) ++ words (String.ofList behind) := by
  simp only [words, String.toList_ofList]
  rw [List.splitOnP_append_cons before behind h, List.filter_append, List.map_append]

theorem words_append_space (before behind : String) :
    words (before ++ " " ++ behind) = words before ++ words behind := by
  have htext : before ++ " " ++ behind = String.ofList (before.toList ++ ' ' :: behind.toList) := by
    rw [← String.toList_inj]
    simp
  rw [htext, words_append_cons (by decide), String.ofList_toList, String.ofList_toList]

/-- A word is its own only word. -/
theorem words_word {word : String} (h : IsWord word) : words word = [word] := by
  have hne : word.toList ≠ [] := fun hnil => h.1 (by simpa using hnil)
  simp [words, List.splitOnP_eq_singleton h.2, hne]

/-- Blanks before a text add no words. -/
theorem words_blanks_append {blanks : List Char} (h : ∀ c ∈ blanks, isBlank c = true)
    (text : List Char) : words (String.ofList (blanks ++ text)) = words (String.ofList text) := by
  induction blanks with
  | nil => rfl
  | cons blank rest ih =>
    obtain ⟨hblank, hrest⟩ := List.forall_mem_cons.1 h
    have hcut := words_append_cons hblank [] (rest ++ text)
    rw [List.nil_append] at hcut
    rw [List.cons_append, hcut, ih hrest]
    rfl

/-- Blanks behind a text add no words. -/
theorem words_append_blanks {blanks : List Char} (h : ∀ c ∈ blanks, isBlank c = true)
    (text : List Char) : words (String.ofList (text ++ blanks)) = words (String.ofList text) := by
  cases blanks with
  | nil => rw [List.append_nil]
  | cons blank rest =>
    obtain ⟨hblank, hrest⟩ := List.forall_mem_cons.1 h
    have hnone := words_blanks_append hrest []
    rw [List.append_nil] at hnone
    rw [words_append_cons hblank, hnone]
    exact List.append_nil _

theorem words_trimStart (s : String) : words (trimStart s) = words s := by
  have htaken : ∀ c ∈ s.toList.takeWhile isBlank, isBlank c = true := by
    intro c hc
    exact List.all_eq_true.1 List.all_takeWhile c hc
  have htext := words_blanks_append htaken (s.toList.dropWhile isBlank)
  rw [List.takeWhile_append_dropWhile, String.ofList_toList] at htext
  rw [trimStart, htext]

theorem words_trimEnd (s : String) : words (trimEnd s) = words s := by
  have htaken : ∀ c ∈ (s.toList.reverse.takeWhile isBlank).reverse, isBlank c = true := by
    intro c hc
    exact List.all_eq_true.1 List.all_takeWhile c (List.mem_reverse.1 hc)
  have htext := words_append_blanks htaken (dropEndWhile isBlank s.toList)
  rw [dropEndWhile, ← List.reverse_append, List.takeWhile_append_dropWhile, List.reverse_reverse,
    String.ofList_toList] at htext
  rw [trimEnd, dropEndWhile, htext]

/-- Trimming takes no word away. -/
theorem words_trim (s : String) : words (trim s) = words s := by
  rw [trim, words_trimEnd, words_trimStart]

/-- A line of two words. -/
theorem words_trim_pair {first second : String} (hfirst : IsWord first) (hsecond : IsWord second) :
    words (trim (first ++ " " ++ second)) = [first, second] := by
  rw [words_trim, words_append_space, words_word hfirst, words_word hsecond, List.singleton_append]

end VirtualShell.Text
