import Mathlib.Logic.ExistsUnique
import VirtualShell.Variables

/-!
# Putting variables into a text

From left to right a text is read as a list of pieces (`Reads`): stretches without a dollar sign, references,
which are a dollar sign and the name behind it, and dollar signs without a name. Every piece is as long as it can
be, so that there is exactly one way to read a text (`reads_iff`). To expand the text is to put the value of
each reference in its place and to leave the other pieces as they are (`Reads.expandChars_eq`). The pieces are
those of the text, and what is put in is not among them.

Two texts can be expanded apart unless the first one ends within a reference that the second one may lengthen.
-/

namespace VirtualShell.Variables

/-! ## Runs of characters -/

section

variable {p : Char → Bool} {run rest : List Char}

/-- A run of characters is taken whole if it ends where the rest begins. -/
theorem takeWhile_run_append (hrun : ∀ c ∈ run, p c = true) (hend : ∀ c ∈ rest.head?, p c = false) :
    (run ++ rest).takeWhile p = run := by
  have hrest : rest.takeWhile p = [] := by
    cases rest with
    | nil => rfl
    | cons c rest => rw [List.takeWhile_cons_of_neg (by simp [hend c rfl])]
  rw [List.takeWhile_append_of_pos hrun, hrest, List.append_nil]

theorem dropWhile_run_append (hrun : ∀ c ∈ run, p c = true) (hend : ∀ c ∈ rest.head?, p c = false) :
    (run ++ rest).dropWhile p = rest := by
  have hrest : rest.dropWhile p = rest := by
    cases rest with
    | nil => rfl
    | cons c rest => rw [List.dropWhile_cons_of_neg (by simp [hend c rfl])]
  rw [List.dropWhile_append_of_pos hrun, hrest]

theorem head?_dropWhile (p : Char → Bool) (text : List Char) :
    ∀ c ∈ (text.dropWhile p).head?, p c = false := by
  intro c hc
  have hnot := List.head?_dropWhile_not p text
  rw [Option.mem_def] at hc
  rw [hc] at hnot
  simpa using hnot

end

/-! ## Reading -/

/-- A part of a text that is expanded. -/
inductive Piece
  /-- Some text without a dollar sign. -/
  | stretch (text : String)
  /-- A dollar sign and a name. -/
  | reference (name : String)
  /-- A dollar sign without a name. -/
  | dollar
  deriving DecidableEq

/-- What a piece leaves when it is expanded. -/
def Piece.value (vars : Variables) : Piece → String
  | stretch text => text
  | reference name => (vars.get? name).getD ""
  | dollar => "$"

/-- How a text is read. A stretch ends at the next dollar sign, a name ends at the next character that cannot
be part of one, and no name follows a dollar sign that stands for itself. -/
inductive Reads : List Char → List Piece → Prop
  | nil : Reads [] []
  | stretch {text : String} {rest : List Char} {pieces : List Piece} (hne : text ≠ "")
      (htext : ∀ c ∈ text.toList, c ≠ '$') (hend : ∀ c ∈ rest.head?, c = '$') (hrest : Reads rest pieces) :
      Reads (text.toList ++ rest) (.stretch text :: pieces)
  | reference {name : String} {rest : List Char} {pieces : List Piece} (hne : name ≠ "")
      (hname : ∀ c ∈ name.toList, isNameChar c = true) (hend : ∀ c ∈ rest.head?, isNameChar c = false)
      (hrest : Reads rest pieces) :
      Reads ('$' :: (name.toList ++ rest)) (.reference name :: pieces)
  | dollar {rest : List Char} {pieces : List Piece} (hend : ∀ c ∈ rest.head?, isNameChar c = false)
      (hrest : Reads rest pieces) :
      Reads ('$' :: rest) (.dollar :: pieces)

/-- The pieces of a text. -/
def pieces : List Char → List Piece
  | [] => []
  | c :: rest =>
    if c = '$' then
      let name := rest.takeWhile isNameChar
      if name.isEmpty then .dollar :: pieces rest
      else .reference (String.ofList name) :: pieces (rest.dropWhile isNameChar)
    else .stretch (String.ofList (c :: rest.takeWhile (· ≠ '$'))) :: pieces (rest.dropWhile (· ≠ '$'))
termination_by text => text.length
decreasing_by
  · simp
  · exact Nat.lt_succ_of_le (List.dropWhile_suffix _).length_le
  · exact Nat.lt_succ_of_le (List.dropWhile_suffix _).length_le

theorem pieces_nil : pieces [] = [] := by rw [pieces]

section

variable {run rest text : List Char} {read : List Piece}

theorem pieces_stretch (hne : run ≠ []) (hrun : ∀ c ∈ run, c ≠ '$') (hend : ∀ c ∈ rest.head?, c = '$') :
    pieces (run ++ rest) = .stretch (String.ofList run) :: pieces rest := by
  obtain ⟨c, more, rfl⟩ := List.exists_cons_of_ne_nil hne
  obtain ⟨hc, hmore⟩ := List.forall_mem_cons.1 hrun
  have htaken : ∀ d ∈ more, decide (d ≠ '$') = true := by simpa using hmore
  have hstop : ∀ d ∈ rest.head?, decide (d ≠ '$') = false := by simpa using hend
  rw [List.cons_append, pieces, if_neg hc, takeWhile_run_append htaken hstop,
    dropWhile_run_append htaken hstop]

theorem pieces_reference (hne : run ≠ []) (hrun : ∀ c ∈ run, isNameChar c = true)
    (hend : ∀ c ∈ rest.head?, isNameChar c = false) :
    pieces ('$' :: (run ++ rest)) = .reference (String.ofList run) :: pieces rest := by
  simp [pieces, takeWhile_run_append hrun hend, dropWhile_run_append hrun hend, hne]

theorem pieces_dollar (hend : ∀ c ∈ rest.head?, isNameChar c = false) :
    pieces ('$' :: rest) = .dollar :: pieces rest := by
  have hnone : rest.takeWhile isNameChar = [] := takeWhile_run_append (List.forall_mem_nil _) hend
  simp [pieces, hnone]

/-- Every text can be read. -/
theorem reads_pieces (text : List Char) : Reads text (pieces text) := by
  induction text using pieces.induct with
  | case1 => exact pieces_nil ▸ .nil
  | case2 rest name hnone ih =>
    have hend := head?_dropWhile isNameChar rest
    have hrest : rest.dropWhile isNameChar = rest := by
      have hsplit : name ++ rest.dropWhile isNameChar = rest := List.takeWhile_append_dropWhile
      rwa [List.isEmpty_iff.1 hnone, List.nil_append] at hsplit
    rw [hrest] at hend
    rw [pieces_dollar hend]
    exact .dollar hend ih
  | case3 rest name hsome ih =>
    have hne : name ≠ [] := fun hnil => hsome (List.isEmpty_iff.2 hnil)
    have hname : ∀ c ∈ name, isNameChar c = true := List.all_eq_true.1 List.all_takeWhile
    have hend := head?_dropWhile isNameChar rest
    have hsplit : name ++ rest.dropWhile isNameChar = rest := List.takeWhile_append_dropWhile
    have hread : Reads ('$' :: ((String.ofList name).toList ++ rest.dropWhile isNameChar)) _ :=
      .reference (by simpa using hne) (by simpa using hname) hend ih
    rwa [String.toList_ofList, ← pieces_reference hne hname hend, hsplit] at hread
  | case4 c rest hc ih =>
    let run := c :: rest.takeWhile (· ≠ '$')
    have hrun : ∀ d ∈ run, d ≠ '$' := by
      have htaken : ∀ d ∈ rest.takeWhile (· ≠ '$'), d ≠ '$' := by
        intro d hd
        simpa using List.all_eq_true.1 List.all_takeWhile d hd
      exact List.forall_mem_cons.2 ⟨hc, htaken⟩
    have hend : ∀ d ∈ (rest.dropWhile (· ≠ '$')).head?, d = '$' := by
      intro d hd
      simpa using head?_dropWhile (· ≠ '$') rest d hd
    have hsplit : run ++ rest.dropWhile (· ≠ '$') = c :: rest :=
      congrArg (c :: ·) List.takeWhile_append_dropWhile
    have hread : Reads ((String.ofList run).toList ++ rest.dropWhile (· ≠ '$')) _ :=
      .stretch (by simp [run]) (by simpa using hrun) hend ih
    rwa [String.toList_ofList, ← pieces_stretch (by simp [run]) hrun hend, hsplit] at hread

/-- There is one way to read a text. -/
theorem reads_iff : Reads text read ↔ read = pieces text := by
  constructor
  · intro h
    induction h with
    | nil => exact pieces_nil.symm
    | stretch hne htext hend _ ih =>
      rw [pieces_stretch (mt String.toList_eq_nil_iff.1 hne) htext hend, String.ofList_toList, ih]
    | reference hne hname hend _ ih =>
      rw [pieces_reference (mt String.toList_eq_nil_iff.1 hne) hname hend, String.ofList_toList, ih]
    | dollar hend _ ih => rw [pieces_dollar hend, ih]
  · rintro rfl
    exact reads_pieces text

/-! ## Expanding -/

variable (vars : Variables)

theorem expandChars_nil : vars.expandChars [] = [] := by rw [expandChars]

theorem expandChars_stretch (hrun : ∀ c ∈ run, c ≠ '$') (rest : List Char) :
    vars.expandChars (run ++ rest) = run ++ vars.expandChars rest := by
  induction run with
  | nil => rfl
  | cons c more ih =>
    obtain ⟨hc, hmore⟩ := List.forall_mem_cons.1 hrun
    rw [List.cons_append, expandChars, if_pos hc, ih hmore, List.cons_append]

theorem expandChars_reference (hne : run ≠ []) (hrun : ∀ c ∈ run, isNameChar c = true)
    (hend : ∀ c ∈ rest.head?, isNameChar c = false) :
    vars.expandChars ('$' :: (run ++ rest)) =
      ((vars.get? (String.ofList run)).getD "").toList ++ vars.expandChars rest := by
  rw [expandChars]
  simp [takeWhile_run_append hrun hend, dropWhile_run_append hrun hend, hne]

theorem expandChars_dollar (hend : ∀ c ∈ rest.head?, isNameChar c = false) :
    vars.expandChars ('$' :: rest) = '$' :: vars.expandChars rest := by
  have hnone : rest.takeWhile isNameChar = [] := takeWhile_run_append (List.forall_mem_nil _) hend
  rw [expandChars]
  simp [hnone]

/-- Expanding puts the value of every piece in its place. -/
theorem Reads.expandChars_eq (h : Reads text read) :
    vars.expandChars text = (String.join (read.map (Piece.value vars))).toList := by
  induction h with
  | nil => exact vars.expandChars_nil
  | stretch _ htext _ _ ih =>
    rw [vars.expandChars_stretch htext, ih, List.map_cons, String.join_cons, String.toList_append]
    rfl
  | reference hne hname hend _ ih =>
    rw [vars.expandChars_reference (mt String.toList_eq_nil_iff.1 hne) hname hend, ih, List.map_cons,
      String.join_cons, String.toList_append, String.ofList_toList]
    rfl
  | dollar hend _ ih =>
    have hvalue : (Piece.dollar.value vars).toList = ['$'] := by simp [Piece.value]
    rw [vars.expandChars_dollar hend, ih, List.map_cons, String.join_cons, String.toList_append, hvalue,
      List.singleton_append]

/-- A reference and nothing else leaves the value of its variable. -/
theorem expand_reference {name : String} (hne : name ≠ "") (hname : ∀ c ∈ name.toList, isNameChar c = true) :
    vars.expand ("$" ++ name) = (vars.get? name).getD "" := by
  have htext : ("$" ++ name).toList = '$' :: (name.toList ++ []) := by simp
  rw [expand, htext, vars.expandChars_reference (mt String.toList_eq_nil_iff.1 hne) hname (by simp),
    expandChars_nil, List.append_nil, String.ofList_toList, String.ofList_toList]

/-! ## Expanding in parts -/

/-- A text that ends in a dollar sign with nothing behind it but characters of a name, and perhaps not even
those. -/
def EndsOpen (text : List Char) : Prop :=
  ∃ before name, text = before ++ '$' :: name ∧ ∀ c ∈ name, isNameChar c = true

theorem EndsOpen.append (h : EndsOpen rest) (run : List Char) : EndsOpen (run ++ rest) := by
  obtain ⟨before, name, rfl, hname⟩ := h
  exact ⟨run ++ before, name, (List.append_assoc _ _ _).symm, hname⟩

/-- Two texts can be expanded apart if the first does not end open or the second could not go on with a name. -/
theorem expandChars_append {before behind : List Char}
    (h : EndsOpen before → ∀ c ∈ behind.head?, isNameChar c = false) :
    vars.expandChars (before ++ behind) = vars.expandChars before ++ vars.expandChars behind := by
  have hread := reads_pieces before
  generalize pieces before = read at hread
  induction hread with
  | nil => rw [expandChars_nil, List.nil_append, List.nil_append]
  | stretch _ htext _ _ ih =>
    rw [List.append_assoc, vars.expandChars_stretch htext, vars.expandChars_stretch htext,
      ih fun hopen => h (hopen.append _), List.append_assoc]
  | @reference name rest _ hne hname hend _ ih =>
    have hnext : ∀ c ∈ (rest ++ behind).head?, isNameChar c = false := by
      cases rest with
      | nil => exact h ⟨[], name.toList, by rw [List.append_nil, List.nil_append], hname⟩
      | cons c rest => exact hend
    have hname_ne : name.toList ≠ [] := mt String.toList_eq_nil_iff.1 hne
    rw [List.cons_append, List.append_assoc, vars.expandChars_reference hname_ne hname hnext,
      vars.expandChars_reference hname_ne hname hend, ih fun hopen => h (hopen.append ('$' :: name.toList)),
      List.append_assoc]
  | @dollar rest _ hend _ ih =>
    have hnext : ∀ c ∈ (rest ++ behind).head?, isNameChar c = false := by
      cases rest with
      | nil => exact h ⟨[], [], rfl, List.forall_mem_nil _⟩
      | cons c rest => exact hend
    rw [List.cons_append, vars.expandChars_dollar hnext, vars.expandChars_dollar hend,
      ih fun hopen => h (hopen.append ['$']), List.cons_append]

end

/-- **To expand is to substitute once.** A text can be read in exactly one way as stretches without a dollar
sign, references with the longest name that stands there, and dollar signs without a name. Expanded, it is the
stretches and those dollar signs as they are, with the value of its variable or nothing in the place of each
reference; a value is put in as it is, whatever it looks like. So two texts can be expanded apart if the first
does not end in a dollar sign and characters of a name, if any, or if the second is empty or begins with a
character that cannot be part of a name. -/
theorem expand_eq_substitution (vars : Variables) (text : String) :
    (∃! read, Reads text.toList read) ∧
    (∀ read, Reads text.toList read → vars.expand text = String.join (read.map (Piece.value vars))) ∧
    ∀ before behind : String,
      (¬ EndsOpen before.toList ∨ ∀ c ∈ behind.toList.head?, isNameChar c = false) →
        vars.expand (before ++ behind) = vars.expand before ++ vars.expand behind := by
  refine ⟨⟨pieces text.toList, reads_pieces _, fun read hread => reads_iff.1 hread⟩, ?_, ?_⟩
  · intro read hread
    rw [expand, hread.expandChars_eq, String.ofList_toList]
  · intro before behind h
    have hopen : EndsOpen before.toList → ∀ c ∈ behind.toList.head?, isNameChar c = false :=
      fun hends => h.resolve_left (not_not_intro hends)
    rw [expand, String.toList_append, vars.expandChars_append hopen, String.ofList_append]
    rfl

/-- A value that looks like a reference, and dollar signs one after the other, between a letter that is no
character of a name and the end. -/
theorem expand_eq_substitution_dollars :
    let vars := (empty.set "A" "$B").set "B" "c"
    let read : List Piece :=
      [.stretch "é", .reference "A", .dollar, .reference "B", .stretch "-", .dollar]
    Reads "é$A$$B-$".toList read ∧ (∀ c ∈ "$$B-$".toList.head?, isNameChar c = false) ∧
      vars.expand "é$A$$B-$" = "é$B$c-$" ∧
      vars.expand ("é$A" ++ "$$B-$") = vars.expand "é$A" ++ vars.expand "$$B-$" := by
  intro vars read
  have hread : Reads "é$A$$B-$".toList read := reads_iff.2 (by simp [read, pieces, isNameChar])
  have hend : ∀ c ∈ "$$B-$".toList.head?, isNameChar c = false := by simp [isNameChar]
  obtain ⟨-, hsubstitution, hparts⟩ := expand_eq_substitution vars "é$A$$B-$"
  refine ⟨hread, hend, ?_, hparts _ _ (.inr hend)⟩
  rw [hsubstitution read hread]
  decide

end VirtualShell.Variables
