/-!
# Finding one text in another

Substrings, text before and after a character, and removal of a known beginning. `occursIn` is by
contiguous sublists: `occursIn pattern text` holds exactly if `pattern <:+: text`.
-/

namespace VirtualShell.Text

/-- Whether the pattern stands somewhere in the text without a gap. -/
def occursIn (pattern : List Char) : List Char → Bool
  | [] => pattern.isEmpty
  | c :: rest => pattern.isPrefixOf (c :: rest) || occursIn pattern rest

/-- `occursIn` decides the contiguous-sublist relation. -/
theorem occursIn_iff {pattern : List Char} : ∀ {text : List Char},
    occursIn pattern text = true ↔ pattern <:+: text
  | [] => by simp [occursIn]
  | c :: rest => by
    simp only [occursIn, Bool.or_eq_true, List.isPrefixOf_iff_prefix, @occursIn_iff pattern rest,
      List.infix_cons_iff]

/-- Whether the text `s` contains the text `pattern`. -/
def contains (s pattern : String) : Bool :=
  occursIn pattern.toList s.toList

/-- What follows `start` in a text that begins with it. -/
def after? : List Char → List Char → Option (List Char)
  | [], text => some text
  | _ :: _, [] => none
  | p :: start, c :: text => if p = c then after? start text else none

/-- The rest after a known beginning is what completes it to the whole text. -/
theorem after?_eq_some_iff {rest : List Char} : ∀ {start text : List Char},
    after? start text = some rest ↔ text = start ++ rest
  | [], text => by simp [after?, eq_comm]
  | _ :: _, [] => by simp [after?]
  | p :: start, c :: text => by
    by_cases h : p = c
    · simp [after?, h, @after?_eq_some_iff rest start]
    · have h' : ¬ c = p := fun e => h e.symm
      simp [after?, h, h']

/-- Whether the text `s` begins with the text `start`. -/
def startsWith (s start : String) : Bool :=
  start.toList.isPrefixOf s.toList

/-- What follows the text `start` in a text that begins with it. -/
def dropStart? (start s : String) : Option String :=
  (after? start.toList s.toList).map String.ofList

/-- Dropping the beginning of a text leaves what completes it to the whole text. -/
theorem dropStart?_eq_some_iff {start s rest : String} :
    dropStart? start s = some rest ↔ s = start ++ rest := by
  rw [dropStart?, Option.map_eq_some_iff, ← String.toList_inj, String.toList_append]
  constructor
  · rintro ⟨chars, hchars, rfl⟩
    rw [after?_eq_some_iff.1 hchars, String.toList_ofList]
  · intro h
    exact ⟨rest.toList, after?_eq_some_iff.2 h, String.ofList_toList⟩

/-- The parts of a text before and after the first occurrence of a character. -/
def cutFirst (mark : Char) : List Char → Option (List Char × List Char)
  | [] => none
  | c :: rest =>
    if c = mark then some ([], rest)
    else (cutFirst mark rest).map fun (before, behind) => (c :: before, behind)

/-- A text without the mark has no first cut. -/
theorem cutFirst_eq_none {mark : Char} {text : List Char} (h : mark ∉ text) :
    cutFirst mark text = none := by
  induction text with
  | nil => rfl
  | cons c rest ih =>
    obtain ⟨hc, hrest⟩ := not_or.1 (mt List.mem_cons.2 h)
    rw [cutFirst, if_neg (Ne.symm hc), ih hrest]
    rfl

/-- The first cut is made at a mark that has none before it. -/
theorem cutFirst_append_cons {mark : Char} {before : List Char} (h : mark ∉ before)
    (behind : List Char) : cutFirst mark (before ++ mark :: behind) = some (before, behind) := by
  induction before with
  | nil => exact if_pos rfl
  | cons c rest ih =>
    obtain ⟨hc, hrest⟩ := not_or.1 (mt List.mem_cons.2 h)
    rw [List.cons_append, cutFirst, if_neg (Ne.symm hc), ih hrest]
    rfl

/-- The parts of a text before and after the last occurrence of a character. -/
def cutLast (mark : Char) : List Char → Option (List Char × List Char)
  | [] => none
  | c :: rest =>
    match cutLast mark rest with
    | some (before, behind) => some (c :: before, behind)
    | none => if c = mark then some ([], rest) else none

/-- A text without the mark has no cut. -/
theorem cutLast_eq_none {mark : Char} : ∀ {text : List Char}, mark ∉ text → cutLast mark text = none
  | [], _ => rfl
  | c :: rest, h => by
    have hc : ¬ c = mark := fun e => h (e ▸ List.mem_cons_self)
    have hrest := cutLast_eq_none fun hmem => h (List.mem_cons_of_mem c hmem)
    simp [cutLast, hrest, hc]

/-- A text without a cut does not hold the mark. -/
theorem mark_not_mem_of_cutLast_eq_none {mark : Char} :
    ∀ {text : List Char}, cutLast mark text = none → mark ∉ text
  | [], _ => List.not_mem_nil
  | c :: rest, h => by
    unfold cutLast at h
    split at h
    · simp at h
    next hnone =>
      have hrest := mark_not_mem_of_cutLast_eq_none hnone
      split at h
      · simp at h
      next hc => exact fun hmem => (List.mem_cons.1 hmem).elim (fun e => hc e.symm) hrest

/-- The last cut leaves a second part without the mark, and loses nothing. -/
theorem cutLast_eq_some_iff {mark : Char} {before behind : List Char} : ∀ {text : List Char},
    cutLast mark text = some (before, behind) ↔ text = before ++ mark :: behind ∧ mark ∉ behind
  | [] => by simp [cutLast]
  | c :: rest => by
    have ih := fun b h => @cutLast_eq_some_iff mark b h rest
    constructor
    · unfold cutLast
      split
      next b h heq =>
        rintro ⟨⟩
        exact ⟨by simp [((ih _ _).1 heq).1], ((ih _ _).1 heq).2⟩
      next hnone =>
        split
        next hc =>
          rintro ⟨⟩
          refine ⟨by simp [hc], fun hmem => ?_⟩
          exact mark_not_mem_of_cutLast_eq_none hnone hmem
        next => simp
    · rintro ⟨heq, hfree⟩
      cases before with
      | nil =>
        obtain ⟨rfl, rfl⟩ : c = mark ∧ rest = behind := by simpa using heq
        have hnone : cutLast c rest = none := cutLast_eq_none hfree
        simp [cutLast, hnone]
      | cons b before =>
        obtain ⟨rfl, hrest⟩ : c = b ∧ rest = before ++ mark :: behind := by simpa using heq
        have := (ih before behind).2 ⟨hrest, hfree⟩
        simp [cutLast, this]

end VirtualShell.Text
