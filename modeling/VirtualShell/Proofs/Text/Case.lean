import Mathlib.Data.List.Infix
import VirtualShell.Text.Case

/-!
# The lower case form of a part of a text

Every character has one lower case form but for the capital sigma, which has two: what stands around it says
which one it takes. So the form of a part of a text (`lowerWithin`) may differ from the form of that part alone,
and only in its sigmas. If the part itself says enough about the surroundings of each of them (`SigmasSettled`),
it has the same form wherever it stands (`SigmasSettled.lowerWithin_eq`), and lower case keeps it together
(`SigmasSettled.infix_lowerFrom`). If not, then one letter before it or behind it makes a text whose lower case
form does not hold that of the part any more (`exists_not_infix_lowerFrom`).
-/

namespace VirtualShell.Text

/-! ## What stands around a sigma -/

/-- A character that is skipped when a cased one is looked for. -/
def caseIgnores (c : Char) : Bool :=
  inRanges c.toNat caseIgnorableRanges

section

variable {near far : List Char}

theorem meetsCased_append_of_ignored (h : ∀ c ∈ near, caseIgnores c = true) (far : List Char) :
    meetsCased (near ++ far) = meetsCased far := by
  induction near with
  | nil => rfl
  | cons c rest ih =>
    obtain ⟨hc, hrest⟩ := List.forall_mem_cons.1 h
    rw [List.cons_append, meetsCased, ih hrest]
    exact if_pos hc

theorem meetsCased_of_ignored (h : ∀ c ∈ near, caseIgnores c = true) : meetsCased near = false := by
  have happend := meetsCased_append_of_ignored h []
  rwa [List.append_nil] at happend

/-- What lies behind a character that is not skipped does not count. -/
theorem meetsCased_append_of_not_ignored (h : ∃ c ∈ near, caseIgnores c = false) (far : List Char) :
    meetsCased (near ++ far) = meetsCased near := by
  induction near with
  | nil =>
    obtain ⟨c, hc, -⟩ := h
    cases hc
  | cons c rest ih =>
    rw [List.cons_append, meetsCased, meetsCased]
    split
    next hignored =>
      obtain ⟨d, hd, hstop⟩ := h
      rcases List.mem_cons.1 hd with rfl | hrest
      · rw [caseIgnores, hignored] at hstop
        cases hstop
      · exact ih ⟨d, hrest, hstop⟩
    next => rfl

theorem exists_not_ignored_of_meetsCased (h : meetsCased near = true) : ∃ c ∈ near, caseIgnores c = false := by
  by_contra hnone
  have hignored : ∀ c ∈ near, caseIgnores c = true := by simpa using hnone
  rw [meetsCased_of_ignored hignored] at h
  cases h

end

/-! ## A text between others -/

/-- The lower case form of a sigma between two texts, of which the first is given backwards. -/
def sigmaForm (before behind : List Char) : Char :=
  if meetsCased before && !meetsCased behind then 'ς' else 'σ'

/-- The lower case form that a text has between two others, of which the first is given backwards. -/
def lowerWithin (before behind : List Char) : List Char → List Char
  | [] => []
  | c :: rest =>
    (if c = 'Σ' then [sigmaForm before (rest ++ behind)] else lowerForm c) ++ lowerWithin (c :: before) behind rest

section

variable {before behind text : List Char}

theorem lowerFrom_append (before text behind : List Char) :
    lowerFrom before (text ++ behind) =
      lowerWithin before behind text ++ lowerFrom (text.reverse ++ before) behind := by
  induction text generalizing before with
  | nil => rfl
  | cons c rest ih =>
    rw [List.cons_append, lowerFrom, ih, lowerWithin, List.append_assoc, List.reverse_cons, List.append_assoc]
    rfl

/-- A text alone stands between two empty ones. -/
theorem lowerFrom_nil (text : List Char) : lowerFrom [] text = lowerWithin [] [] text := by
  have happend := lowerFrom_append [] text []
  rwa [List.append_nil, lowerFrom, List.append_nil] at happend

theorem lowerWithin_append (before behind first second : List Char) :
    lowerWithin before behind (first ++ second) =
      lowerWithin before (second ++ behind) first ++ lowerWithin (first.reverse ++ before) behind second := by
  induction first generalizing before with
  | nil => rfl
  | cons c rest ih =>
    rw [List.cons_append, lowerWithin, ih, lowerWithin, List.append_assoc, List.append_assoc, List.reverse_cons,
      List.append_assoc]
    rfl

/-- The surroundings have no influence on how long the form is. -/
theorem length_lowerWithin (before behind before' behind' text : List Char) :
    (lowerWithin before behind text).length = (lowerWithin before' behind' text).length := by
  induction text generalizing before before' with
  | nil => rfl
  | cons c rest ih =>
    rw [lowerWithin, lowerWithin, List.length_append, List.length_append, ih (c :: before) (c :: before')]
    split <;> rfl

/-! ## Sigmas that are settled -/

/-- Each capital sigma of a text has the same lower case form wherever the text stands. If a cased letter comes
before the sigma in the text, then what follows it there says whether the word ends; and if nothing in the text
says what comes before the sigma, then a cased letter follows it. -/
def SigmasSettled (text : List Char) : Prop :=
  ∀ before behind, text = before ++ 'Σ' :: behind →
    (meetsCased before.reverse = true → ∃ c ∈ behind, caseIgnores c = false) ∧
    ((∀ c ∈ before, caseIgnores c = true) → meetsCased behind = true)

/-- A sigma that is settled has one form. -/
theorem sigmaForm_append_of_settled {near far : List Char} (outer beyond : List Char)
    (hcased : meetsCased near = true → ∃ c ∈ far, caseIgnores c = false)
    (hopen : (∀ c ∈ near, caseIgnores c = true) → meetsCased far = true) :
    sigmaForm (near ++ outer) (far ++ beyond) = sigmaForm near far := by
  by_cases hignored : ∀ c ∈ near, caseIgnores c = true
  · have hfar := hopen hignored
    have hbeyond := meetsCased_append_of_not_ignored (exists_not_ignored_of_meetsCased hfar) beyond
    simp [sigmaForm, hbeyond, hfar]
  · have hstop : ∃ c ∈ near, caseIgnores c = false := by simpa using hignored
    have hnear := meetsCased_append_of_not_ignored hstop outer
    cases hmeets : meetsCased near with
    | false => simp [sigmaForm, hnear, hmeets]
    | true =>
      have hbeyond := meetsCased_append_of_not_ignored (hcased hmeets) beyond
      simp [sigmaForm, hnear, hbeyond]

/-- Wherever it stands, a text with settled sigmas has the form that it has alone. -/
theorem SigmasSettled.lowerWithin_eq (h : SigmasSettled text) (outer beyond : List Char) :
    lowerWithin outer beyond text = lowerWithin [] [] text := by
  -- the induction is on what is left of the text, whose beginning has been read
  suffices hrest : ∀ rest done, done ++ rest = text →
      lowerWithin (done.reverse ++ outer) beyond rest = lowerWithin done.reverse [] rest from hrest text [] rfl
  intro rest
  induction rest with
  | nil => exact fun _ _ => rfl
  | cons c rest ih =>
    intro done hdone
    have hnext := ih (done ++ [c]) (by rw [List.append_assoc, List.singleton_append, hdone])
    rw [List.reverse_append, List.reverse_singleton, List.singleton_append, List.cons_append] at hnext
    rw [lowerWithin, lowerWithin, hnext, List.append_nil]
    by_cases hsigma : c = 'Σ'
    · obtain ⟨hcased, hopen⟩ := h done rest (by rw [← hdone, hsigma])
      have hform : sigmaForm (done.reverse ++ outer) (rest ++ beyond) = sigmaForm done.reverse rest :=
        sigmaForm_append_of_settled outer beyond hcased fun hignored =>
          hopen fun d hd => hignored d (List.mem_reverse.2 hd)
      rw [if_pos hsigma, if_pos hsigma, hform]
    · rw [if_neg hsigma, if_neg hsigma]

/-- Lower case keeps a text with settled sigmas together. -/
theorem SigmasSettled.infix_lowerFrom {line : List Char} (h : SigmasSettled text) (hline : text <:+: line) :
    lowerFrom [] text <:+: lowerFrom [] line := by
  obtain ⟨before, behind, rfl⟩ := hline
  rw [List.append_assoc, lowerFrom_append, lowerFrom_append, h.lowerWithin_eq, ← lowerFrom_nil]
  exact ⟨_, _, List.append_assoc _ _ _⟩

/-! ## Sigmas that are not settled -/

/-- A sigma whose form is another one in other surroundings gives the text another form. -/
theorem lowerWithin_ne_of_sigmaForm_ne {outer beyond before behind : List Char}
    (h : sigmaForm (before.reverse ++ outer) (behind ++ beyond) ≠ sigmaForm before.reverse behind) :
    lowerWithin outer beyond (before ++ 'Σ' :: behind) ≠ lowerWithin [] [] (before ++ 'Σ' :: behind) := by
  rw [lowerWithin_append, lowerWithin_append, lowerWithin, lowerWithin, if_pos rfl, if_pos rfl,
    List.append_nil, List.append_nil, List.append_nil]
  intro heq
  have hrest := (List.append_inj heq (length_lowerWithin ..)).2
  rw [List.singleton_append, List.singleton_append] at hrest
  exact h (List.cons.inj hrest).1

/-- A cased character that is its own lower case form wherever it stands. -/
structure IsSmallLetter (c : Char) : Prop where
  meetsCased : meetsCased [c] = true
  ne_sigma : c ≠ 'Σ'
  lowerForm : lowerForm c = [c]

theorem IsSmallLetter.lowerWithin_singleton {c : Char} (h : IsSmallLetter c) (before behind : List Char) :
    lowerWithin before behind [c] = [c] := by
  rw [lowerWithin, if_neg h.ne_sigma, h.lowerForm, lowerWithin, List.append_nil]

/-- One of two letters is not the character that a text begins or ends with. -/
theorem exists_small_letter (edge : Option Char) :
    ∃ c, (c = 'a' ∨ c = 'b') ∧ IsSmallLetter c ∧ edge ≠ some c := by
  by_cases h : edge = some 'a'
  · exact ⟨'b', .inr rfl, ⟨by decide, by decide, by decide⟩, by rw [h]; decide⟩
  · exact ⟨'a', .inl rfl, ⟨by decide, by decide, by decide⟩, h⟩

/-- A text with a sigma that is not settled has another form before a letter or behind one. -/
theorem lowerWithin_ne_of_not_settled (h : ¬ SigmasSettled text) :
    (∀ c, IsSmallLetter c → lowerWithin [] [c] text ≠ lowerWithin [] [] text) ∨
      ∀ c, IsSmallLetter c → lowerWithin [c] [] text ≠ lowerWithin [] [] text := by
  simp only [SigmasSettled, not_forall, not_and_or, exists_prop] at h
  obtain ⟨before, behind, rfl, ⟨hcased, hnone⟩ | ⟨hopen, hnone⟩⟩ := h
  · left
    intro c hc
    have hignored : ∀ d ∈ behind, caseIgnores d = true := by simpa using hnone
    apply lowerWithin_ne_of_sigmaForm_ne
    simp [sigmaForm, hcased, meetsCased_append_of_ignored hignored, meetsCased_of_ignored hignored, hc.meetsCased]
  · right
    intro c hc
    have hignored : ∀ d ∈ before.reverse, caseIgnores d = true := fun d hd => hopen d (List.mem_reverse.1 hd)
    apply lowerWithin_ne_of_sigmaForm_ne
    simp [sigmaForm, hnone, meetsCased_append_of_ignored hignored, meetsCased_of_ignored hignored, hc.meetsCased]

/-- A list as long as another one, and not equal to it, is not found there with one more item at the end unless it
has this item at its end, too. -/
private theorem not_infix_concat {α : Type} {part whole : List α} {a : α} (hlength : part.length = whole.length)
    (hne : whole ≠ part) (ha : part.getLast? ≠ some a) : ¬ part <:+: whole ++ [a] := by
  rw [List.infix_concat_iff]
  rintro (hsuffix | hoccurs)
  · cases hend : part.getLast? with
    | none =>
      rw [List.getLast?_eq_none_iff.1 hend] at hlength hne
      exact hne (List.length_eq_zero_iff.1 hlength.symm)
    | some b =>
      obtain ⟨front, rfl⟩ := List.getLast?_eq_some_iff.1 hend
      obtain ⟨start, hstart⟩ := hsuffix
      rw [← List.append_assoc] at hstart
      have hab := (List.append_inj' hstart rfl).2
      rw [hend, List.singleton_inj.1 hab] at ha
      exact ha rfl
  · exact hne (hoccurs.eq_of_length hlength).symm

private theorem not_infix_cons {α : Type} {part whole : List α} {a : α} (hlength : part.length = whole.length)
    (hne : whole ≠ part) (ha : part.head? ≠ some a) : ¬ part <:+: a :: whole := by
  rw [← List.reverse_infix, List.reverse_cons]
  apply not_infix_concat
  · rw [List.length_reverse, List.length_reverse, hlength]
  · exact fun heq => hne (List.reverse_inj.1 heq)
  · rwa [List.getLast?_reverse]

/-- A text with a sigma that is not settled can be put next to a letter so that the lower case form of the whole
does not hold that of the text. -/
theorem exists_not_infix_lowerFrom (h : ¬ SigmasSettled text) :
    ∃ line, text <:+: line ∧ (∀ c ∈ line, c ∈ text ∨ c = 'a' ∨ c = 'b') ∧
      ¬ lowerFrom [] text <:+: lowerFrom [] line := by
  rw [lowerFrom_nil]
  obtain hbehind | hbefore := lowerWithin_ne_of_not_settled h
  · obtain ⟨c, hletter, hsmall, hlast⟩ := exists_small_letter (lowerWithin [] [] text).getLast?
    refine ⟨text ++ [c], (List.prefix_append text [c]).isInfix, ?_, ?_⟩
    · intro d hd
      rw [List.mem_append, List.mem_singleton] at hd
      rcases hd with hd | rfl
      · exact .inl hd
      · exact .inr hletter
    · rw [lowerFrom_nil, lowerWithin_append, hsmall.lowerWithin_singleton]
      exact not_infix_concat (length_lowerWithin ..) (hbehind c hsmall) hlast
  · obtain ⟨c, hletter, hsmall, hfirst⟩ := exists_small_letter (lowerWithin [] [] text).head?
    refine ⟨[c] ++ text, (List.suffix_append [c] text).isInfix, ?_, ?_⟩
    · intro d hd
      rw [List.mem_append, List.mem_singleton] at hd
      rcases hd with rfl | hd
      · exact .inr hletter
      · exact .inl hd
    · rw [lowerFrom_nil, lowerWithin_append, hsmall.lowerWithin_singleton]
      exact not_infix_cons (length_lowerWithin ..) (hbefore c hsmall) hfirst

end

end VirtualShell.Text
