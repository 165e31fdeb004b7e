import Mathlib.Data.List.Induction
import VirtualShell.Proofs.Entries
import VirtualShell.Variables

/-!
# The names and the values of variables

Setting a variable takes no name away and moves none. The names that several assignments set for the first time
are listed behind those that were there, in the order in which they come first (`names_setAll_eq_append`). So the
names of the variables are those that were ever set, each once and in the order in which they were first set
(`names_setAll`). The last assignment to a variable counts, and a variable keeps its value as long as others are
set.

A valid name is a run of characters that can be part of a name. Neither blanks nor the signs that have a meaning
on a command line are among them.
-/

namespace VirtualShell.Variables

/-- The names of the variables, in order. -/
def names (vars : Variables) : List String :=
  Entries.names vars.bindings

/-- Sets several variables in turn. -/
def setAll (vars : Variables) (assignments : List (String × String)) : Variables :=
  assignments.foldl (fun vars (name, value) => vars.set name value) vars

theorem setAll_cons (vars : Variables) (name value : String) (rest : List (String × String)) :
    vars.setAll ((name, value) :: rest) = (vars.set name value).setAll rest := rfl

theorem setAll_append (vars : Variables) (assignments others : List (String × String)) :
    vars.setAll (assignments ++ others) = (vars.setAll assignments).setAll others :=
  List.foldl_append

/-! ## Characters of names -/

/-- What can be part of a name lies between the digit zero and the letter z. -/
theorem toNat_of_isNameChar {c : Char} (h : isNameChar c = true) : 48 ≤ c.toNat ∧ c.toNat ≤ 122 := by
  have hrange {low high : UInt32} (hlow : low ≤ c.val) (hhigh : c.val ≤ high) (hleast : 48 ≤ low.toNat)
      (hgreatest : high.toNat ≤ 122) : 48 ≤ c.toNat ∧ c.toNat ≤ 122 :=
    ⟨hleast.trans (UInt32.le_iff_toNat_le.1 hlow), (UInt32.le_iff_toNat_le.1 hhigh).trans hgreatest⟩
  rcases Bool.or_eq_true_iff.1 h with halphanum | hunder
  · rcases Bool.or_eq_true_iff.1 halphanum with halpha | hdigit
    · rcases Bool.or_eq_true_iff.1 halpha with hupper | hlower
      · obtain ⟨hlow, hhigh⟩ := of_decide_eq_true hupper
        exact hrange hlow hhigh (by decide) (by decide)
      · obtain ⟨hlow, hhigh⟩ := Bool.and_eq_true_iff.1 hlower
        exact hrange (of_decide_eq_true hlow) (of_decide_eq_true hhigh) (by decide) (by decide)
    · obtain ⟨hlow, hhigh⟩ := Bool.and_eq_true_iff.1 hdigit
      exact hrange (of_decide_eq_true hlow) (of_decide_eq_true hhigh) (by decide) (by decide)
  · rw [beq_iff_eq.1 hunder]
    decide

theorem isBlank_eq_false_of_isNameChar {c : Char} (h : isNameChar c = true) : Text.isBlank c = false := by
  obtain ⟨hlow, hhigh⟩ := toNat_of_isNameChar h
  simp [Text.isBlank, Text.inRanges, Text.blankRanges]
  omega

/-- A valid name is a run of characters that can be part of a name. -/
theorem isNameChar_of_isValidName {name : String} (h : isValidName name = true) :
    name ≠ "" ∧ ∀ c ∈ name.toList, isNameChar c = true := by
  rw [isValidName] at h
  split at h
  next => cases h
  next first rest hname =>
    obtain ⟨hfirst, hrest⟩ := Bool.and_eq_true_iff.1 h
    have hstart : isNameChar first = true := by
      rw [isNameChar, Char.isAlphanum]
      rcases Bool.or_eq_true_iff.1 hfirst with halpha | hunder
      · rw [halpha, Bool.true_or, Bool.true_or]
      · rw [hunder, Bool.or_true]
    refine ⟨?_, ?_⟩
    · rintro rfl
      cases hname
    · rw [hname]
      exact List.forall_mem_cons.2 ⟨hstart, List.all_eq_true.1 hrest⟩

/-- A character that cannot be part of a name does not stand in a valid one. -/
theorem not_mem_of_isValidName {name : String} (h : isValidName name = true) {c : Char}
    (hc : isNameChar c = false) : c ∉ name.toList := by
  intro hmem
  rw [(isNameChar_of_isValidName h).2 c hmem] at hc
  cases hc

/-! ## Names -/

/-- A name that comes again is listed where it came first. -/
theorem eraseDups_concat (names : List String) (name : String) :
    (names ++ [name]).eraseDups =
      if name ∈ names then names.eraseDups else names.eraseDups ++ [name] := by
  rw [List.eraseDups_append]
  by_cases hmem : name ∈ names
  · simp [List.removeAll, hmem]
  · simp [List.removeAll, hmem, List.eraseDups_cons]

/-- A name that is listed where it came first is listed once. -/
theorem nodup_eraseDups (names : List String) : names.eraseDups.Nodup := by
  induction names using List.reverseRecOn with
  | nil => exact List.nodup_nil
  | append_singleton names name ih =>
    rw [eraseDups_concat]
    split
    next => exact ih
    next hnew =>
      refine List.nodup_append.2 ⟨ih, List.pairwise_singleton _ _, fun other hother last hlast => ?_⟩
      rintro rfl
      rw [List.mem_singleton.1 hlast, List.mem_eraseDups] at hother
      exact hnew hother

/-- Later names are listed behind earlier ones. -/
theorem eraseDups_prefix (before after : List String) :
    before.eraseDups <+: (before ++ after).eraseDups := by
  rw [List.eraseDups_append]
  exact List.prefix_append _ _

theorem names_set_eq_ite (vars : Variables) (name value : String) :
    (vars.set name value).names = if name ∈ vars.names then vars.names else vars.names ++ [name] := by
  split
  next hthere => exact Entries.names_put_of_mem hthere value
  next hnew =>
    rw [names, set, Entries.put_eq_concat hnew, Entries.names, List.map_append]
    rfl

/-- Names that are set for the first time are listed behind those that are there. -/
theorem names_setAll_eq_append (vars : Variables) (assignments : List (String × String)) :
    (vars.setAll assignments).names =
      vars.names ++ ((assignments.map (·.1)).removeAll vars.names).eraseDups := by
  induction assignments using List.reverseRecOn with
  | nil => exact (List.append_nil _).symm
  | append_singleton assignments assignment ih =>
    obtain ⟨name, value⟩ := assignment
    let added := (assignments.map (·.1)).removeAll vars.names
    have hset : vars.setAll (assignments ++ [(name, value)]) = (vars.setAll assignments).set name value :=
      setAll_append vars assignments [(name, value)]
    have hmem : name ∈ (vars.setAll assignments).names ↔ name ∈ vars.names ∨ name ∈ added := by
      rw [ih, List.mem_append, List.mem_eraseDups]
    have hadded : ((assignments ++ [(name, value)]).map (·.1)).removeAll vars.names =
        added ++ if name ∈ vars.names then [] else [name] := by
      by_cases hthere : name ∈ vars.names
      · simp [added, List.removeAll, hthere]
      · simp [added, List.removeAll, hthere]
    rw [hset, names_set_eq_ite, hadded]
    by_cases hthere : name ∈ vars.names
    · rw [if_pos (hmem.2 (.inl hthere)), if_pos hthere, List.append_nil, ih]
    · rw [if_neg hthere, eraseDups_concat]
      by_cases hagain : name ∈ added
      · rw [if_pos (hmem.2 (.inr hagain)), if_pos hagain, ih]
      · rw [if_neg (mt hmem.1 (not_or.2 ⟨hthere, hagain⟩)), if_neg hagain, ih, List.append_assoc]

theorem names_setAll {vars : Variables} {before : List String} (h : vars.names = before.eraseDups)
    (assignments : List (String × String)) :
    (vars.setAll assignments).names = (before ++ assignments.map (·.1)).eraseDups := by
  have hsame : (assignments.map (·.1)).removeAll before.eraseDups =
      (assignments.map (·.1)).removeAll before := by
    simp only [List.removeAll, List.elem_eq_contains, List.contains_eq_mem, List.mem_eraseDups]
  rw [names_setAll_eq_append, h, hsame, List.eraseDups_append]

/-- Setting adds the name to those that were set before. -/
theorem names_set {vars : Variables} {before : List String} (h : vars.names = before.eraseDups)
    (name value : String) : (vars.set name value).names = (before ++ [name]).eraseDups :=
  names_setAll h [(name, value)]

/-- The names that a shell begins with. -/
def initialNames : List String := ["HOME", "USER", "PATH", "PWD"]

theorem names_initial (config : Config) (cwd : String) :
    (initial config cwd).names = initialNames := by
  simp [initial, empty, set, Entries.put, names, Entries.names, initialNames]

theorem all_isValidName_initialNames : initialNames.all isValidName = true := by decide

/-! ## Values -/

@[simp]
theorem get?_set_self (vars : Variables) (name value : String) :
    (vars.set name value).get? name = some value :=
  Entries.lookup_put_self name value vars.bindings

theorem get?_set_of_ne (vars : Variables) {name other : String} (h : other ≠ name) (value : String) :
    (vars.set name value).get? other = vars.get? other :=
  Entries.lookup_put_of_ne h value vars.bindings

/-- Assignments to other names leave a variable its value. -/
theorem get?_setAll_of_not_mem (vars : Variables) {name : String}
    {assignments : List (String × String)} (h : name ∉ assignments.map (·.1)) :
    (vars.setAll assignments).get? name = vars.get? name := by
  induction assignments generalizing vars with
  | nil => rfl
  | cons assignment rest ih =>
    rw [List.map_cons, List.mem_cons, not_or] at h
    rw [setAll_cons, ih _ h.2, get?_set_of_ne vars h.1]

/-- The last assignment to a variable counts. -/
theorem get?_setAll_of_last (vars : Variables) {name : String} {after : List (String × String)}
    (h : name ∉ after.map (·.1)) (before : List (String × String)) (value : String) :
    (vars.setAll (before ++ (name, value) :: after)).get? name = some value := by
  rw [setAll_append, setAll_cons, get?_setAll_of_not_mem _ h, get?_set_self]

/-- Giving variables the values that they have changes nothing. -/
theorem setAll_eq_self (vars : Variables) {assignments : List (String × String)}
    (h : ∀ assignment ∈ assignments, vars.get? assignment.1 = some assignment.2) :
    vars.setAll assignments = vars := by
  induction assignments with
  | nil => rfl
  | cons assignment rest ih =>
    obtain ⟨hfirst, hrest⟩ := List.forall_mem_cons.1 h
    have hset : vars.set assignment.1 assignment.2 = vars := by rw [set, Entries.put_eq_self hfirst]
    rw [setAll_cons, hset, ih hrest]

end VirtualShell.Variables
