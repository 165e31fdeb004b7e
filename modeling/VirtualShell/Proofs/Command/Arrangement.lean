import Mathlib.Data.List.Sort
import Mathlib.Data.Prod.Lex
import Mathlib.Data.String.Basic
import VirtualShell.Command.Arrangement
import VirtualShell.Proofs.Number.Decimal

/-!
# What sorting prints

Lines are sorted by an order in which no two different lines are equal (`InOrder.antisymm`), so what is printed
depends on nothing but which lines there are (`eq_sortedBy`, `sort_arranges_multiset`).

If numbers are asked for, a line that begins with digits gets its key from these and from the digits and points
behind them (`leadingKey_eq`). With one point at most they are a decimal number, and its key is the bit pattern
that this number is rounded to. It lies between the patterns of the leading integer and of the next one, since
rounding keeps the order (`Number.nearestBits_le`). So greater leading integers come later, unless rounding brings
two numbers together (`of_leadingKey_eq`).
-/

namespace VirtualShell.Command

/-! ## Sorted lines -/

/-- Whether a line may come before another one: by code point, or if numbers are asked for by the numbers that the
lines begin with, and by code point if these are equal. -/
def InOrder (numeric : Bool) (line other : String) : Prop :=
  if numeric then leadingKey line < leadingKey other ∨ leadingKey line = leadingKey other ∧ line ≤ other
  else line ≤ other

instance : Decidable (InOrder numeric a b) :=
  inferInstanceAs <| Decidable <|
    if numeric then leadingKey a < leadingKey b ∨ leadingKey a = leadingKey b ∧ a ≤ b else a ≤ b

/-- The lines in this order. -/
def sortedBy (numeric : Bool) (lines : List String) : List String :=
  if numeric then sortByNumber lines else sortByText lines

variable {numeric : Bool} {lines others : List String} {a b : String}

theorem InOrder.antisymm (hab : InOrder numeric a b) (hba : InOrder numeric b a) : a = b := by
  cases numeric with
  | false => exact le_antisymm (by simpa [InOrder] using hab) (by simpa [InOrder] using hba)
  | true =>
    simp only [InOrder, if_true] at hab hba
    obtain hab | ⟨hkey, hab⟩ := hab
    · omega
    · obtain hba | ⟨-, hba⟩ := hba
      · omega
      · exact le_antisymm hab hba

/-- Lines with their keys are compared in lexicographic order. -/
theorem keyedLe_eq_true_iff {p q : ℤ × String} : keyedLe p q = true ↔ toLex p ≤ toLex q := by
  simp [keyedLe, Prod.Lex.toLex_le_toLex]

theorem sortByText_pairwise (lines : List String) : (sortByText lines).Pairwise (· ≤ ·) :=
  List.pairwise_mergeSort' (· ≤ ·) lines

theorem keyed_mergeSort_pairwise (keyed : List (ℤ × String)) :
    (keyed.mergeSort keyedLe).Pairwise fun p q => toLex p ≤ toLex q := by
  have htrans : ∀ p q r, keyedLe p q = true → keyedLe q r = true → keyedLe p r = true := by
    intro p q r hpq hqr
    rw [keyedLe_eq_true_iff] at *
    exact hpq.trans hqr
  have htotal : ∀ p q, (keyedLe p q || keyedLe q p) = true := by
    intro p q
    rw [Bool.or_eq_true, keyedLe_eq_true_iff, keyedLe_eq_true_iff]
    exact le_total _ _
  exact (List.pairwise_mergeSort htrans htotal keyed).imp keyedLe_eq_true_iff.1

theorem sortedBy_perm (numeric : Bool) (lines : List String) : (sortedBy numeric lines).Perm lines := by
  cases numeric with
  | false => exact List.mergeSort_perm _ _
  | true =>
    have hkeyed := (List.mergeSort_perm (lines.map fun line => (leadingKey line, line)) keyedLe).map Prod.snd
    rwa [List.map_map, Function.comp_def, List.map_id'] at hkeyed

theorem sortedBy_pairwise (numeric : Bool) (lines : List String) :
    (sortedBy numeric lines).Pairwise (InOrder numeric) := by
  cases numeric with
  | false => exact (sortByText_pairwise lines).imp fun h => by simpa [InOrder] using h
  | true =>
    let keyed := lines.map fun line => (leadingKey line, line)
    have hkey : ∀ p ∈ keyed.mergeSort keyedLe, p.1 = leadingKey p.2 := by
      intro p hp
      obtain ⟨line, -, rfl⟩ := List.mem_map.1 ((List.mergeSort_perm keyed keyedLe).mem_iff.1 hp)
      rfl
    refine List.pairwise_map.2 ((keyed_mergeSort_pairwise keyed).imp_of_mem fun {p q} hp hq hle => ?_)
    rw [Prod.Lex.toLex_le_toLex, hkey p hp, hkey q hq] at hle
    simpa [InOrder] using hle

/-- Lines in order are known from which lines they are. -/
theorem eq_sortedBy (hperm : lines.Perm others) (hsorted : lines.Pairwise (InOrder numeric)) :
    lines = sortedBy numeric others :=
  List.Perm.eq_of_pairwise (fun _ _ _ _ => InOrder.antisymm) hsorted (sortedBy_pairwise numeric others)
    (hperm.trans (sortedBy_perm numeric others).symm)

theorem sortedBy_congr (h : lines.Perm others) : sortedBy numeric lines = sortedBy numeric others :=
  eq_sortedBy ((sortedBy_perm numeric lines).trans h) (sortedBy_pairwise numeric lines)

theorem arrange_eq (flags : List Char) (lines : List String) :
    arrange flags lines =
      if 'r' ∈ flags then (sortedBy ('n' ∈ flags) lines).reverse else sortedBy ('n' ∈ flags) lines := by
  simp [arrange, sortedBy]

theorem runSort_of_resolve {env : Environment} {args : List String} {file text : String} {mode : Option String}
    (hfile : (operandsOf args).head? = some file) (hresolve : env.resolve file = some (.file text mode)) :
    runSort env args = .ok (.text (Text.unlines (arrange (flagsOf args) (Text.lines text)))) := by
  simp only [runSort, hfile, readFile, hresolve]
  rfl

/-- What is printed is known from which lines it has and that they are in order. -/
theorem runSort_of_inOrder {env : Environment} {args : List String} {file text : String} {mode : Option String}
    (hfile : (operandsOf args).head? = some file) (hresolve : env.resolve file = some (.file text mode))
    (hforward : 'r' ∉ flagsOf args) (hperm : lines.Perm (Text.lines text))
    (hsorted : lines.Pairwise (InOrder ('n' ∈ flagsOf args))) :
    runSort env args = .ok (.text (Text.unlines lines)) := by
  rw [runSort_of_resolve hfile hresolve, arrange_eq, if_neg hforward, ← eq_sortedBy hperm hsorted]

/-- **What `sort` prints** is given by which lines a file has: whatever their order in the file, the same lines in
order by code point, or in order by their keys and among equal keys by code point if numbers are asked for, and
these backwards if the flags ask for it. -/
theorem sort_arranges_multiset (numeric : Bool) (lines : List String) :
    ∃ sorted : List String, sorted.Perm lines ∧ sorted.Pairwise (InOrder numeric) ∧
      ∀ (env : Environment) (args : List String) (file text : String) (mode : Option String),
        (operandsOf args).head? = some file → env.resolve file = some (.file text mode) →
        (Text.lines text).Perm lines → ('n' ∈ flagsOf args ↔ numeric = true) →
        runSort env args =
          .ok (.text (Text.unlines (if 'r' ∈ flagsOf args then sorted.reverse else sorted))) := by
  refine ⟨sortedBy numeric lines, sortedBy_perm numeric lines, sortedBy_pairwise numeric lines, ?_⟩
  intro env args file text mode hfile hresolve hperm hnumeric
  have hflag : decide ('n' ∈ flagsOf args) = numeric := by
    rw [Bool.eq_iff_iff, decide_eq_true_iff, hnumeric]
  rw [runSort_of_resolve hfile hresolve, arrange_eq, hflag, sortedBy_congr hperm]

/-- Two files that hold the same lines in different orders are printed alike, from the greatest number down. A line
that spells no number counts as zero. -/
theorem sort_arranges_multiset_two_files :
    let env : Environment :=
      { cwd := "/", tree := ⟨.directory [("f", .file "10\n9\nnone\n-3" none), ("g", .file "-3\nnone\n9\n10" none)]⟩,
        vars := .empty, history := [], config := .usual, clock := "" }
    runSort env ["-n", "-r", "f"] = .ok (.text "10\n9\nnone\n-3") ∧
      runSort env ["g", "-rn"] = .ok (.text "10\n9\nnone\n-3") := by
  intro env
  have hf : env.resolve "f" = some (.file "10\n9\nnone\n-3" none) := by decide
  have hg : env.resolve "g" = some (.file "-3\nnone\n9\n10" none) := by decide
  obtain ⟨sorted, hperm, hpairwise, hprints⟩ := sort_arranges_multiset true ["none", "-3", "9", "10"]
  have hsorted : sorted = ["-3", "none", "9", "10"] :=
    (eq_sortedBy hperm hpairwise).trans (eq_sortedBy (by decide) (by decide)).symm
  rw [hsorted] at hprints
  exact ⟨hprints env ["-n", "-r", "f"] "f" _ none (by decide) hf (by decide) (by decide),
    hprints env ["g", "-rn"] "g" _ none (by decide) hg (by decide) (by decide)⟩

/-! ## Leading numbers -/

/-- The digits that a line begins with, blanks aside. -/
def leadingDigits (line : String) : List Char :=
  (line.toList.dropWhile Text.isBlank).takeWhile Char.isDigit

/-- The digits and points behind those digits. -/
def furtherDigits (line : String) : List Char :=
  ((line.toList.dropWhile Text.isBlank).dropWhile Char.isDigit).takeWhile fun c => c.isDigit || c == '.'

/-- The integer that a line begins with. -/
def leadingInteger (line : String) : ℕ :=
  Number.digitsValue (leadingDigits line)

/-- How many points there are among the digits that a line begins with. -/
def pointsIn (line : String) : ℕ :=
  (furtherDigits line).count '.'

/-- The digits before and after the first point, taken together. -/
def significandOf (line : String) : ℕ :=
  Number.digitsValue (leadingDigits line ++ (furtherDigits line).tail)

section

variable {line : String}

theorem isDigit_of_mem_leadingDigits : ∀ c ∈ leadingDigits line, c.isDigit = true :=
  List.all_eq_true.1 List.all_takeWhile

theorem takeWhile_numeral (cs : List Char) :
    cs.takeWhile (fun c => c.isDigit || c == '.') =
      cs.takeWhile Char.isDigit ++ (cs.dropWhile Char.isDigit).takeWhile fun c => c.isDigit || c == '.' := by
  induction cs with
  | nil => rfl
  | cons c rest ih =>
    by_cases hc : c.isDigit = true
    · simp [hc, ih]
    · simp [hc]

/-- The key of a line that begins with a digit comes from these digits and those behind them. -/
theorem leadingKey_eq (h : leadingDigits line ≠ []) :
    leadingKey line =
      (Number.Decimal.ofDigits? false (leadingDigits line ++ furtherDigits line)).elim 0 Number.Decimal.orderKey := by
  have hdash : ∀ rest, line.toList.dropWhile Text.isBlank ≠ '-' :: rest := by
    intro rest heq
    rw [leadingDigits, heq] at h
    exact h rfl
  rw [leadingDigits, furtherDigits, ← takeWhile_numeral, leadingKey]
  -- by `hdash` there is no minus sign to read
  simp only
  generalize Number.Decimal.ofDigits? false _ = number?
  cases number? with
  | none => rfl
  | some number => rfl

/-- Behind the digits there is nothing to read, or a point comes first. -/
theorem furtherDigits_eq (line : String) :
    furtherDigits line = [] ∨
      ∃ fraction, furtherDigits line = '.' :: fraction ∧ ∀ c ∈ fraction, c.isDigit = true ∨ c = '.' := by
  have hpart : ∀ c ∈ furtherDigits line, c.isDigit = true ∨ c = '.' := by
    intro c hc
    simpa using List.all_eq_true.1 List.all_takeWhile c hc
  cases hfurther : furtherDigits line with
  | nil => exact .inl rfl
  | cons c fraction =>
    rw [hfurther] at hpart
    obtain ⟨hc, hfraction⟩ := List.forall_mem_cons.1 hpart
    right
    have hbehind := congrArg List.head? hfurther
    rw [furtherDigits, List.head?_takeWhile, List.head?_cons, Option.filter_eq_some_iff] at hbehind
    have hnot := List.head?_dropWhile_not Char.isDigit (line.toList.dropWhile Text.isBlank)
    rw [hbehind.1] at hnot
    obtain rfl : c = '.' := hc.resolve_left (by simpa using hnot)
    exact ⟨fraction, rfl, hfraction⟩

theorem leadingKey_of_pointsIn_le_one (h : leadingDigits line ≠ []) (hpoints : pointsIn line ≤ 1) :
    leadingKey line =
      (Number.Decimal.mk false (significandOf line) (-(furtherDigits line).tail.length)).magnitudeBits ∧
      ∀ c ∈ (furtherDigits line).tail, c.isDigit = true := by
  rw [leadingKey_eq h, significandOf]
  obtain hnone | ⟨fraction, hfurther, hfraction⟩ := furtherDigits_eq line
  · rw [hnone, List.tail_nil, List.append_nil,
      Number.Decimal.ofDigits?_digits false h isDigit_of_mem_leadingDigits]
    exact ⟨rfl, List.forall_mem_nil _⟩
  · rw [pointsIn, hfurther, List.count_cons_self] at hpoints
    have hdigits : ∀ c ∈ fraction, c.isDigit = true := by
      intro c hc
      refine (hfraction c hc).resolve_right ?_
      rintro rfl
      have := List.count_pos_iff.2 hc
      omega
    rw [hfurther, Number.Decimal.ofDigits?_point false h isDigit_of_mem_leadingDigits,
      if_pos (List.all_eq_true.2 hdigits)]
    exact ⟨rfl, hdigits⟩

/-- A line with more than one point among its first digits counts as zero. -/
theorem leadingKey_of_one_lt_pointsIn (h : leadingDigits line ≠ []) (hpoints : 1 < pointsIn line) :
    leadingKey line = 0 := by
  rw [leadingKey_eq h]
  obtain hnone | ⟨fraction, hfurther, -⟩ := furtherDigits_eq line
  · rw [pointsIn, hnone] at hpoints
    cases hpoints
  · rw [pointsIn, hfurther, List.count_cons_self] at hpoints
    have hpoint : '.' ∈ fraction := List.count_pos_iff.1 (by omega)
    have hnot : ¬ fraction.all Char.isDigit = true := by
      intro hall
      exact absurd (List.all_eq_true.1 hall '.' hpoint) (by decide)
    rw [hfurther, Number.Decimal.ofDigits?_point false h isDigit_of_mem_leadingDigits, if_neg hnot,
      Option.elim_none]

/-- Digits behind the point add less than one to the integer before it. -/
theorem significandOf_bounds (h : ∀ c ∈ (furtherDigits line).tail, c.isDigit = true) :
    leadingInteger line * 10 ^ (furtherDigits line).tail.length ≤ significandOf line ∧
      significandOf line < (leadingInteger line + 1) * 10 ^ (furtherDigits line).tail.length :=
  Number.digitsValue_append_bounds h

theorem significandOf_lt (h : ∀ c ∈ (furtherDigits line).tail, c.isDigit = true)
    (hfinite : leadingInteger line < 2 ^ 53) :
    significandOf line < 10 ^ (309 + (furtherDigits line).tail.length) := by
  have hinteger : leadingInteger line + 1 ≤ 10 ^ 53 :=
    hfinite.nat_succ_le.trans (Nat.pow_le_pow_left (by decide) 53)
  calc significandOf line < (leadingInteger line + 1) * 10 ^ (furtherDigits line).tail.length :=
        (significandOf_bounds h).2
    _ ≤ 10 ^ 53 * 10 ^ (furtherDigits line).tail.length := Nat.mul_le_mul_right _ hinteger
    _ = 10 ^ (53 + (furtherDigits line).tail.length) := (Nat.pow_add ..).symm
    _ ≤ 10 ^ (309 + (furtherDigits line).tail.length) := Nat.pow_le_pow_right (by decide) (by omega)

/-- The digits that a line begins with, read up to the second point, round to no less than its key. -/
theorem leadingKey_le_nearestBits (h : leadingDigits line ≠ []) (hfinite : leadingInteger line < 2 ^ 53)
    (hpoints : pointsIn line ≤ 1) :
    leadingKey line ≤ Number.nearestBits (significandOf line) (10 ^ (furtherDigits line).tail.length) := by
  obtain ⟨hkey, hdigits⟩ := leadingKey_of_pointsIn_le_one h hpoints
  rw [hkey]
  exact_mod_cast Number.Decimal.magnitudeBits_le false (significandOf_lt hdigits hfinite)

theorem nearestBits_le_leadingKey (h : leadingDigits line ≠ []) (hfinite : leadingInteger line < 2 ^ 53)
    (hpoints : pointsIn line ≤ 1) : (Number.nearestBits (leadingInteger line) 1 : ℤ) ≤ leadingKey line := by
  obtain ⟨hkey, hdigits⟩ := leadingKey_of_pointsIn_le_one h hpoints
  obtain hzero | hpos := Nat.eq_zero_or_pos (leadingInteger line)
  · rw [hzero, hkey]
    exact Int.natCast_nonneg _
  have hlower := (significandOf_bounds hdigits).1
  have hone : 10 ^ (furtherDigits line).tail.length ≤ significandOf line :=
    (Nat.le_mul_of_pos_left _ hpos).trans hlower
  rw [hkey, Number.Decimal.magnitudeBits_of_one_le false (significandOf_lt hdigits hfinite) hone, Nat.cast_le]
  apply Number.nearestBits_le Nat.one_pos (Nat.pow_pos (by decide))
  rwa [Nat.mul_one]

theorem pointsIn_of_tail_ne_nil (h : (furtherDigits line).tail ≠ []) : 0 < pointsIn line := by
  obtain hnone | ⟨fraction, hfurther, -⟩ := furtherDigits_eq line
  · rw [hnone] at h
    exact absurd rfl h
  · rw [pointsIn, hfurther, List.count_cons_self]
    exact Nat.succ_pos _

end

section

variable {line : String} {n : ℕ} (hdigits : ∀ c ∈ (furtherDigits line).tail, c.isDigit = true)
  (hlt : leadingInteger line < n)
include hdigits hlt

theorem significandOf_lt_mul : significandOf line < n * 10 ^ (furtherDigits line).tail.length :=
  (significandOf_bounds hdigits).2.trans_le (Nat.mul_le_mul_right _ hlt)

theorem nearestBits_significandOf_le :
    Number.nearestBits (significandOf line) (10 ^ (furtherDigits line).tail.length) ≤ Number.nearestBits n 1 := by
  apply Number.nearestBits_le (Nat.pow_pos (by decide)) Nat.one_pos
  rw [Nat.mul_one]
  exact (significandOf_lt_mul hdigits hlt).le

/-- Rounding takes a number up to a greater integer only if this is the next one and if there are more digits than
the format has room for. -/
theorem of_nearestBits_significandOf_eq (hfinite : n < 2 ^ 53)
    (heq : Number.nearestBits (significandOf line) (10 ^ (furtherDigits line).tail.length) = Number.nearestBits n 1) :
    (furtherDigits line).tail ≠ [] ∧ n = leadingInteger line + 1 ∧ 2 ^ 53 ≤ significandOf line := by
  have hclose := Number.le_of_nearestBits_eq (Nat.pow_pos (by decide)) hfinite
    (significandOf_lt_mul hdigits hlt) heq
  have hless := significandOf_lt_mul hdigits hlt
  have hupper := (significandOf_bounds hdigits).2
  have htail : (furtherDigits line).tail ≠ [] := by
    intro hnil
    rw [hnil, List.length_nil, Nat.pow_zero, Nat.mul_one] at hless hclose
    omega
  refine ⟨htail, ?_, ?_⟩
  · by_contra hne
    -- the next integer would lie between the two, a whole one below the greater
    have hgap : (leadingInteger line + 1) * 10 ^ (furtherDigits line).tail.length +
        10 ^ (furtherDigits line).tail.length ≤ n * 10 ^ (furtherDigits line).tail.length := by
      rw [← Nat.succ_mul]
      exact Nat.mul_le_mul_right _ (by omega)
    have hpower : n * 10 ^ (furtherDigits line).tail.length < 2 ^ 53 * 10 ^ (furtherDigits line).tail.length :=
      Nat.mul_lt_mul_of_pos_right hfinite (Nat.pow_pos (by decide))
    omega
  · -- a multiple of ten is not the power of two itself
    have hten : 10 ∣ n * 10 ^ (furtherDigits line).tail.length :=
      (dvd_pow_self 10 (List.length_pos_iff.2 htail).ne').mul_left n
    omega

end

section

variable (ha : leadingDigits a ≠ []) (hb : leadingDigits b ≠ []) (hlt : leadingInteger a < leadingInteger b)
  (hfinite : leadingInteger b < 2 ^ 53) (hpoints : pointsIn b ≤ 1)
include ha hb hlt hfinite hpoints

/-- Leading integers are in order if the keys are, ties aside. -/
theorem leadingKey_le_of_leadingInteger_lt : leadingKey a ≤ leadingKey b := by
  have hinteger := nearestBits_le_leadingKey hb hfinite hpoints
  by_cases hone : pointsIn a ≤ 1
  · have hdigits := (leadingKey_of_pointsIn_le_one ha hone).2
    calc leadingKey a ≤ Number.nearestBits (significandOf a) (10 ^ (furtherDigits a).tail.length) :=
          leadingKey_le_nearestBits ha (hlt.trans hfinite) hone
      _ ≤ Number.nearestBits (leadingInteger b) 1 := by exact_mod_cast nearestBits_significandOf_le hdigits hlt
      _ ≤ leadingKey b := hinteger
  · rw [leadingKey_of_one_lt_pointsIn ha (Nat.lt_of_not_le hone)]
    exact (Int.natCast_nonneg _).trans hinteger

/-- Lines with different leading integers have the same key only if the first number is rounded up to the second
integer. -/
theorem of_leadingKey_eq (htie : leadingKey a = leadingKey b) :
    pointsIn a = 1 ∧ leadingInteger b = leadingInteger a + 1 ∧ 2 ^ 53 ≤ significandOf a := by
  have hinteger := nearestBits_le_leadingKey hb hfinite hpoints
  have hone : pointsIn a ≤ 1 := by
    by_contra hmany
    obtain ⟨k, -, hk, hbits, -⟩ := Number.nearestBits_natCast (Nat.zero_lt_of_lt hlt) hfinite
    rw [← htie, leadingKey_of_one_lt_pointsIn ha (Nat.lt_of_not_le hmany)] at hinteger
    omega
  have hdigits := (leadingKey_of_pointsIn_le_one ha hone).2
  have hkey := leadingKey_le_nearestBits ha (hlt.trans hfinite) hone
  have heq := le_antisymm (nearestBits_significandOf_le hdigits hlt) (by exact_mod_cast hinteger.trans (htie ▸ hkey))
  obtain ⟨htail, hnext, hlarge⟩ := of_nearestBits_significandOf_eq hdigits hlt hfinite heq
  exact ⟨le_antisymm hone (pointsIn_of_tail_ne_nil htail), hnext, hlarge⟩

end

/-! ## Leading numbers in order -/

/-- Every occurrence of a line comes before every one of another. -/
def Precedes (lines : List String) (a b : String) : Prop :=
  ∀ i j : ℕ, lines[i]? = some a → lines[j]? = some b → i < j

theorem precedes_iff (hsorted : lines.Pairwise (InOrder numeric)) (ha : a ∈ lines) (hb : b ∈ lines) (hne : a ≠ b) :
    Precedes lines a b ↔ InOrder numeric a b := by
  have hle : ∀ {i j : ℕ} {first second : String}, i < j → lines[i]? = some first → lines[j]? = some second →
      InOrder numeric first second := by
    intro i j first second hij hi hj
    obtain ⟨hifirst, rfl⟩ := List.getElem?_eq_some_iff.1 hi
    obtain ⟨hjsecond, rfl⟩ := List.getElem?_eq_some_iff.1 hj
    exact List.pairwise_iff_getElem.1 hsorted i j hifirst hjsecond hij
  constructor
  · intro h
    obtain ⟨i, hi⟩ := List.mem_iff_getElem?.1 ha
    obtain ⟨j, hj⟩ := List.mem_iff_getElem?.1 hb
    exact hle (h i j hi hj) hi hj
  · intro h i j hi hj
    by_contra hnot
    obtain heq | hlt := (Nat.le_of_not_lt hnot).eq_or_lt
    · subst heq
      exact hne (Option.some.inj (hi.symm.trans hj))
    · exact hne (h.antisymm (hle hlt hj hi))

end VirtualShell.Command
