import VirtualShell.Command.Environment
import VirtualShell.Proofs.Path.Joining
import VirtualShell.Proofs.Tree.Resolution

/-!
# What commands understand by an expression

On the way from an expression to a path, the home is written out in place of a `~` first, and then the
current directory is put in front unless there is a slash already. Both look only at how the expression
begins. So a slash and more names behind an expression lead on from what the expression stands for
(`Environment.segments_absolute_append_slash`), whatever it begins with, unless it is `.` or `..`: those stand
for a directory only when they stand alone. In the same way names are joined onto an expression as they are onto
its absolute form (`Environment.absolute_foldl_join`).
-/

namespace VirtualShell

namespace Path

/-- What stands behind a slash does not change whether an expression begins with one. -/
private theorem startsWith_append_slash {expr : String} (h : expr ≠ "") (rest : String) :
    Text.startsWith (expr ++ "/" ++ rest) "/" = Text.startsWith expr "/" := by
  obtain ⟨c, chars, hchars⟩ := List.exists_cons_of_ne_nil (mt String.toList_eq_nil_iff.1 h)
  simp [Text.startsWith, hchars, List.isPrefixOf]

/-- An expression with a slash in it does not stand for a directory by its position. -/
theorem isDots_append_slash (expr rest : String) : isDots (expr ++ "/" ++ rest) = false := by
  have hslash : '/' ∈ (expr ++ "/" ++ rest).toList := by simp
  rw [isDots_eq_false_iff]
  constructor
  · intro heq
    rw [heq] at hslash
    exact absurd hslash (by decide)
  · intro heq
    rw [heq] at hslash
    exact absurd hslash (by decide)

/-- Names behind a slash are spelled after those of the expression before it. -/
theorem spelled_append_slash {expr : String} (h : expr ≠ "") (hdots : isDots expr = false)
    (rest cwd : String) : spelled (expr ++ "/" ++ rest) cwd = spelled expr cwd ++ segments rest := by
  obtain ⟨hdot, hdotdot⟩ := isDots_eq_false_iff.1 (isDots_append_slash expr rest)
  obtain ⟨halone, haloneToo⟩ := isDots_eq_false_iff.1 hdots
  rw [spelled, spelled, if_neg hdot, if_neg hdotdot, if_neg halone, if_neg haloneToo,
    startsWith_append_slash h, segments_append_slash]
  split
  next => rfl
  next => exact (List.append_assoc _ _ _).symm

/-- Names behind a slash are spelled after those of the expression that ends in the slash, even if nothing or dots
stand before it. -/
theorem spelled_slash_append (expr rest cwd : String) :
    spelled (expr ++ "/" ++ rest) cwd = spelled (expr ++ "/") cwd ++ segments rest := by
  have hempty : expr ++ "/" ++ "" = expr ++ "/" := String.append_empty
  have hstart : Text.startsWith (expr ++ "/" ++ rest) "/" = Text.startsWith (expr ++ "/") "/" := by
    cases hchars : expr.toList with
    | nil => simp [Text.startsWith, hchars, List.isPrefixOf]
    | cons c chars => simp [Text.startsWith, hchars, List.isPrefixOf]
  have hbefore : segments (expr ++ "/") = segments expr := by
    rw [← hempty, segments_append_slash, segments_empty, List.append_nil]
  obtain ⟨hdot, hdotdot⟩ := isDots_eq_false_iff.1 (isDots_append_slash expr rest)
  obtain ⟨hdot', hdotdot'⟩ := isDots_eq_false_iff.1 (isDots_append_slash expr "")
  rw [hempty] at hdot' hdotdot'
  rw [spelled, spelled, if_neg hdot, if_neg hdotdot, if_neg hdot', if_neg hdotdot', hstart, segments_append_slash,
    hbefore]
  split
  next => rfl
  next => exact (List.append_assoc _ _ _).symm

end Path

namespace Environment

variable {env : Environment} {expr path : String} {node : Node}

/-- The absolute form of an expression is a matter of the current directory and of the home. -/
theorem absolute_congr {env next : Environment} (hcwd : next.cwd = env.cwd)
    (hconfig : next.config = env.config) (expr : String) : next.absolute expr = env.absolute expr := by
  rw [absolute, absolute, expandHome, expandHome, hcwd, hconfig]

theorem isNormal_absolute (env : Environment) (expr : String) : Path.IsNormal (env.absolute expr) :=
  Path.isNormal_absolute _ _

theorem expandHome_tilde (env : Environment) : env.expandHome "~" = env.config.home := if_pos rfl

theorem expandHome_tilde_slash (env : Environment) (rest : String) :
    env.expandHome ("~/" ++ rest) = env.config.home ++ "/" ++ rest := by
  have hne : "~/" ++ rest ≠ "~" := by
    intro heq
    have hlength := congrArg String.length heq
    rw [String.length_append] at hlength
    have htwo : "~/".length = 2 := rfl
    have hone : "~".length = 1 := rfl
    omega
  rw [expandHome, if_neg hne, Text.dropStart?_eq_some_iff.2 rfl]

/-- An expression that begins with something else is left as it is. -/
theorem expandHome_eq_self (hne : expr ≠ "~") (h : ∀ rest, expr ≠ "~/" ++ rest) :
    env.expandHome expr = expr := by
  have hdrop : Text.dropStart? "~/" expr = none := by
    rw [Option.eq_none_iff_forall_ne_some]
    exact fun rest hrest => h rest (Text.dropStart?_eq_some_iff.1 hrest)
  rw [expandHome, if_neg hne, hdrop]

/-- What stands behind a slash is kept. -/
theorem expandHome_append_slash (env : Environment) (expr rest : String) :
    env.expandHome (expr ++ "/" ++ rest) = env.expandHome expr ++ "/" ++ rest := by
  by_cases htilde : expr = "~"
  · rw [htilde, expandHome_tilde]
    exact env.expandHome_tilde_slash rest
  by_cases hslash : ∃ more, expr = "~/" ++ more
  · obtain ⟨more, rfl⟩ := hslash
    simp only [String.append_assoc, expandHome_tilde_slash]
  · rw [not_exists] at hslash
    rw [expandHome_eq_self htilde hslash]
    apply expandHome_eq_self
    · intro heq
      have hmem : '/' ∈ (expr ++ "/" ++ rest).toList := by simp
      rw [heq] at hmem
      exact absurd hmem (by decide)
    · intro more heq
      have hchars : expr.toList ++ '/' :: rest.toList = '~' :: '/' :: more.toList := by
        simpa using congrArg String.toList heq
      -- the slash that was put behind the expression is not the one of the beginning
      match hexpr : expr.toList with
      | [] => simp [hexpr] at hchars
      | [c] =>
        obtain ⟨rfl, -⟩ : c = '~' ∧ rest.toList = more.toList := by simpa [hexpr] using hchars
        exact htilde (String.toList_injective hexpr)
      | c :: d :: chars =>
        obtain ⟨rfl, rfl, -⟩ : c = '~' ∧ d = '/' ∧ chars ++ '/' :: rest.toList = more.toList := by
          simpa [hexpr] using hchars
        exact hslash (String.ofList chars) (String.toList_injective (by simp [hexpr]))

/-- With a home that begins with a slash, the expression that comes out is the one that went in, or begins with
a slash. -/
theorem expandHome_eq_self_or (hhome : Text.startsWith env.config.home "/" = true) (expr : String) :
    env.expandHome expr = expr ∨ Text.startsWith (env.expandHome expr) "/" = true := by
  by_cases htilde : expr = "~"
  · rw [htilde, expandHome_tilde]
    exact .inr hhome
  by_cases hslash : ∃ more, expr = "~/" ++ more
  · obtain ⟨more, rfl⟩ := hslash
    right
    rw [expandHome_tilde_slash, Path.startsWith_append_slash, hhome]
    rintro hempty
    rw [hempty] at hhome
    cases hhome
  · exact .inl (expandHome_eq_self htilde (not_exists.1 hslash))

theorem expandHome_ne_empty (hhome : Text.startsWith env.config.home "/" = true) (h : expr ≠ "") :
    env.expandHome expr ≠ "" := by
  rcases expandHome_eq_self_or hhome expr with hself | hstart
  · rwa [hself]
  · rintro hempty
    rw [hempty] at hstart
    cases hstart

theorem isDots_expandHome (hhome : Text.startsWith env.config.home "/" = true)
    (h : Path.isDots expr = false) : Path.isDots (env.expandHome expr) = false := by
  rcases expandHome_eq_self_or hhome expr with hself | hstart
  · rwa [hself]
  · exact Path.isDots_eq_false_of_startsWith hstart

/-- A node that an expression stands for is at its absolute form. -/
theorem lookup_of_resolve (h : env.resolve expr = some node) :
    env.tree.lookup (env.absolute expr) = some node := by
  rw [resolve, Filesystem.resolve] at h
  split at h
  next => cases h
  next => exact h

theorem ne_empty_of_resolve (h : env.resolve expr = some node) : expr ≠ "" := by
  rintro rfl
  have hempty : env.resolve "" = none := rfl
  rw [hempty] at h
  cases h

/-- Any expression but the empty one stands for what is at its absolute form. -/
theorem resolve_eq_lookup (hhome : Text.startsWith env.config.home "/" = true) (h : expr ≠ "") :
    env.resolve expr = env.tree.lookup (env.absolute expr) := by
  have hne : ¬ (env.expandHome expr).isEmpty = true := by simpa using expandHome_ne_empty hhome h
  rw [resolve, Filesystem.resolve, if_neg hne, absolute]

theorem expandHome_of_isNormal (h : Path.IsNormal path) : env.expandHome path = path := by
  have hstart := h.startsWith
  apply expandHome_eq_self
  · rintro rfl
    cases hstart
  · rintro rest rfl
    simp [Text.startsWith, List.isPrefixOf] at hstart

/-- Typed in any world, a normal path means itself. -/
theorem absolute_of_isNormal (h : Path.IsNormal path) : env.absolute path = path := by
  rw [absolute, expandHome_of_isNormal h, h.absolute_eq]

theorem resolve_of_isNormal (h : Path.IsNormal path) : env.resolve path = env.tree.lookup path := by
  have hne : ¬ path.isEmpty = true := by simpa using h.ne_empty
  rw [resolve, expandHome_of_isNormal h, Filesystem.resolve, if_neg hne, h.absolute_eq]

/-- Names behind a slash lead on from what stands before it. -/
theorem segments_absolute_append_slash (hcwd : Path.IsNormal env.cwd)
    (hhome : Text.startsWith env.config.home "/" = true) (hne : expr ≠ "") (hdots : Path.isDots expr = false)
    (rest : String) : Path.segments (env.absolute (expr ++ "/" ++ rest)) =
      Path.segments (env.absolute expr) ++ Path.segments rest := by
  rw [absolute, absolute, Path.segments_absolute hcwd, Path.segments_absolute hcwd, expandHome_append_slash,
    Path.spelled_append_slash (expandHome_ne_empty hhome hne) (isDots_expandHome hhome hdots)]

/-- Names behind the slash that ends an expression lead on from what that stands for. -/
theorem segments_absolute_slash_append (hcwd : Path.IsNormal env.cwd) (expr rest : String) :
    Path.segments (env.absolute (expr ++ "/" ++ rest)) =
      Path.segments (env.absolute (expr ++ "/")) ++ Path.segments rest := by
  have hbefore := env.expandHome_append_slash expr ""
  rw [String.append_empty, String.append_empty] at hbefore
  rw [absolute, absolute, Path.segments_absolute hcwd, Path.segments_absolute hcwd, expandHome_append_slash, hbefore,
    Path.spelled_slash_append]

/-- Names are joined onto an expression, however it is spelled, as they are onto its absolute form. -/
theorem absolute_foldl_join (hcwd : Path.IsNormal env.cwd)
    (hhome : Text.startsWith env.config.home "/" = true) (hne : expr ≠ "") (hdots : Path.isDots expr = false)
    {names : List String} (hnames : ∀ name ∈ names, Path.IsSegment name) :
    env.absolute (names.foldl Path.join expr) = names.foldl Path.join (env.absolute expr) := by
  have hbase := env.isNormal_absolute expr
  by_cases hroot : expr = Path.root
  · rw [hroot, absolute_of_isNormal Path.isNormal_root,
      absolute_of_isNormal (Path.isNormal_root.foldl_join hnames)]
  by_cases hnil : names = []
  · rw [hnil]
    rfl
  · obtain ⟨rest, -, hjoined⟩ := Path.foldl_join_eq_append (fun name hname => (hnames name hname).1) hnil
    have hexpr : names.foldl Path.join expr = expr ++ "/" ++ rest := by
      rw [hjoined, Path.join, if_neg hroot, String.append_empty]
    -- the rest spells the names, as can be seen behind the empty text
    have hrest : Path.segments rest = names := by
      have hempty := hjoined "" ▸ Path.segments_foldl_join "" hnames
      rwa [Path.join, if_neg (by decide), String.append_empty, Path.segments_append_slash, Path.segments_empty,
        List.nil_append, List.nil_append] at hempty
    apply (env.isNormal_absolute _).eq_of_segments_eq (hbase.foldl_join hnames)
    rw [hexpr, segments_absolute_append_slash hcwd hhome hne hdots, hrest, Path.segments_foldl_join _ hnames]

end Environment

end VirtualShell
