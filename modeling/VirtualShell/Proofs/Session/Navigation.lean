import VirtualShell.Proofs.Command.Expression
import VirtualShell.Proofs.Config
import VirtualShell.Proofs.Session.Run
import VirtualShell.Proofs.Text.Words
import VirtualShell.Proofs.Variables
import VirtualShell.Tree.Teaching

/-!
# Going from one directory to another

`cd` succeeds if and only if a directory is at the absolute form of its operand, and goes there
(`Command.runCd_eq`). So where two steps lead is a matter of absolute forms. Typed where one expression leads,
another one that does not begin at the root or at home means what both mean with a slash between them
(`Environment.absolute_of_cwd`). All that stands above a directory are directories, so that the one long step
cannot succeed where the first of two steps fails.
-/

namespace VirtualShell

/-- The world in which the shell is in another directory and PWD tells so. -/
def World.movedTo (world : World) (path : String) : World :=
  { world with cwd := path, vars := world.vars.set "PWD" path }

/-- Of two moves only the second can be told. -/
theorem World.movedTo_movedTo (world : World) (path other : String) :
    (world.movedTo path).movedTo other = world.movedTo other := by
  simp only [movedTo, Variables.set, Entries.put_put]

/-! ## Absolute forms -/

/-- An expression that leads on from the current directory: it begins neither at the root nor at home, and does not
stand for a directory by its position. -/
structure LeadsOn (expr : String) : Prop where
  ne_empty : expr ≠ ""
  dots : Path.isDots expr = false
  slash : Text.startsWith expr "/" = false
  home : expr ≠ "~"
  homeward : Text.startsWith expr "~/" = false

namespace Environment

variable {env next : Environment} {expr rest : String}

theorem expandHome_of_startsWith (hne : expr ≠ "~") (h : Text.startsWith expr "~/" = false) :
    env.expandHome expr = expr := by
  apply expandHome_eq_self hne
  rintro more rfl
  simp [Text.startsWith, List.isPrefixOf] at h

/-- The expression for the directory above. -/
theorem absolute_dotdot (h : Path.IsNormal env.cwd) : env.absolute ".." = Path.parent env.cwd := by
  rw [absolute, expandHome_of_startsWith (by decide) (by decide), Path.absolute, if_neg (by decide), if_pos rfl,
    h.normalize_eq]

theorem segments_absolute_of_leadsOn (hcwd : Path.IsNormal env.cwd) (h : LeadsOn expr) :
    Path.segments (env.absolute expr) = Path.segments env.cwd ++ Path.segments expr := by
  obtain ⟨halone, haloneToo⟩ := Path.isDots_eq_false_iff.1 h.dots
  rw [absolute, expandHome_of_startsWith h.home h.homeward, Path.segments_absolute hcwd, Path.spelled,
    if_neg halone, if_neg haloneToo, h.slash]
  rfl

/-- Typed where an expression leads, another one means what both mean with a slash between them. -/
theorem absolute_of_cwd (hcwd : Path.IsNormal env.cwd) (hhome : Text.startsWith env.config.home "/" = true)
    (hthere : next.cwd = env.absolute expr) (hexpr : expr ≠ "") (hdots : Path.isDots expr = false)
    (hrest : LeadsOn rest) : next.absolute rest = env.absolute (expr ++ "/" ++ rest) := by
  have hnormal : Path.IsNormal next.cwd := hthere ▸ env.isNormal_absolute expr
  apply (next.isNormal_absolute rest).eq_of_segments_eq (env.isNormal_absolute _)
  rw [segments_absolute_of_leadsOn hnormal hrest, hthere, segments_absolute_append_slash hcwd hhome hexpr hdots]

/-- What leads to a directory leads to one before the slash. -/
theorem isDirectory_of_append_slash (hcwd : Path.IsNormal env.cwd)
    (hhome : Text.startsWith env.config.home "/" = true) (hexpr : expr ≠ "") (hdots : Path.isDots expr = false)
    (h : env.tree.isDirectory (env.absolute (expr ++ "/" ++ rest)) = true) :
    env.tree.isDirectory (env.absolute expr) = true := by
  have habove : Path.segments (env.absolute expr) <+: Path.segments (env.absolute (expr ++ "/" ++ rest)) := by
    rw [segments_absolute_append_slash hcwd hhome hexpr hdots]
    exact List.prefix_append _ _
  rw [Filesystem.isDirectory_iff] at h ⊢
  exact Filesystem.entry_eq_directory_upward h habove

end Environment

/-- With one operand, `cd` goes to its absolute form if that is a directory. -/
theorem Command.runCd_eq {env : Environment} (hhome : Text.startsWith env.config.home "/" = true)
    {operand : String} (h : operand ≠ "") :
    runCd env [operand] =
      if env.tree.isDirectory (env.absolute operand) then
        ⟨env.toWorld.movedTo (env.absolute operand), .ok .nothing⟩
      else ⟨env.toWorld, .error (.missing s!"bash: cd: {operand}")⟩ := by
  have hoperand : [operand].head?.getD "~" = operand := rfl
  simp only [runCd, hoperand, Environment.resolve_eq_lookup hhome h]
  split
  next entries hthere =>
    have hdirectory : env.tree.isDirectory (env.absolute operand) = true :=
      Filesystem.isDirectory_iff.2 (Filesystem.entry_eq_directory_iff.2 ⟨entries, hthere⟩)
    rw [if_pos hdirectory]
    rfl
  next hnone =>
    have hdirectory : ¬ env.tree.isDirectory (env.absolute operand) = true := by
      intro htrue
      obtain ⟨entries, hthere⟩ := Filesystem.entry_eq_directory_iff.1 (Filesystem.isDirectory_iff.1 htrue)
      exact hnone entries hthere
    rw [if_neg hdirectory]

namespace Session

variable {session : Session} {input : Input} {operand : String}

/-! ## One step -/

/-- What a step comes to. -/
theorem outcome_cd (hregistry : session.registry = .standard) (hwords : input.words = ["cd", operand]) :
    session.outcome input = Command.runCd (session.surroundings input) [operand] := by
  rw [outcome, hregistry, hwords]
  rfl

section

variable (hregistry : session.registry = .standard)
  (hhome : Text.startsWith session.config.home "/" = true) (hwords : input.words = ["cd", operand])
  (hne : operand ≠ "")

include hregistry hhome hwords hne

/-- A step succeeds if and only if it leads to a directory. -/
theorem succeeds_cd_iff : session.Succeeds input ↔
    session.world.tree.isDirectory ((session.surroundings input).absolute operand) = true := by
  rw [Succeeds, outcome_cd hregistry hwords, @Command.runCd_eq (session.surroundings input) hhome operand hne]
  split
  next hthere => exact iff_of_true rfl hthere
  next hnone => exact iff_of_false (fun hok => nomatch hok) hnone

/-- A step that succeeds moves the session and does nothing else. -/
theorem feed_cd (hsuccess : session.Succeeds input) :
    (session.feed input).1.world =
      session.world.movedTo ((session.surroundings input).absolute operand) := by
  let env := session.surroundings input
  have hthere : env.tree.isDirectory (env.absolute operand) = true :=
    (succeeds_cd_iff hregistry hhome hwords hne).1 hsuccess
  rw [feed_world, outcome_cd hregistry hwords, @Command.runCd_eq env hhome operand hne, if_pos hthere]
  exact if_pos hthere

/-- After a step, what leads on means what it means behind the operand of the step. -/
theorem absolute_after_cd (h : session.world.Grounded) (hdots : Path.isDots operand = false)
    (hsuccess : session.Succeeds input) {rest : String} (hrest : LeadsOn rest) (second : Input) :
    ((session.feed input).1.surroundings second).absolute rest =
      (session.surroundings input).absolute (operand ++ "/" ++ rest) := by
  let env := session.surroundings input
  let next := (session.feed input).1
  have hthere : next.world.cwd = env.absolute operand := by
    rw [feed_cd hregistry hhome hwords hne hsuccess]
    rfl
  exact @Environment.absolute_of_cwd env (next.surroundings second) _ _ h.normal hhome hthere hne hdots hrest

end

/-- The step to the directory above succeeds wherever the session is. -/
theorem feed_cd_dotdot (hregistry : session.registry = .standard)
    (hhome : Text.startsWith session.config.home "/" = true) (h : session.world.Grounded)
    (hwords : input.words = ["cd", ".."]) :
    session.Succeeds input ∧
      (session.feed input).1.world = session.world.movedTo (Path.parent session.world.cwd) := by
  have habsolute : (session.surroundings input).absolute ".." = Path.parent session.world.cwd :=
    Environment.absolute_dotdot h.normal
  have habove : Path.segments (Path.parent session.world.cwd) <+: Path.segments session.world.cwd := by
    rw [h.normal.segments_parent]
    exact List.dropLast_prefix _
  have hthere : session.world.tree.isDirectory (Path.parent session.world.cwd) = true :=
    Filesystem.isDirectory_iff.2 (Filesystem.entry_eq_directory_upward h.directory habove)
  have hsuccess : session.Succeeds input := by
    rw [succeeds_cd_iff hregistry hhome hwords (by decide), habsolute]
    exact hthere
  refine ⟨hsuccess, ?_⟩
  rw [feed_cd hregistry hhome hwords (by decide) hsuccess, habsolute]

/-! ## Two steps -/

/-- Two steps one after the other come to the same as one step. -/
theorem feed_cd_cd (hregistry : session.registry = .standard)
    (hhome : Text.startsWith session.config.home "/" = true) (h : session.world.Grounded) {second only : Input}
    {rest : String} (hfirst : input.words = ["cd", operand]) (hsecond : second.words = ["cd", rest])
    (honly : only.words = ["cd", operand ++ "/" ++ rest]) (hne : operand ≠ "")
    (hdots : Path.isDots operand = false) (hrest : LeadsOn rest) :
    let next := (session.feed input).1
    (session.Succeeds input ∧ next.Succeeds second ↔ session.Succeeds only) ∧
      (session.Succeeds only → (next.feed second).1.world = (session.feed only).1.world) := by
  intro next
  let env := session.surroundings only
  have hstandard : next.registry = .standard := (session.feed_registry input).trans hregistry
  have hnextHome : Text.startsWith next.config.home "/" = true := by
    rw [session.feed_config input]
    exact hhome
  have honlyNe : operand ++ "/" ++ rest ≠ "" :=
    fun hempty => hrest.ne_empty (String.append_eq_empty_iff.1 hempty).2
  have hmoved : session.Succeeds input → next.world = session.world.movedTo (env.absolute operand) :=
    feed_cd hregistry hhome hfirst hne
  have hleads : session.Succeeds input →
      (next.surroundings second).absolute rest = env.absolute (operand ++ "/" ++ rest) := by
    intro hstep
    exact absolute_after_cd hregistry hhome hfirst hne h hdots hstep hrest second
  have hthen : session.Succeeds input → (next.Succeeds second ↔ session.Succeeds only) := by
    intro hstep
    rw [succeeds_cd_iff hstandard hnextHome hsecond hrest.ne_empty, hleads hstep, hmoved hstep,
      succeeds_cd_iff hregistry hhome honly honlyNe]
    rfl
  have hbefore : session.Succeeds only → session.Succeeds input := by
    rw [succeeds_cd_iff hregistry hhome honly honlyNe, succeeds_cd_iff hregistry hhome hfirst hne]
    exact @Environment.isDirectory_of_append_slash env operand rest h.normal hhome hne hdots
  refine ⟨⟨fun hboth => (hthen hboth.1).1 hboth.2, ?_⟩, ?_⟩
  · intro hsuccess
    have hstep := hbefore hsuccess
    exact ⟨hstep, (hthen hstep).2 hsuccess⟩
  · intro hsuccess
    have hstep := hbefore hsuccess
    rw [feed_cd hstandard hnextHome hsecond hrest.ne_empty ((hthen hstep).2 hsuccess), hleads hstep, hmoved hstep,
      World.movedTo_movedTo, feed_cd hregistry hhome honly honlyNe hsuccess]

/-! ## Lines -/

/-- The words of a line that makes a step. -/
theorem words_cd {expr : String} (h : Text.IsWord expr) (clock : String) :
    Input.words ⟨clock, "cd " ++ expr⟩ = ["cd", expr] := by
  have hline : "cd " ++ expr = "cd" ++ " " ++ expr := by
    rw [← String.toList_inj]
    simp
  rw [Input.words, hline, Text.words_trim_pair (by decide) h]

/-- **Two changes of directory are one.** A session starts on every directory, with all settings that have no fault.
After every run, the line `cd ..` succeeds; it leads to the directory above, or leaves the session at the root, and
does nothing else. Two words are given, neither of them `.` or `..`, and the second one begins neither with a slash
nor at home. Then the lines that go to the first and from there to the second both succeed if and only if the
one line does that goes to both with a slash between them, and then they leave the same world: the same current
directory, the same variables, PWD among them, and the same tree. -/
theorem directory_changes_compose {root : Node} {config : Config} (hroot : root.isDirectory = true)
    (hconfig : config.validate = .ok config) :
    ∃ session, start root config = .ok session ∧
      ∀ inputs : List Input,
        let here := session.after inputs
        (∀ clock : String,
          let up : Input := ⟨clock, "cd .."⟩
          here.Succeeds up ∧
            (here.feed up).1.world = here.world.movedTo (Path.parent here.world.cwd) ∧
            (here.world.cwd = Path.root → (here.feed up).1.world.cwd = Path.root)) ∧
        ∀ a b : String, Text.IsWord a → Text.IsWord b → Path.isDots a = false → LeadsOn b →
          ∀ first second both : String,
            let goA : Input := ⟨first, "cd " ++ a⟩
            let goB : Input := ⟨second, "cd " ++ b⟩
            let goBoth : Input := ⟨both, "cd " ++ a ++ "/" ++ b⟩
            let there := ((here.feed goA).1.feed goB).1.world
            (here.Succeeds goA ∧ (here.feed goA).1.Succeeds goB ↔ here.Succeeds goBoth) ∧
              (here.Succeeds goBoth → there = (here.feed goBoth).1.world ∧
                there.vars.get? "PWD" = some there.cwd) := by
  obtain ⟨session, hstart, hregistry, hsettings, -, hgrounded⟩ := start_eq hroot hconfig
  refine ⟨session, hstart, fun inputs => ?_⟩
  obtain ⟨hstandard, hkept⟩ := after_registry session inputs
  have hthere := after_grounded hregistry hgrounded inputs
  have hhome : Text.startsWith (session.after inputs).config.home "/" = true := by
    rw [hkept, hsettings]
    exact Config.startsWith_home hconfig
  rw [hregistry] at hstandard
  -- how the session came about does not matter from here on
  generalize session.after inputs = here at hstandard hhome hthere ⊢
  constructor
  · intro clock up
    have hwords : Text.words (Text.trim "cd ..") = ["cd", ".."] := by decide
    obtain ⟨hsuccess, hworld⟩ := @feed_cd_dotdot here up hstandard hhome hthere hwords
    refine ⟨hsuccess, hworld, fun hatRoot => ?_⟩
    rw [hworld, hatRoot]
    rfl
  · intro a b ha hb hdots hleads first second both goA goB goBoth there
    have hline : "cd " ++ a ++ "/" ++ b = "cd " ++ (a ++ "/" ++ b) := by
      rw [String.append_assoc, String.append_assoc, String.append_assoc]
    have hslash : Text.IsWord "/" := by decide
    have hword : Text.IsWord (a ++ "/" ++ b) := (ha.append hslash.2).append hb.2
    have hboth : goBoth.words = ["cd", a ++ "/" ++ b] := by
      rw [← words_cd hword both, ← hline]
    have hfirst : goA.words = ["cd", a] := words_cd ha first
    have hsecond : goB.words = ["cd", b] := words_cd hb second
    obtain ⟨hiff, hsame⟩ := feed_cd_cd hstandard hhome hthere hfirst hsecond hboth ha.1 hdots hleads
    refine ⟨hiff, fun hsuccess => ⟨hsame hsuccess, ?_⟩⟩
    rw [show there = _ from hsame hsuccess, feed_cd hstandard hhome hboth hword.1 hsuccess]
    exact Variables.get?_set_self _ _ _

/-- From the home directory to a directory in it, with slashes behind both, and by one line with all the slashes. -/
theorem directory_changes_compose_slashes :
    let session : Session :=
      ⟨.standard, ⟨"/home/user", ⟨Node.teachingTree⟩, .initial .usual "/home/user"⟩, [], .usual⟩
    let a := "~/"
    let b := "documents//"
    let goA : Input := ⟨"", "cd " ++ a⟩
    let goB : Input := ⟨"", "cd " ++ b⟩
    let goBoth : Input := ⟨"", "cd " ++ a ++ "/" ++ b⟩
    Node.teachingTree.isDirectory = true ∧ Config.usual.validate = .ok Config.usual ∧ Text.IsWord a ∧
      Text.IsWord b ∧ Path.isDots a = false ∧ LeadsOn b ∧ session.Succeeds goBoth ∧
      session.Succeeds ⟨"", "cd .."⟩ ∧ (session.feed ⟨"", "cd .."⟩).1.world.cwd = "/home" ∧
      session.Succeeds goA ∧ (session.feed goA).1.Succeeds goB ∧
      ((session.feed goA).1.feed goB).1.world = (session.feed goBoth).1.world := by
  intro session a b goA goB goBoth
  have hvalid : Config.usual.validate = .ok Config.usual := rfl
  have ha : Text.IsWord a := by decide
  have hb : Text.IsWord b := by decide
  have hdots : Path.isDots a = false := by decide
  have hleads : LeadsOn b := ⟨by decide, by decide, by decide, by decide, by decide⟩
  have hstarts : start Node.teachingTree Config.usual = .ok session := rfl
  have hwords : goBoth.words = ["cd", "~//documents//"] := by decide
  have hsuccess : session.Succeeds goBoth := by
    rw [@succeeds_cd_iff session goBoth _ rfl (Config.startsWith_home hvalid) hwords (by decide)]
    decide
  obtain ⟨other, hstart, hruns⟩ := @directory_changes_compose Node.teachingTree Config.usual rfl hvalid
  obtain rfl : session = other := Except.ok.inj (hstarts.symm.trans hstart)
  obtain ⟨hup, hsteps⟩ := hruns []
  obtain ⟨hiff, hsame⟩ := hsteps a b ha hb hdots hleads "" "" ""
  obtain ⟨hstep, hthen⟩ := hiff.2 hsuccess
  refine ⟨rfl, hvalid, ha, hb, hdots, hleads, hsuccess, (hup "").1, ?_, hstep, hthen, (hsame hsuccess).1⟩
  rw [after_nil] at hup
  rw [(hup "").2.1]
  decide

end Session

end VirtualShell
