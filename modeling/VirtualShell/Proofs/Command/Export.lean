import VirtualShell.Command.Assignment
import VirtualShell.Proofs.Result
import VirtualShell.Proofs.Variables

/-!
# Assignments on the command line

An argument assigns a value to a valid name, or it is malformed (`exists_spelled_of_not_isMalformed`). One
malformed argument is enough for `export` to leave the variables as they are, and the first one is what the failure
names (`runExport_of_isMalformed`). Otherwise all assignments are made in turn (`runExport_spelled`), and what that
leaves is said by the laws of `Variables.setAll`.

Every variable is listed as the assignment that gives it the value that it has. Where all names are valid, the
lines of the listing are therefore arguments that change nothing (`runExport_listing`).
-/

namespace VirtualShell

namespace Variables

/-- The argument that gives a name a value, which is also the line that lists the variable. -/
def spelled (binding : String × String) : String :=
  binding.1 ++ "=" ++ binding.2

theorem listing_eq (vars : Variables) : vars.listing = vars.bindings.map spelled := rfl

end Variables

namespace Command

open Variables

/-- An argument that assigns nothing: it has no equals sign, or what stands before the first one is no valid
name. -/
def IsMalformed (arg : String) : Prop :=
  '=' ∉ arg.toList ∨
    ∃ name value, arg = spelled (name, value) ∧ '=' ∉ name.toList ∧ isValidName name = false

variable {arg name : String} {args : List String}

/-- What an argument with an equals sign assigns. -/
theorem assignment_spelled (hname : '=' ∉ name.toList) (value : String) :
    assignment (spelled (name, value)) =
      if isValidName name then .ok (name, value)
      else .error (.badIdentifier "export" (spelled (name, value))) := by
  have hchars : (spelled (name, value)).toList = name.toList ++ '=' :: value.toList := by simp [spelled]
  simp only [assignment, hchars, Text.cutFirst_append_cons hname, String.ofList_toList]

theorem assignment_of_isValidName (h : isValidName name = true) (value : String) :
    assignment (spelled (name, value)) = .ok (name, value) := by
  rw [assignment_spelled (not_mem_of_isValidName h (by decide)), if_pos h]

theorem assignment_of_isMalformed (h : IsMalformed arg) :
    assignment arg = .error (.badIdentifier "export" arg) := by
  rcases h with hnone | ⟨name, value, rfl, hname, hinvalid⟩
  · rw [assignment, Text.cutFirst_eq_none hnone]
  · rw [assignment_spelled hname, hinvalid]
    rfl

/-- An argument that is not malformed assigns a value to a valid name. -/
theorem exists_spelled_of_not_isMalformed (h : ¬ IsMalformed arg) :
    ∃ binding : String × String, isValidName binding.1 = true ∧ arg = spelled binding := by
  obtain ⟨hmem, hvalid⟩ := not_or.1 h
  obtain ⟨before, behind, hchars, hfirst⟩ := List.eq_append_cons_of_mem (not_not.1 hmem)
  have harg : arg = spelled (String.ofList before, String.ofList behind) := by
    rw [← String.toList_inj, hchars]
    simp [spelled]
  refine ⟨(String.ofList before, String.ofList behind), ?_, harg⟩
  by_contra hinvalid
  exact hvalid ⟨_, _, harg, by simpa using hfirst, by simpa using hinvalid⟩

/-- The malformed arguments are those that are refused. -/
theorem isMalformed_iff : IsMalformed arg ↔ (assignment arg).isOk = false := by
  constructor
  · intro h
    rw [assignment_of_isMalformed h]
    rfl
  · intro h
    by_contra hwell
    obtain ⟨⟨name, value⟩, hvalid, rfl⟩ := exists_spelled_of_not_isMalformed hwell
    rw [assignment_of_isValidName hvalid] at h
    cases h

instance (arg : String) : Decidable (IsMalformed arg) :=
  decidable_of_iff _ isMalformed_iff.symm

/-- Where some arguments are malformed, one of them is the first. -/
theorem exists_first_isMalformed (h : ∃ arg ∈ args, IsMalformed arg) :
    ∃ before first after, args = before ++ first :: after ∧ (∀ other ∈ before, ¬ IsMalformed other) ∧
      IsMalformed first := by
  obtain ⟨arg, hmem, harg⟩ := h
  have hsome : (args.find? fun arg => decide (IsMalformed arg)).isSome = true :=
    List.find?_isSome.2 ⟨arg, hmem, decide_eq_true harg⟩
  obtain ⟨first, hfirst⟩ := Option.isSome_iff_exists.1 hsome
  obtain ⟨hmalformed, before, after, hsplit, hbefore⟩ := List.find?_eq_some_iff_append.1 hfirst
  have hwell : ∀ other ∈ before, ¬ IsMalformed other := by simpa using hbefore
  exact ⟨before, first, after, hsplit, hwell, of_decide_eq_true hmalformed⟩

/-- Where none is malformed, all of them assign something. -/
theorem exists_map_spelled (h : ∀ arg ∈ args, ¬ IsMalformed arg) :
    ∃ made : List (String × String), (∀ binding ∈ made, isValidName binding.1 = true) ∧
      args = made.map spelled := by
  induction args with
  | nil => exact ⟨[], List.forall_mem_nil _, rfl⟩
  | cons arg rest ih =>
    obtain ⟨harg, hrest⟩ := List.forall_mem_cons.1 h
    obtain ⟨binding, hvalid, rfl⟩ := exists_spelled_of_not_isMalformed harg
    obtain ⟨made, hmade, rfl⟩ := ih hrest
    exact ⟨binding :: made, List.forall_mem_cons.2 ⟨hvalid, hmade⟩, rfl⟩

theorem mapM_assignment {made : List (String × String)} (h : ∀ binding ∈ made, isValidName binding.1 = true) :
    (made.map spelled).mapM assignment = .ok made := by
  induction made with
  | nil => rfl
  | cons binding rest ih =>
    obtain ⟨hvalid, hrest⟩ := List.forall_mem_cons.1 h
    rw [List.map_cons, List.mapM_cons, assignment_of_isValidName hvalid, ih hrest]
    rfl

variable (env : Environment)

/-- With arguments that are all assignments, the assignments are made. -/
theorem runExport_spelled {made : List (String × String)} (hne : made ≠ [])
    (h : ∀ binding ∈ made, isValidName binding.1 = true) :
    runExport env (made.map spelled) = ⟨{ env.toWorld with vars := env.vars.setAll made }, .ok .nothing⟩ := by
  rw [runExport, if_neg (by simpa using hne), mapM_assignment h]
  rfl

/-- The first malformed argument is what the failure names. -/
theorem runExport_of_isMalformed {before after : List String} (hbefore : ∀ other ∈ before, ¬ IsMalformed other)
    (h : IsMalformed arg) :
    runExport env (before ++ arg :: after) = ⟨env.toWorld, .error (.badIdentifier "export" arg)⟩ := by
  have hmade : ∀ other ∈ before, ∃ binding, assignment other = .ok binding := by
    intro other hother
    obtain ⟨binding, hvalid, rfl⟩ := exists_spelled_of_not_isMalformed (hbefore other hother)
    exact ⟨binding, assignment_of_isValidName hvalid binding.2⟩
  have hfailed := Result.mapM_append_cons_error hmade (assignment_of_isMalformed h) after
  rw [runExport, if_neg (by simp), hfailed]

/-- The listing of the variables, taken as arguments, leaves the variables as they are. -/
theorem runExport_listing (hnodup : env.vars.names.Nodup)
    (hvalid : ∀ name ∈ env.vars.names, isValidName name = true) :
    (runExport env env.vars.listing).world = env.toWorld ∧
      (runExport env env.vars.listing).result.isOk = true := by
  by_cases hne : env.vars.bindings = []
  · rw [listing_eq, hne]
    exact ⟨rfl, rfl⟩
  · have hmade : ∀ binding ∈ env.vars.bindings, isValidName binding.1 = true := by
      intro binding hbinding
      exact hvalid binding.1 (List.mem_map_of_mem hbinding)
    have hsame : env.vars.setAll env.vars.bindings = env.vars :=
      setAll_eq_self env.vars fun binding hbinding => (Entries.lookup_eq_some_iff_mem hnodup).2 hbinding
    rw [listing_eq, runExport_spelled env hne hmade, hsame]
    exact ⟨rfl, rfl⟩

/-- **All assignments are made or none.** If one of the arguments has no equals sign, or no valid name before its
first one, then nothing changes, and the failure names the first argument of that kind. Otherwise every name that
is assigned has the value of its last assignment, which is all that follows the first equals sign, and all other
variables keep their values; the names that are there stay where they are, and new ones follow in the order in
which they come first. Where each variable has a valid name, and a name of its own, the lines that list the
variables are arguments that leave them as they are. -/
theorem export_all_or_nothing (env : Environment) :
    (∀ args : List String, args ≠ [] →
      ((∃ arg ∈ args, IsMalformed arg) →
        ∃ before first after, args = before ++ first :: after ∧ (∀ arg ∈ before, ¬ IsMalformed arg) ∧
          IsMalformed first ∧
          runExport env args = ⟨env.toWorld, .error (.badIdentifier "export" first)⟩) ∧
      ((∀ arg ∈ args, ¬ IsMalformed arg) →
        ∃ made vars, args = made.map spelled ∧ (∀ binding ∈ made, isValidName binding.1 = true) ∧
          runExport env args = ⟨{ env.toWorld with vars := vars }, .ok .nothing⟩ ∧
          (∀ before name value after, made = before ++ (name, value) :: after → name ∉ after.map (·.1) →
            vars.get? name = some value) ∧
          (∀ name, name ∉ made.map (·.1) → vars.get? name = env.vars.get? name) ∧
          vars.names = env.vars.names ++ ((made.map (·.1)).removeAll env.vars.names).eraseDups)) ∧
    (env.vars.names.Nodup → (∀ name ∈ env.vars.names, isValidName name = true) →
      (Command.env.action.run env []).result = .ok (.text (Text.unlines env.vars.listing)) ∧
      (runExport env env.vars.listing).world = env.toWorld ∧
      (runExport env env.vars.listing).result.isOk = true) := by
  constructor
  · intro args hargs
    constructor
    · intro hrefused
      obtain ⟨before, first, after, rfl, hbefore, hfirst⟩ := exists_first_isMalformed hrefused
      exact ⟨before, first, after, rfl, hbefore, hfirst, runExport_of_isMalformed env hbefore hfirst⟩
    · intro hwell
      obtain ⟨made, hvalid, rfl⟩ := exists_map_spelled hwell
      have hne : made ≠ [] := by
        rintro rfl
        exact hargs rfl
      refine ⟨made, env.vars.setAll made, rfl, hvalid, runExport_spelled env hne hvalid, ?_, ?_, ?_⟩
      · rintro before name value after rfl hlast
        exact env.vars.get?_setAll_of_last hlast before value
      · intro name hname
        exact env.vars.get?_setAll_of_not_mem hname
      · exact env.vars.names_setAll_eq_append made
  · intro hnodup hvalid
    exact ⟨rfl, runExport_listing env hnodup hvalid⟩

/-- A name that begins with a digit between arguments that are in order and one that is not, an assignment that
is made again with nothing as its value, and a value with an equals sign. -/
theorem export_all_or_nothing_again :
    let env : Environment :=
      { cwd := "/", tree := .empty, vars := .initial .usual "/", history := [], config := .usual, clock := "" }
    let refused := ["A=1", "2=x", "B"]
    let accepted := ["A=1", "USER=a=b", "A="]
    (∃ arg ∈ refused, IsMalformed arg) ∧ (∀ arg ∈ accepted, ¬ IsMalformed arg) ∧ env.vars.names.Nodup ∧
      (∀ name ∈ env.vars.names, isValidName name = true) ∧
      runExport env refused = ⟨env.toWorld, .error (.badIdentifier "export" "2=x")⟩ ∧
      (∃ vars, runExport env accepted = ⟨{ env.toWorld with vars := vars }, .ok .nothing⟩ ∧
        vars.get? "A" = some "" ∧ vars.get? "USER" = some "a=b" ∧ vars.get? "HOME" = some "/home/user" ∧
        vars.names = ["HOME", "USER", "PATH", "PWD", "A"]) ∧
      (runExport env env.vars.listing).world = env.toWorld := by
  intro env refused accepted
  have hrefused : ∃ arg ∈ refused, IsMalformed arg := by decide
  have haccepted : ∀ arg ∈ accepted, ¬ IsMalformed arg := by decide
  have hnodup : env.vars.names.Nodup := by decide
  have hvalid : ∀ name ∈ env.vars.names, isValidName name = true := by decide
  obtain ⟨hcalls, hlisting⟩ := export_all_or_nothing env
  obtain ⟨made, vars, hmade, hnames, hrun, hlast, hothers, horder⟩ :=
    (hcalls accepted (by decide)).2 haccepted
  obtain ⟨before, first, after, hsplit, hbefore, hfirst, hfailed⟩ := (hcalls refused (by decide)).1 hrefused
  have hthese : made = [("A", "1"), ("USER", "a=b"), ("A", "")] := by
    have hassigned : accepted.mapM assignment = .ok made := hmade ▸ mapM_assignment hnames
    exact (Except.ok.inj hassigned).symm
  subst hthese
  refine ⟨hrefused, haccepted, hnodup, hvalid, ?_, ⟨vars, hrun, ?_, ?_, ?_, ?_⟩, (hlisting hnodup hvalid).2.1⟩
  · rw [hfailed]
    rcases before with _ | ⟨other, _ | ⟨next, more⟩⟩
    · obtain ⟨rfl, -⟩ := List.cons.inj hsplit
      exact absurd hfirst (by decide)
    · obtain ⟨rfl, -⟩ := List.cons.inj (List.cons.inj hsplit).2
      rfl
    · obtain ⟨rfl, -⟩ := List.cons.inj (List.cons.inj hsplit).2
      exact absurd (hbefore "2=x" (by simp)) (by decide)
  · exact hlast [("A", "1"), ("USER", "a=b")] "A" "" [] rfl (by decide)
  · exact hlast [("A", "1")] "USER" "a=b" [("A", "")] rfl (by decide)
  · rw [hothers "HOME" (by decide)]
    decide
  · rw [horder]
    decide

end Command

end VirtualShell
