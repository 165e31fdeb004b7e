import VirtualShell.Proofs.Command.Export
import VirtualShell.Proofs.Session.Run
import VirtualShell.Proofs.Text.Words
import VirtualShell.Proofs.Variables.Expansion

/-!
# Variables from one line to the next

What one line sets a variable to, the next one can show. Between the two lines the value passes through words, an
assignment, the variables, and the expansion of a text whose quotes have been dropped. Each of these leaves it as
it is, since no character of a valid name has a meaning there: neither where a line is cut into words
(`Variables.words_export`) nor where a text is expanded (`Command.runEcho_reference`).
-/

namespace VirtualShell

open Variables

namespace Variables

variable {name : String}

theorem isWord_of_isValidName (h : isValidName name = true) : Text.IsWord name := by
  obtain ⟨hne, hname⟩ := isNameChar_of_isValidName h
  exact ⟨hne, fun c hc => isBlank_eq_false_of_isNameChar (hname c hc)⟩

/-- The words of a line that sets a variable. -/
theorem words_export (h : isValidName name = true) {value : String}
    (hvalue : ∀ c ∈ value.toList, Text.isBlank c = false) :
    Text.words (Text.trim ("export " ++ name ++ "=" ++ value)) = ["export", spelled (name, value)] := by
  have hequals : Text.IsWord "=" := by decide
  have hword : Text.IsWord (name ++ "=" ++ value) := ((isWord_of_isValidName h).append hequals.2).append hvalue
  have hline : "export " ++ name ++ "=" ++ value = "export" ++ " " ++ (name ++ "=" ++ value) := by
    rw [← String.toList_inj]
    simp
  rw [hline, Text.words_trim_pair (by decide) hword, spelled]

/-- The words of a line that shows a variable. -/
theorem words_echo (h : isValidName name = true) :
    Text.words (Text.trim ("echo $" ++ name)) = ["echo", "$" ++ name] := by
  have hdollar : Text.IsWord "$" := by decide
  have hword : Text.IsWord ("$" ++ name) := hdollar.append (isWord_of_isValidName h).2
  have hline : "echo $" ++ name = "echo" ++ " " ++ ("$" ++ name) := by
    rw [← String.toList_inj]
    simp
  rw [hline, Text.words_trim_pair (by decide) hword]

end Variables

namespace Command

/-- A valid name behind a dollar sign is shown as its value. The quotes are dropped before the value is put in, so
that the value keeps its own. -/
theorem runEcho_reference (env : Environment) {name : String} (h : isValidName name = true) :
    runEcho env ["$" ++ name] = .ok (.text ((env.vars.get? name).getD "")) := by
  obtain ⟨hne, hname⟩ := isNameChar_of_isValidName h
  have hfree : ∀ quote, isNameChar quote = false → quote ≠ '$' → quote ∉ ("$" ++ name).toList := by
    intro quote hquote hdollar
    simp [hdollar, not_mem_of_isValidName h hquote]
  have hunquoted : ("$" ++ name).toList.filter (fun c => c != '"' && c != '\'') = ("$" ++ name).toList := by
    rw [List.filter_eq_self]
    intro c hc
    have hdouble : c ≠ '"' := ne_of_mem_of_not_mem hc (hfree '"' (by decide) (by decide))
    have hsingle : c ≠ '\'' := ne_of_mem_of_not_mem hc (hfree '\'' (by decide) (by decide))
    simp [hdouble, hsingle]
  rw [runEcho, String.intercalate_singleton, hunquoted, String.ofList_toList, expand_reference _ hne hname]

end Command

namespace Session

/-- **What was exported is echoed.** A line gives a variable with a valid name a value, which is any text without
blanks and may be empty. In any state of a session the line shows nothing and does nothing else. The next line,
which asks for the variable, shows the value as it was given, with the quotes, dollar signs and equals signs in
it. -/
theorem exported_value_is_echoed {session : Session} (hregistry : session.registry = .standard)
    {name value : String} (hname : isValidName name = true)
    (hvalue : ∀ c ∈ value.toList, Text.isBlank c = false) (clock later : String) :
    let setting : Input := ⟨clock, "export " ++ name ++ "=" ++ value⟩
    let asking : Input := ⟨later, "echo $" ++ name⟩
    let next := (session.feed setting).1
    (session.feed setting).2.output = "" ∧
      next.world = { session.world with vars := session.world.vars.set name value } ∧
      (next.feed asking).2.output = value ∧ (next.feed asking).1.world = next.world := by
  intro setting asking next
  have hset : session.outcome setting =
      ⟨{ session.world with vars := session.world.vars.set name value }, .ok .nothing⟩ := by
    have hbinding : ∀ binding ∈ [(name, value)], isValidName binding.1 = true := by simpa using hname
    rw [outcome, hregistry, Input.words, words_export hname hvalue]
    exact Command.runExport_spelled (session.surroundings setting) (by simp) hbinding
  have hnext : next.world = { session.world with vars := session.world.vars.set name value } := by
    rw [feed_world, hset]
    exact settle_eq_self rfl
  have hasked : next.outcome asking = ⟨next.world, .ok (.text value)⟩ := by
    have hthere : (next.surroundings asking).vars.get? name = some value := by
      show next.world.vars.get? name = _
      rw [hnext, get?_set_self]
    have hshown := Command.runEcho_reference (next.surroundings asking) hname
    rw [hthere] at hshown
    rw [outcome, (session.feed_registry setting).trans hregistry, Input.words, words_echo hname]
    exact congrArg (Outcome.mk next.world) hshown
  refine ⟨?_, hnext, ?_, ?_⟩
  · rw [feed_output, hset]
    rfl
  · rw [feed_output, hasked]
    rfl
  · rw [feed_world, hasked]
    exact settle_eq_self rfl

/-- A value that begins with a quote and looks like a reference and an assignment. -/
theorem exported_value_is_echoed_quoted :
    let session : Session := ⟨.standard, ⟨"/", .empty, .initial .usual "/"⟩, [], .usual⟩
    let next := (session.feed ⟨"", "export _x1=\"$HOME'=y="⟩).1
    isValidName "_x1" = true ∧ (∀ c ∈ "\"$HOME'=y=".toList, Text.isBlank c = false) ∧
      (session.feed ⟨"", "export _x1=\"$HOME'=y="⟩).2.output = "" ∧
      (next.feed ⟨"", "echo $_x1"⟩).2.output = "\"$HOME'=y=" := by
  intro session next
  have hname : isValidName "_x1" = true := by decide
  have hvalue : Text.IsWord "\"$HOME'=y=" := by decide
  obtain ⟨hsilent, -, hshown, -⟩ := @exported_value_is_echoed session rfl _ _ hname hvalue.2 "" ""
  exact ⟨hname, hvalue.2, hsilent, hshown⟩

end Session

end VirtualShell
