import Mathlib.Tactic.TFAE
import VirtualShell.Proofs.Text.Words
import VirtualShell.Registry.Standard

/-!
# All views of a registry agree

What can be called is looked up in several places: the call of a line, the listing, the completions, the
manual and the search for a place. Each of them knows the names that the registry answers itself and the names
of its commands, in an order of its own. `contains` is the measure here: every other view is shown to agree
with it (`call_ne_unknown_iff`, `mem_names_listing_iff`, `mem_completions_iff`, `topic?_isSome`), so all of
them agree, also where a command bears a name that the registry answers itself.
-/

namespace VirtualShell

/-- A command never complains that a command is unknown. -/
def Command.NeverUnknown (command : Command) : Prop :=
  ∀ env args name, (command.action.run env args).result ≠ .error (.unknownCommand name)

namespace Registry

variable {registry : Registry} {env : Environment} {name : String}

/-! ## Each view -/

/-- A name can be called if the registry answers it itself or has a command of that name. -/
theorem contains_iff :
    registry.contains name = true ↔
      (∃ command ∈ registry.commands, command.name = name) ∨
        ∃ synopsis ∈ ownSynopses, synopsis.name = name := by
  rw [contains, Bool.or_eq_true, find?, List.find?_isSome, List.any_eq_true]
  simp only [beq_iff_eq]

/-- The names that the registry answers itself can always be called. -/
theorem contains_own (h : name ∈ ownSynopses.map (·.name)) :
    registry.contains name = true := by
  obtain ⟨synopsis, hmem, hname⟩ := List.mem_map.1 h
  exact contains_iff.2 (.inr ⟨synopsis, hmem, hname⟩)

theorem mem_names_listing_iff :
    name ∈ registry.listing.map (·.name) ↔ registry.contains name = true := by
  rw [contains_iff, List.mem_map]
  simp only [listing, sortByName, List.mem_mergeSort, List.mem_append, synopses, List.mem_map]
  constructor
  · rintro ⟨synopsis, ⟨command, hmem, rfl⟩ | hmem, rfl⟩
    · exact .inl ⟨command, hmem, rfl⟩
    · exact .inr ⟨synopsis, hmem, rfl⟩
  · rintro (⟨command, hmem, rfl⟩ | ⟨synopsis, hmem, rfl⟩)
    · exact ⟨_, .inl ⟨command, hmem, rfl⟩, rfl⟩
    · exact ⟨_, .inr hmem, rfl⟩

theorem mem_completions_iff {start : String} :
    name ∈ registry.completions start ↔
      registry.contains name = true ∧ Text.startsWith name start = true := by
  rw [← mem_names_listing_iff, completions, List.mem_map, List.mem_map]
  constructor
  · rintro ⟨synopsis, hmem, rfl⟩
    obtain ⟨hlisted, hstart⟩ := List.mem_filter.1 hmem
    exact ⟨⟨synopsis, hlisted, rfl⟩, hstart⟩
  · rintro ⟨⟨synopsis, hlisted, rfl⟩, hstart⟩
    exact ⟨synopsis, List.mem_filter.2 ⟨hlisted, hstart⟩, rfl⟩

/-- There is a page about whatever can be called. -/
theorem topic?_isSome (registry : Registry) (name : String) :
    (registry.topic? name).isSome = registry.contains name := by
  rw [topic?, contains]
  cases registry.find? name with
  | some command => rfl
  | none =>
    rw [Option.isSome_none, Bool.false_or, Bool.eq_iff_iff, List.find?_isSome, List.any_eq_true]

theorem man_ne_noManual_iff {args : List String} :
    (∀ topic, registry.man (name :: args) ≠ .error (.noManual topic)) ↔
      registry.contains name = true := by
  rw [← topic?_isSome]
  simp only [man, List.head?_cons]
  cases registry.topic? name with
  | none => simp
  | some synopsis => simp

/-- A line is answered with the complaint about its first word only if that word cannot be called. -/
theorem call_ne_unknown_iff (hcommands : ∀ command ∈ registry.commands, command.NeverUnknown)
    {args : List String} :
    (registry.call env (name :: args)).result ≠ .error (.unknownCommand name) ↔
      registry.contains name = true := by
  have hown : ∀ own ∈ ["help", "man", "which"], registry.contains own = true := by
    intro own hmem
    exact contains_own hmem
  simp only [List.forall_mem_cons] at hown
  rw [call.eq_def]
  split
  next heq => cases heq
  next heq =>
    obtain ⟨rfl, -⟩ := List.cons.inj heq
    exact iff_of_true (fun h => nomatch h) hown.1
  next heq =>
    obtain ⟨rfl, rfl⟩ := List.cons.inj heq
    refine iff_of_true (fun h => ?_) hown.2.1
    simp only [man] at h
    split at h
    next => cases h
    next => split at h <;> cases h
  next heq =>
    obtain ⟨rfl, -⟩ := List.cons.inj heq
    exact iff_of_true (fun h => nomatch h) hown.2.2.1
  next called rest hhelp hman hwhich heq =>
    obtain ⟨rfl, rfl⟩ := List.cons.inj heq
    cases hfind : registry.find? name with
    | some command =>
      have hcontains : registry.contains name = true := by
        rw [contains, hfind]
        rfl
      exact iff_of_true (hcommands command (List.mem_of_find?_eq_some hfind) env args name) hcontains
    | none =>
      have hnot : ¬ registry.contains name = true := by
        rw [contains, hfind, ownSynopses]
        simpa using ⟨Ne.symm hhelp, Ne.symm hman, Ne.symm hwhich⟩
      exact iff_of_false (fun h => h rfl) hnot

/-- Where a command is, and that one is nowhere, are never said in the same words. -/
theorem whichLine_eq_iff {searched : String} :
    registry.whichLine searched name = "/usr/bin/" ++ name ↔ registry.contains name = true := by
  rw [whichLine]
  split
  next h => exact iff_of_true rfl h
  next h =>
    refine iff_of_false (fun heq => ?_) h
    have hfirst := congrArg (fun text : String => text.toList.head?) heq
    simp only [String.toList_append, List.head?_append] at hfirst
    cases hfirst

/-! ## Agreement -/

/-- The first word of a line decides whether the line is answered as an unknown command. -/
theorem execute_ne_unknown_iff (hcommands : ∀ command ∈ registry.commands, command.NeverUnknown)
    {line : String} (hline : (Text.words line).head? = some name) :
    (registry.execute env line).result ≠ .error (.unknownCommand name) ↔
      registry.contains name = true := by
  obtain ⟨args, hwords⟩ := List.head?_eq_some_iff.1 hline
  rw [execute, hwords]
  exact call_ne_unknown_iff hcommands

theorem execute_which_iff {line : String} (hline : Text.words line = ["which", name]) :
    (registry.execute env line).result = .ok (.text ("/usr/bin/" ++ name)) ↔
      registry.contains name = true := by
  let searched := (env.vars.get? "PATH").getD ""
  have hresult : (registry.execute env line).result =
      .ok (.text (registry.whichLine searched name)) := by
    rw [execute, hline]
    rfl
  rw [hresult]
  constructor
  · intro h
    exact whichLine_eq_iff.1 (Output.text.inj (Except.ok.inj h))
  · intro h
    rw [whichLine_eq_iff.2 h]

theorem execute_man_iff {line : String} (hline : Text.words line = ["man", name]) :
    (∀ topic, (registry.execute env line).result ≠ .error (.noManual topic)) ↔
      registry.contains name = true := by
  rw [← @man_ne_noManual_iff registry name [], execute, hline]
  exact Iff.rfl

/-- **All views of a registry agree on what can be called.** The commands of the registry do not complain
themselves that a command is unknown; it may hold any commands, also under the names that it answers itself.
Then these are the same for every word: it can be called; no line that begins with it is answered as an
unknown command; some line that begins with it is not; it is found by a search for its place; there is a
manual page about it; it completes each of its beginnings; and it is listed. The three lines may be written
with any blanks. -/
theorem views_agree (hcommands : ∀ command ∈ registry.commands, command.NeverUnknown)
    (env : Environment) (hname : Text.IsWord name) {search request : String}
    (hsearch : Text.words search = ["which", name]) (hrequest : Text.words request = ["man", name]) :
    List.TFAE [
      registry.contains name = true,
      ∀ line, (Text.words line).head? = some name →
        (registry.execute env line).result ≠ .error (.unknownCommand name),
      ∃ line, (Text.words line).head? = some name ∧
        (registry.execute env line).result ≠ .error (.unknownCommand name),
      (registry.execute env search).result = .ok (.text ("/usr/bin/" ++ name)),
      ∀ topic, (registry.execute env request).result ≠ .error (.noManual topic),
      ∀ start, Text.startsWith name start = true → name ∈ registry.completions start,
      name ∈ registry.listing.map (·.name)] := by
  have hself : (Text.words name).head? = some name := by
    rw [Text.words_word hname]
    rfl
  tfae_have 1 → 2 := fun h line hline => (execute_ne_unknown_iff hcommands hline).2 h
  tfae_have 2 → 3 := fun h => ⟨name, hself, h name hself⟩
  tfae_have 3 → 1 := fun ⟨line, hline, h⟩ => (execute_ne_unknown_iff hcommands hline).1 h
  tfae_have 4 ↔ 1 := execute_which_iff hsearch
  tfae_have 5 ↔ 1 := execute_man_iff hrequest
  tfae_have 1 → 6 := fun h start hstart => mem_completions_iff.2 ⟨h, hstart⟩
  tfae_have 6 → 1 := fun h => (mem_completions_iff.1 (h "" rfl)).1
  tfae_have 7 ↔ 1 := mem_names_listing_iff
  tfae_finish

/-- A command that bears the name of the manual, asked for with tabulators. -/
theorem views_agree_shadowing :
    let registry := empty.registerAll [Command.clear, { Command.clear with name := "man" }]
    let search := "\twhich  man"
    let request := "man\tman "
    let env : Environment :=
      { cwd := "/", tree := .empty, vars := .empty, history := [], config := .usual, clock := "" }
    (∀ command ∈ registry.commands, command.NeverUnknown) ∧ Text.IsWord "man" ∧
      Text.words search = ["which", "man"] ∧ Text.words request = ["man", "man"] ∧
      registry.contains "man" = true ∧
      (registry.execute env search).result = .ok (.text "/usr/bin/man") ∧
      "man" ∈ registry.completions "ma" := by
  intro registry search request env
  have hcommands : ∀ command ∈ registry.commands, command.NeverUnknown := by
    have hbuilt : registry.commands = [Command.clear, { Command.clear with name := "man" }] := rfl
    rw [hbuilt, List.forall_mem_cons, List.forall_mem_singleton]
    constructor
    · intro env args name h
      cases h
    · intro env args name h
      cases h
  have hname : Text.IsWord "man" := by decide
  have hsearch : Text.words search = ["which", "man"] := by decide
  have hrequest : Text.words request = ["man", "man"] := by decide
  have hviews := views_agree hcommands env hname hsearch hrequest
  have hlisted : registry.contains "man" = true := rfl
  have hcompletes : ∀ start, Text.startsWith "man" start = true → "man" ∈ registry.completions start :=
    (hviews.out 0 5).1 hlisted
  exact ⟨hcommands, hname, hsearch, hrequest, hlisted, (hviews.out 0 3).1 hlisted,
    hcompletes "ma" (by decide)⟩

end Registry

end VirtualShell
