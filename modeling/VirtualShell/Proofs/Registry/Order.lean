import Mathlib.Data.List.Perm.Basic
import Mathlib.Data.List.Sort
import VirtualShell.Proofs.Variables
import VirtualShell.Registry.Standard

/-!
# The order of registration does not show

A registry is a finite map: under each name it holds the command that was registered last
(`find?_registerAll`), and it holds each name once (`distinct_registerAll`). The order in which the commands
stand is left open (`ArisesFrom`), as the iteration order of a map is.

What is said about commands is sorted by name alone, and a command may bear a name that the registry also
answers itself. A stable sort then depends on the order in which the two come, and on nothing else: lists of
synopses that agree under each single name (`SameByName`) are sorted alike (`SameByName.sortByName_eq`).
The lists that a registry puts out are of that kind, since its own synopses have a fixed place.

The overview is a list of sections (`Section`), one for each category, and together they show each command
once (`sections_perm`).
-/

namespace VirtualShell.Registry

/-! ## What registrations leave -/

/-- The command that was registered last under a name. -/
def lastNamed? (registrations : List Command) (name : String) : Option Command :=
  registrations.reverse.find? (·.name == name)

/-- The commands as entries under their names. -/
def entries (registry : Registry) : List (String × Command) :=
  registry.commands.map fun command => (command.name, command)

/-- Each name is held once. -/
def Distinct (registry : Registry) : Prop :=
  (registry.commands.map (·.name)).Nodup

theorem names_entries (registry : Registry) :
    Entries.names registry.entries = registry.commands.map (·.name) := by
  rw [Entries.names, entries, List.map_map]
  rfl

theorem find?_eq_lookup (registry : Registry) (name : String) :
    registry.find? name = registry.entries.lookup name := by
  obtain ⟨commands⟩ := registry
  induction commands with
  | nil => rfl
  | cons command rest ih =>
    rw [find?, entries, List.map_cons, Entries.lookup_cons_eq, List.find?_cons]
    by_cases hname : name = command.name
    · rw [if_pos hname, hname, beq_self_eq_true]
    · rw [if_neg hname, beq_false_of_ne (Ne.symm hname)]
      exact ih

/-- Registering puts an entry under the name of the command. -/
theorem entries_register (registry : Registry) (command : Command) :
    (registry.register command).entries = Entries.put command.name command registry.entries := by
  obtain ⟨commands⟩ := registry
  induction commands with
  | nil => rfl
  | cons other rest ih =>
    rw [register, entries, replaceOrAppend, entries, List.map_cons, Entries.put]
    split
    next => rw [List.map_cons]
    next =>
      rw [List.map_cons]
      exact congrArg (_ :: ·) ih

theorem find?_register (registry : Registry) (command : Command) (name : String) :
    (registry.register command).find? name =
      if command.name = name then some command else registry.find? name := by
  rw [find?_eq_lookup, entries_register, find?_eq_lookup]
  split
  next hname => rw [hname, Entries.lookup_put_self]
  next hname => rw [Entries.lookup_put_of_ne (Ne.symm hname)]

/-- Under each name stands the command that was registered last, or what was there before. -/
theorem find?_registerAll (registry : Registry) (registrations : List Command) (name : String) :
    (registry.registerAll registrations).find? name =
      (lastNamed? registrations name).or (registry.find? name) := by
  induction registrations generalizing registry with
  | nil => rfl
  | cons command rest ih =>
    have hlast : lastNamed? (command :: rest) name =
        (lastNamed? rest name).or (if command.name = name then some command else none) := by
      rw [lastNamed?, List.reverse_cons, List.find?_append, lastNamed?, List.find?_singleton]
      simp only [beq_iff_eq]
    have hall : registry.registerAll (command :: rest) = (registry.register command).registerAll rest :=
      rfl
    rw [hall, ih, find?_register, hlast, Option.or_assoc]
    split <;> rfl

theorem distinct_registerAll {registry : Registry} (h : registry.Distinct)
    (registrations : List Command) : (registry.registerAll registrations).Distinct := by
  induction registrations generalizing registry with
  | nil => exact h
  | cons command rest ih =>
    apply ih
    rw [Distinct, ← names_entries] at h ⊢
    rw [entries_register]
    exact Entries.nodup_names_put h _ _

/-- What is held under a name is the one command that has it. -/
theorem find?_eq_some_iff {registry : Registry} (h : registry.Distinct) {name : String}
    {command : Command} :
    registry.find? name = some command ↔ command ∈ registry.commands ∧ command.name = name := by
  rw [find?_eq_lookup, Entries.lookup_eq_some_iff_mem (by rw [names_entries]; exact h), entries,
    List.mem_map]
  constructor
  · rintro ⟨held, hmem, heq⟩
    obtain ⟨rfl, rfl⟩ := Prod.mk.inj heq
    exact ⟨hmem, rfl⟩
  · rintro ⟨hmem, rfl⟩
    exact ⟨command, hmem, rfl⟩

theorem distinct_empty : empty.Distinct :=
  List.nodup_nil

/-- A registry that a sequence of registrations leaves, its commands standing in any order. -/
def ArisesFrom (registry : Registry) (registrations : List Command) : Prop :=
  registry.commands.Perm (empty.registerAll registrations).commands

theorem ArisesFrom.distinct {registry : Registry} {registrations : List Command}
    (h : registry.ArisesFrom registrations) : registry.Distinct := by
  have hnames : (registry.commands.map (·.name)).Perm _ := h.map _
  exact hnames.nodup_iff.2 (distinct_registerAll distinct_empty registrations)

theorem ArisesFrom.find?_eq {registry : Registry} {registrations : List Command}
    (h : registry.ArisesFrom registrations) (name : String) :
    registry.find? name = lastNamed? registrations name := by
  have hbuilt : (empty.registerAll registrations).find? name = lastNamed? registrations name := by
    rw [find?_registerAll]
    exact Option.or_none
  have hdistinct := distinct_registerAll distinct_empty registrations
  rw [← hbuilt]
  apply Option.ext
  intro command
  rw [find?_eq_some_iff h.distinct, find?_eq_some_iff hdistinct, h.mem_iff]

/-! ## Sorting by name -/

/-- Synopses that are the same ones, in the same order, under every single name. -/
def SameByName (all other : List Synopsis) : Prop :=
  ∀ name, all.filter (·.name == name) = other.filter (·.name == name)

private theorem le_trans_decide (a b c : String) (hab : decide (a ≤ b) = true)
    (hbc : decide (b ≤ c) = true) : decide (a ≤ c) = true :=
  decide_eq_true (le_trans (of_decide_eq_true hab) (of_decide_eq_true hbc))

private theorem le_total_decide (a b : String) : (decide (a ≤ b) || decide (b ≤ a)) = true := by
  rw [Bool.or_eq_true, decide_eq_true_eq, decide_eq_true_eq]
  exact le_total a b

private theorem byName_trans (a b c : Synopsis) (hab : decide (a.name ≤ b.name) = true)
    (hbc : decide (b.name ≤ c.name) = true) : decide (a.name ≤ c.name) = true :=
  le_trans_decide a.name b.name c.name hab hbc

private theorem byName_total (a b : Synopsis) :
    (decide (a.name ≤ b.name) || decide (b.name ≤ a.name)) = true :=
  le_total_decide a.name b.name

theorem sortByName_pairwise (all : List Synopsis) :
    (sortByName all).Pairwise fun a b => a.name ≤ b.name := by
  have hsorted : (sortByName all).Pairwise fun a b => decide (a.name ≤ b.name) = true :=
    List.pairwise_mergeSort byName_trans byName_total all
  exact hsorted.imp of_decide_eq_true

/-- Sorting is stable: it keeps the order under each name. -/
theorem sortByName_sameByName (all : List Synopsis) : SameByName (sortByName all) all := by
  intro name
  have hequal : (all.filter (·.name == name)).Pairwise fun a b => decide (a.name ≤ b.name) = true := by
    apply List.pairwise_of_forall_mem_list
    intro a ha b hb
    have hname : a.name = b.name := by
      rw [beq_iff_eq.1 (List.mem_filter.1 ha).2, beq_iff_eq.1 (List.mem_filter.1 hb).2]
    exact decide_eq_true (le_of_eq hname)
  have hsub : (all.filter (·.name == name)).Sublist (sortByName all) :=
    List.sublist_mergeSort byName_trans byName_total hequal List.filter_sublist
  have hwithin := hsub.filter (·.name == name)
  simp only [List.filter_filter, Bool.and_self] at hwithin
  have hperm := (List.mergeSort_perm all fun a b => decide (a.name ≤ b.name)).filter (·.name == name)
  exact (hwithin.eq_of_length hperm.length_eq.symm).symm

theorem SameByName.trans {all other another : List Synopsis} (h : SameByName all other)
    (h' : SameByName other another) : SameByName all another :=
  fun name => (h name).trans (h' name)

theorem SameByName.symm {all other : List Synopsis} (h : SameByName all other) :
    SameByName other all := fun name => (h name).symm

theorem SameByName.mem {all other : List Synopsis} (h : SameByName all other) {synopsis : Synopsis}
    (hmem : synopsis ∈ all) : synopsis ∈ other := by
  have hnamed : synopsis ∈ all.filter (·.name == synopsis.name) :=
    List.mem_filter.2 ⟨hmem, beq_self_eq_true _⟩
  rw [h] at hnamed
  exact (List.mem_filter.1 hnamed).1

/-- A list in the order of names is determined by what it holds under each name. -/
theorem SameByName.eq_of_pairwise {all other : List Synopsis} (h : SameByName all other)
    (hall : all.Pairwise fun a b => a.name ≤ b.name)
    (hother : other.Pairwise fun a b => a.name ≤ b.name) : all = other := by
  induction all generalizing other with
  | nil =>
    cases other with
    | nil => rfl
    | cons b rest => exact absurd (h.symm.mem List.mem_cons_self) List.not_mem_nil
  | cons a all ih =>
    cases other with
    | nil => exact absurd (h.mem List.mem_cons_self) List.not_mem_nil
    | cons b rest =>
      obtain ⟨hfirst, hrest⟩ := List.pairwise_cons.1 hall
      obtain ⟨hfirst', hrest'⟩ := List.pairwise_cons.1 hother
      -- each of the two first ones stands somewhere in the other list, so neither name is greater
      have hname : a.name = b.name := by
        rcases List.mem_cons.1 (h.mem List.mem_cons_self) with rfl | hmem
        · rfl
        rcases List.mem_cons.1 (h.symm.mem List.mem_cons_self) with rfl | hmem'
        · rfl
        exact le_antisymm (hfirst b hmem') (hfirst' a hmem)
      have hheads := h a.name
      simp only [List.filter_cons, hname, beq_self_eq_true, if_true] at hheads
      obtain ⟨rfl, -⟩ := List.cons.inj hheads
      refine congrArg (a :: ·) (ih ?_ hrest hrest')
      intro name
      have hboth := h name
      rw [List.filter_cons, List.filter_cons] at hboth
      split at hboth
      next => exact (List.cons.inj hboth).2
      next => exact hboth

theorem SameByName.sortByName_eq {all other : List Synopsis} (h : SameByName all other) :
    sortByName all = sortByName other := by
  have hsame : SameByName (sortByName all) (sortByName other) :=
    (sortByName_sameByName all).trans (h.trans (sortByName_sameByName other).symm)
  exact hsame.eq_of_pairwise (sortByName_pairwise all) (sortByName_pairwise other)

theorem SameByName.perm {all other : List Synopsis} (h : SameByName all other) : all.Perm other := by
  have hsorted : (sortByName all).Perm other := by
    rw [h.sortByName_eq]
    exact List.mergeSort_perm _ _
  exact (List.mergeSort_perm _ _).symm.trans hsorted

theorem SameByName.append {all all' other other' : List Synopsis} (h : SameByName all other)
    (h' : SameByName all' other') : SameByName (all ++ all') (other ++ other') := by
  intro name
  rw [List.filter_append, List.filter_append, h, h']

theorem SameByName.filter {all other : List Synopsis} (h : SameByName all other)
    (p : Synopsis → Bool) : SameByName (all.filter p) (other.filter p) := by
  intro name
  have hall := congrArg (List.filter p) (h name)
  rw [List.filter_filter, List.filter_filter] at hall ⊢
  simpa only [Bool.and_comm] using hall

/-! ## The commands of a registry by name -/

private theorem filter_name_eq {commands : List Command} (h : (commands.map (·.name)).Nodup)
    (name : String) :
    commands.filter (·.name == name) = (commands.find? (·.name == name)).toList := by
  induction commands with
  | nil => rfl
  | cons command rest ih =>
    rw [List.map_cons, List.nodup_cons] at h
    rw [List.filter_cons, List.find?_cons]
    cases hname : command.name == name with
    | false => exact ih h.2
    | true =>
      have hnone : rest.filter (·.name == name) = [] := by
        rw [List.filter_eq_nil_iff]
        intro other hother hsame
        apply h.1
        rw [beq_iff_eq.1 hname, ← beq_iff_eq.1 hsame]
        exact List.mem_map_of_mem hother
      rw [if_pos rfl, hnone]
      rfl

/-- Under each name stands the synopsis of the command that is found there. -/
theorem filter_name_synopses {registry : Registry} (h : registry.Distinct) (name : String) :
    registry.synopses.filter (·.name == name) =
      (registry.find? name).toList.map (·.toSynopsis) := by
  rw [synopses, List.filter_map, find?, ← filter_name_eq h]
  rfl

/-- Registries that find the same commands say the same under each name. -/
theorem sameByName_synopses {registry other : Registry} (h : registry.Distinct) (h' : other.Distinct)
    (hfind : ∀ name, registry.find? name = other.find? name) :
    SameByName registry.synopses other.synopses := by
  intro name
  rw [filter_name_synopses h, filter_name_synopses h', hfind]

/-! ## The overview -/

/-- A section of the overview. -/
structure Section where
  category : String
  members : List Synopsis

/-- A section under its heading. -/
def Section.text (shown : Section) : String :=
  "\n" ++ Text.uppercase shown.category ++ ":\n" ++ String.join (shown.members.map overviewLine)

/-- An overview of so many commands in these sections. -/
def overview (total : Nat) (sections : List Section) : String :=
  s!"Linux Command Reference ({toString total} commands)\n" ++
    String.join (sections.map Section.text) ++
    "\nType 'man <command>' for detailed help on any command."

/-- The sections in which synopses are shown. -/
def sectionsOf (all : List Synopsis) : List Section :=
  (categories all).map fun category =>
    ⟨category, sortByName (all.filter (·.category == category))⟩

theorem category_sectionsOf (all : List Synopsis) :
    (sectionsOf all).map Section.category = categories all := by
  rw [sectionsOf, List.map_map]
  exact List.map_id _

theorem text_sectionsOf (all : List Synopsis) :
    (sectionsOf all).map Section.text = (categories all).map (sectionOf all) := by
  rw [sectionsOf, List.map_map]
  apply List.map_congr_left
  intro category _
  rw [Function.comp_apply, Section.text, sectionOf]

theorem help_eq_overview (registry : Registry) :
    registry.help =
      overview (registry.commands.length + 3) (sectionsOf (ownSynopses ++ registry.synopses)) := by
  have hown : ownSynopses.length = 3 := rfl
  have htotal : (ownSynopses ++ registry.synopses).length = registry.commands.length + 3 := by
    rw [List.length_append, synopses, List.length_map, hown, Nat.add_comm]
  unfold help overview
  rw [← htotal, text_sectionsOf]

theorem mem_categories {all : List Synopsis} {category : String} :
    category ∈ categories all ↔ ∃ synopsis ∈ all, synopsis.category = category := by
  rw [categories, List.mem_mergeSort, List.mem_eraseDups, List.mem_map]

theorem nodup_categories (all : List Synopsis) : (categories all).Nodup :=
  (List.mergeSort_perm _ _).nodup_iff.2 (Variables.nodup_eraseDups _)

/-- The categories are in order, and none is repeated. -/
theorem categories_pairwise (all : List Synopsis) : (categories all).Pairwise (· < ·) := by
  have hsorted : (categories all).Pairwise fun a b => decide (a ≤ b) = true :=
    List.pairwise_mergeSort le_trans_decide le_total_decide _
  refine (hsorted.and (nodup_categories all)).imp ?_
  rintro a b ⟨hle, hne⟩
  exact lt_of_le_of_ne (of_decide_eq_true hle) hne

theorem SameByName.sectionsOf_eq {all other : List Synopsis} (h : SameByName all other) :
    sectionsOf all = sectionsOf other := by
  have hmem : ∀ category, category ∈ categories all ↔ category ∈ categories other := by
    intro category
    simp only [mem_categories, h.perm.mem_iff]
  have hperm : (categories all).Perm (categories other) :=
    (List.perm_ext_iff_of_nodup (nodup_categories all) (nodup_categories other)).2 hmem
  have hcategories : categories all = categories other :=
    hperm.eq_of_pairwise (fun a b _ _ hab hba => absurd hba (lt_asymm hab)) (categories_pairwise all)
      (categories_pairwise other)
  rw [sectionsOf, sectionsOf, hcategories]
  apply List.map_congr_left
  intro category _
  rw [(h.filter _).sortByName_eq]

/-- Taking synopses category by category takes each of them once. -/
private theorem flatMap_filter_perm (all : List Synopsis) {kinds : List String} (h : kinds.Nodup) :
    (kinds.flatMap fun kind => all.filter (·.category == kind)).Perm
      (all.filter (kinds.contains ·.category)) := by
  induction kinds with
  | nil => simp
  | cons kind rest ih =>
    obtain ⟨hnew, hrest⟩ := List.nodup_cons.1 h
    -- what is of this category or of the others, parted by whether it is of this one
    have hparted := List.filter_append_perm (·.category == kind)
      (all.filter ((kind :: rest).contains ·.category))
    rw [List.filter_filter, List.filter_filter] at hparted
    have hfirst : (fun synopsis : Synopsis => synopsis.category == kind &&
        (kind :: rest).contains synopsis.category) = (·.category == kind) := by
      funext synopsis
      by_cases hkind : synopsis.category = kind <;> simp [hkind]
    have hothers : (fun synopsis : Synopsis => !(synopsis.category == kind) &&
        (kind :: rest).contains synopsis.category) = (rest.contains ·.category) := by
      funext synopsis
      by_cases hkind : synopsis.category = kind
      · simp [hkind, hnew]
      · simp [hkind]
    rw [hfirst, hothers] at hparted
    exact ((ih hrest).append_left _).trans hparted

/-- The sections show everything once. -/
theorem sections_perm (all : List Synopsis) :
    ((sectionsOf all).flatMap Section.members).Perm all := by
  have hmembers : (sectionsOf all).flatMap Section.members =
      (categories all).flatMap fun category => sortByName (all.filter (·.category == category)) := by
    rw [sectionsOf, List.flatMap_map]
  have hsorted : ((sectionsOf all).flatMap Section.members).Perm
      ((categories all).flatMap fun category => all.filter (·.category == category)) := by
    rw [hmembers]
    exact List.Perm.flatMap_left _ fun category _ => List.mergeSort_perm _ _
  have hall : all.filter ((categories all).contains ·.category) = all := by
    rw [List.filter_eq_self]
    intro synopsis hmem
    rw [List.contains_iff_mem, mem_categories]
    exact ⟨synopsis, hmem, rfl⟩
  have hparted := flatMap_filter_perm all (nodup_categories all)
  rw [hall] at hparted
  exact hsorted.trans hparted

/-! ## What is put out -/

/-- **Neither the order of registration nor that of the map shows.** Two sequences of registrations leave the
same command last under every name, whatever was replaced on the way, and the commands of the two registries
stand in any order. Then the overview, the listing, the completions, the manual pages, the places of commands
and the names that can be called are the same.

The overview shows, in sections of distinct categories, the commands that the registry answers itself and each
registered command once, in the section of its own category. Registered are the commands that were the last
ones of their names, and the total is their number and three. -/
theorem registration_order_hidden {first second : List Command}
    (hlast : ∀ name, lastNamed? first name = lastNamed? second name) {registry other : Registry}
    (hregistry : registry.ArisesFrom first) (hother : other.ArisesFrom second) :
    (registry.help = other.help ∧ registry.listing = other.listing ∧
      (∀ start, registry.completions start = other.completions start) ∧
      (∀ args, registry.man args = other.man args) ∧
      (∀ env args, registry.which env args = other.which env args) ∧
      ∀ name, registry.contains name = other.contains name) ∧
    (registry.commands.map (·.name)).Nodup ∧
    (∀ command, command ∈ registry.commands ↔ lastNamed? first command.name = some command) ∧
    ∃ sections : List Section,
      registry.help = overview (registry.commands.length + 3) sections ∧
      (sections.map Section.category).Pairwise (· < ·) ∧
      (∀ shown ∈ sections, ∀ synopsis ∈ shown.members, synopsis.category = shown.category) ∧
      (sections.flatMap Section.members).Perm (ownSynopses ++ registry.synopses) := by
  have hfind : ∀ name, registry.find? name = other.find? name := by
    intro name
    rw [hregistry.find?_eq, hother.find?_eq, hlast]
  have hsame := sameByName_synopses hregistry.distinct hother.distinct hfind
  have hown : SameByName ownSynopses ownSynopses := fun _ => rfl
  have hlisting : registry.listing = other.listing := (hsame.append hown).sortByName_eq
  have hcontains : ∀ name, registry.contains name = other.contains name := by
    intro name
    rw [contains, contains, hfind]
  refine ⟨⟨?_, hlisting, ?_, ?_, ?_, hcontains⟩, hregistry.distinct, ?_, ?_⟩
  · rw [help_eq_overview, help_eq_overview, (hown.append hsame).sectionsOf_eq]
    have hlength : registry.commands.length = other.commands.length := by
      have hperm := hsame.perm.length_eq
      rwa [synopses, synopses, List.length_map, List.length_map] at hperm
    rw [hlength]
  · intro start
    rw [completions, completions, hlisting]
  · intro args
    have htopic : ∀ name, registry.topic? name = other.topic? name := by
      intro name
      rw [topic?, topic?, hfind]
    simp only [man, htopic]
  · intro env args
    have hline : registry.whichLine = other.whichLine := by
      funext searched name
      rw [whichLine, whichLine, hcontains]
    rw [which, which, hline]
  · intro command
    rw [← hregistry.find?_eq, find?_eq_some_iff hregistry.distinct, and_iff_left rfl]
  · refine ⟨sectionsOf (ownSynopses ++ registry.synopses), help_eq_overview registry, ?_, ?_,
      sections_perm _⟩
    · rw [category_sectionsOf]
      exact categories_pairwise _
    · intro shown hshown synopsis hmem
      obtain ⟨category, -, rfl⟩ := List.mem_map.1 hshown
      exact beq_iff_eq.1 (List.mem_filter.1 (List.mem_mergeSort.1 hmem)).2

/-- Three commands, one of which bears the name of the overview and one of which replaces another, against the
same three in another order. -/
theorem registration_order_hidden_shadowing :
    let overshadowing : Command := { Command.pwd with name := "help" }
    let replaced : Command := { Command.echo with name := "cat" }
    let first := [replaced, Command.ls, overshadowing, Command.cat]
    let second := [overshadowing, Command.cat, Command.ls]
    let registry := empty.registerAll first
    let other : Registry := ⟨[Command.ls, overshadowing, Command.cat]⟩
    (∀ name, lastNamed? first name = lastNamed? second name) ∧ registry.ArisesFrom first ∧
      other.ArisesFrom second ∧ registry.help = other.help ∧
      registry.completions "help" = other.completions "help" ∧
      ∃ sections, registry.help = overview 6 sections := by
  intro overshadowing replaced first second registry other
  have hlast : ∀ name, lastNamed? first name = lastNamed? second name := by
    intro name
    simp only [lastNamed?, first, second, List.reverse_cons, List.reverse_nil, List.nil_append,
      List.cons_append, List.find?_cons, List.find?_nil]
    by_cases hls : name = "ls"
    · subst hls
      rfl
    · by_cases hcat : name = "cat"
      · subst hcat
        rfl
      · have hls' : (Command.ls.name == name) = false := beq_false_of_ne (Ne.symm hls)
        have hcat' : (Command.cat.name == name) = false := beq_false_of_ne (Ne.symm hcat)
        have hreplaced : (replaced.name == name) = false := hcat'
        rw [hls', hcat', hreplaced]
  have hother : other.ArisesFrom second := by
    have hbuilt : (empty.registerAll second).commands = [overshadowing, Command.cat] ++ [Command.ls] :=
      rfl
    rw [ArisesFrom, hbuilt]
    exact (List.perm_append_singleton _ _).symm
  obtain ⟨⟨hhelp, -, hcompletions, -⟩, -, -, sections, hsections, -⟩ :=
    registration_order_hidden hlast (List.Perm.refl _) hother
  exact ⟨hlast, List.Perm.refl _, hother, hhelp, hcompletions "help", sections, hsections⟩

end VirtualShell.Registry
