import VirtualShell.Proofs.Session.Names
import VirtualShell.Proofs.Session.Navigation
import VirtualShell.Session.Completion

/-!
# What suggestions stand for

A suggestion is the part of a word up to its last slash, the name of an entry, and a slash if the entry is a directory.
The entries are those of the directory that the first part stands for (`Session.completionDirectory_eq`). A name behind
a slash leads on from there, whatever stands before the slash, and without a slash a name leads on from the current
directory. So a suggestion stands for its entry (`Environment.absolute_suggestion`), but for one name: alone or before
a slash `~` is the home, and an entry of that name is not reached by it (`Environment.absolute_tilde`).
-/

namespace VirtualShell

/-- A slash behind a segment adds none. -/
theorem Path.segments_segment_append {name ending : String} (h : IsSegment name)
    (hending : ending = "" ∨ ending = "/") : segments (name ++ ending) = [name] := by
  obtain rfl | rfl := hending
  · rw [String.append_empty, segments_segment h]
  · have happend := segments_append_slash name ""
    rwa [String.append_empty, segments_segment h, segments_empty, List.append_nil] at happend

/-- The part of a word up to its last slash: nothing, or something that ends in a slash. -/
def IsTyped (typed : String) : Prop :=
  typed = "" ∨ ∃ before, typed = before ++ "/"

namespace Environment

variable {env : Environment} {typed name ending : String}

/-- The path of the directory in which a word is completed. -/
def completionPath (env : Environment) (typed : String) : String :=
  if typed = "" then env.cwd else env.absolute typed

theorem isNormal_completionPath (hcwd : Path.IsNormal env.cwd) (typed : String) :
    Path.IsNormal (env.completionPath typed) := by
  unfold completionPath
  split
  · exact hcwd
  · exact env.isNormal_absolute typed

/-- A plain name leads on from the current directory, with a slash behind it or without, unless it is `~`. -/
theorem leadsOn_name (hplain : Path.isPlain name = true) (hending : ending = "" ∨ ending = "/") (htilde : name ≠ "~") :
    LeadsOn (name ++ ending) := by
  obtain ⟨⟨hne, hslash⟩, hdots⟩ := Path.isPlain_iff.1 hplain
  obtain ⟨c, rest, hchars⟩ := List.exists_cons_of_ne_nil (mt String.toList_eq_nil_iff.1 hne)
  rw [hchars, List.mem_cons, not_or] at hslash
  refine ⟨fun hempty => hne (String.append_eq_empty_iff.1 hempty).1, ?_, ?_, ?_, ?_⟩
  · obtain rfl | rfl := hending
    · rwa [String.append_empty]
    · have happend := Path.isDots_append_slash name ""
      rwa [String.append_empty] at happend
  · simpa [Text.startsWith, hchars, List.isPrefixOf] using hslash.1
  · obtain rfl | rfl := hending
    · rwa [String.append_empty]
    · intro heq
      have hmem : '/' ∈ (name ++ "/").toList := by simp
      rw [heq] at hmem
      exact absurd hmem (by decide)
  · -- behind the first character there is no slash but the one that was put there
    have hone : rest = [] → c ≠ '~' := by
      rintro rfl rfl
      exact htilde (String.toList_injective hchars)
    cases rest with
    | nil => simp [Text.startsWith, hchars, List.isPrefixOf, (hone rfl).symm]
    | cons d rest =>
      have hd : '/' ≠ d := fun heq => hslash.2 (heq ▸ List.mem_cons_self)
      simp [Text.startsWith, hchars, List.isPrefixOf, hd]

/-- A suggestion stands for the entry of its name, unless that is `~` and nothing stands before it. -/
theorem absolute_suggestion (hcwd : Path.IsNormal env.cwd) (htyped : IsTyped typed) (hplain : Path.isPlain name = true)
    (hending : ending = "" ∨ ending = "/") (htilde : typed = "" → name ≠ "~") :
    env.absolute (typed ++ name ++ ending) = Path.join (env.completionPath typed) name := by
  obtain ⟨hname, -⟩ := Path.isPlain_iff.1 hplain
  have hjoin := (isNormal_completionPath hcwd typed).join hname
  apply (env.isNormal_absolute _).eq_of_segments_eq hjoin.1
  rw [hjoin.2, String.append_assoc, completionPath]
  obtain rfl | ⟨before, rfl⟩ := htyped
  · rw [String.empty_append, if_pos rfl, segments_absolute_of_leadsOn hcwd (leadsOn_name hplain hending (htilde rfl)),
      Path.segments_segment_append hname hending]
  · have hne : before ++ "/" ≠ "" := fun hempty => absurd (String.append_eq_empty_iff.1 hempty).2 (by decide)
    rw [if_neg hne, segments_absolute_slash_append hcwd, Path.segments_segment_append hname hending]

/-- With a slash behind it or without, `~` stands for the home. -/
theorem absolute_tilde (hcwd : Path.IsNormal env.cwd) (hhome : Text.startsWith env.config.home "/" = true)
    (hending : ending = "" ∨ ending = "/") : env.absolute ("~" ++ ending) = env.absolute "~" := by
  obtain rfl | rfl := hending
  · rw [String.append_empty]
  · have happend := @segments_absolute_append_slash env "~" hcwd hhome (by decide) (by decide) ""
    rw [String.append_empty, Path.segments_empty, List.append_nil] at happend
    exact (env.isNormal_absolute _).eq_of_segments_eq (env.isNormal_absolute _) happend

end Environment

namespace Session

/-! ## Words -/

theorem splitWord_append (word : String) : (splitWord word).1 ++ (splitWord word).2 = word := by
  unfold splitWord
  split
  next before behind hcut =>
    have hword := (Text.cutLast_eq_some_iff.1 hcut).1
    rw [← String.toList_inj, hword]
    simp
  next => exact String.empty_append

theorem isTyped_splitWord (word : String) : IsTyped (splitWord word).1 := by
  unfold splitWord
  split
  next before behind hcut =>
    refine .inr ⟨String.ofList before, ?_⟩
    rw [← String.toList_inj]
    simp
  next => exact .inl rfl

theorem slash_not_mem_splitWord (word : String) : '/' ∉ (splitWord word).2.toList := by
  unfold splitWord
  split
  next before behind hcut =>
    rw [String.toList_ofList]
    exact (Text.cutLast_eq_some_iff.1 hcut).2
  next hnone => exact Text.mark_not_mem_of_cutLast_eq_none hnone

/-! ## Entries -/

variable {session : Session} {clock typed word : String}

/-- Words are completed in the directory that their part up to the last slash stands for when it is typed. -/
theorem completionDirectory_eq (clock : String) (hhome : Text.startsWith session.config.home "/" = true) (htyped : IsTyped typed) :
    session.completionDirectory typed =
      session.world.tree.lookup ((session.environment clock).completionPath typed) := by
  unfold completionDirectory Environment.completionPath
  by_cases hempty : typed = ""
  · rw [if_pos (String.isEmpty_iff.2 hempty), if_pos hempty]
    rfl
  · have htilde : typed ≠ "~" := by
      rintro rfl
      obtain hnone | ⟨before, hbefore⟩ := htyped
      · exact absurd hnone (by decide)
      · have hlast := congrArg (fun s => s.toList.getLast?) hbefore
        simp at hlast
    have hresolve := @Environment.resolve_eq_lookup (session.environment clock) typed hhome hempty
    rw [Environment.resolve, Environment.expandHome, if_neg htilde] at hresolve
    rw [if_neg (mt String.isEmpty_iff.1 hempty), if_neg hempty]
    exact hresolve

/-- What is suggested for an entry. -/
def suggestion (typed : String) (entry : String × Node) : String :=
  typed ++ entry.1 ++ if entry.2.isDirectory then "/" else ""

theorem exists_suggestion_eq (typed : String) (entry : String × Node) :
    ∃ ending, (ending = "" ∨ ending = "/") ∧ suggestion typed entry = typed ++ entry.1 ++ ending := by
  refine ⟨_, ?_, rfl⟩
  split
  · exact .inr rfl
  · exact .inl rfl

/-- The entries that are suggested for a word. -/
def offered (session : Session) (word : String) : List (String × Node) :=
  match (session.completionDirectory (splitWord word).1).bind Node.entries? with
  | none => []
  | some entries => (entries.filter fun entry => isSuggested (splitWord word).2 entry.1).take mostCompletions

theorem completePath_eq (session : Session) (word : String) :
    session.completePath word = (session.offered word).map (suggestion (splitWord word).1) := by
  unfold completePath offered
  simp only
  cases (session.completionDirectory (splitWord word).1).bind Node.entries? <;> rfl

/-- The last word behind a command that takes paths is completed to a path. -/
theorem complete_eq {line command : String} {between : List String} (hcommand : command ∈ pathCommands)
    (hline : (line.toList.splitOn ' ').map String.ofList = command :: between ++ [word]) :
    session.complete line = session.completePath word := by
  have hpath : pathCommands.contains command = true := List.contains_iff_mem.2 hcommand
  have hlast : (between ++ [word]).getLast? = some word := List.getLast?_concat
  rw [complete, hline, List.cons_append]
  cases hbehind : between ++ [word] with
  | nil => exact absurd hbehind (List.append_ne_nil_of_right_ne_nil _ (List.cons_ne_nil _ _))
  | cons second more =>
    rw [hbehind] at hlast
    simp only [hpath, if_true, hlast]

theorem length_offered_le (session : Session) (word : String) : (session.offered word).length ≤ 10 := by
  unfold offered
  split
  · exact Nat.zero_le 10
  · exact List.length_take_le _ _

/-- What is suggested begins as the word does. -/
theorem prefix_suggestion {entry : String × Node} (h : entry ∈ session.offered word) :
    word.toList <+: (suggestion (splitWord word).1 entry).toList := by
  have hstart : Text.startsWith entry.1 (splitWord word).2 = true := by
    unfold offered at h
    split at h
    next => cases h
    next =>
      have hsuggested := (List.mem_filter.1 (List.mem_of_mem_take h)).2
      exact (Bool.and_eq_true_iff.1 hsuggested).1
  obtain ⟨more, hmore⟩ := List.isPrefixOf_iff_prefix.1 hstart
  refine ⟨more ++ (if entry.2.isDirectory then "/" else "").toList, ?_⟩
  rw [suggestion, String.toList_append, String.toList_append, ← hmore]
  nth_rewrite 1 [← splitWord_append word]
  rw [String.toList_append]
  simp only [List.append_assoc]

/-- A suggestion ends in a slash if it is for a directory. -/
theorem getLast?_suggestion {entry : String × Node} (h : Path.isPlain entry.1 = true) (typed : String) :
    (suggestion typed entry).toList.getLast? = some '/' ↔ entry.2.isDirectory = true := by
  obtain ⟨⟨hne, hslash⟩, -⟩ := Path.isPlain_iff.1 h
  unfold suggestion
  by_cases hdirectory : entry.2.isDirectory = true
  · simp [hdirectory]
  · have hchars : entry.1.toList ≠ [] := mt String.toList_eq_nil_iff.1 hne
    rw [if_neg hdirectory, String.append_empty, String.toList_append, List.getLast?_append_of_ne_nil _ hchars]
    refine iff_of_false (fun hlast => hslash (List.mem_of_getLast? hlast)) hdirectory

/-- An entry that is offered is in the directory in which the word is completed. -/
theorem lookup_of_mem_offered (clock : String) (hhome : Text.startsWith session.config.home "/" = true)
    (hcwd : Path.IsNormal session.world.cwd) (hordered : session.world.tree.root.Ordered)
    (hplain : session.world.tree.root.Plain) {entry : String × Node} (h : entry ∈ session.offered word) :
    Path.isPlain entry.1 = true ∧
      session.world.tree.lookup
        (Path.join ((session.environment clock).completionPath (splitWord word).1) entry.1) = some entry.2 := by
  rw [offered, completionDirectory_eq clock hhome (isTyped_splitWord word)] at h
  split at h
  next => cases h
  next entries hentries =>
    obtain ⟨node, hdirectory, hnode⟩ := Option.bind_eq_some_iff.1 hentries
    cases node with
    | file content mode => cases hnode
    | directory _ =>
      cases hnode
      have hmem : entry ∈ entries := (List.mem_filter.1 (List.mem_of_mem_take h)).1
      have hnames := Node.everywhere_directory_iff.1 (Filesystem.everywhere_of_lookup hordered hdirectory)
      have hplains := Node.everywhere_directory_iff.1 (Filesystem.everywhere_of_lookup hplain hdirectory)
      have hname : Path.isPlain entry.1 = true := hplains.1 entry.1 (List.mem_map_of_mem hmem)
      have hfound : entries.lookup entry.1 = some entry.2 :=
        (Entries.lookup_eq_some_iff_mem (Entries.Increasing.nodup hnames.1)).2 hmem
      have hjoin := (@Environment.isNormal_completionPath (session.environment clock) hcwd
        (splitWord word).1).join (Path.isPlain_iff.1 hname).1
      exact ⟨hname, (Filesystem.lookup_concat hjoin.2 hdirectory (Path.isDots_of_isPlain hname)).trans hfound⟩

/-- The entries that are offered are the first of those whose names begin as the word does. -/
theorem offered_eq (hhome : Text.startsWith session.config.home "/" = true) {entries : List (String × Node)}
    (h : session.world.tree.lookup ((session.environment clock).completionPath (splitWord word).1) =
      some (.directory entries)) :
    session.offered word = (entries.filter fun entry => isSuggested (splitWord word).2 entry.1).take 10 := by
  rw [offered, completionDirectory_eq clock hhome (isTyped_splitWord word), h]
  rfl

/-- A suggestion stands for the entry that it is for, unless it would have to stand for the home. -/
theorem resolve_suggestion (hhome : Text.startsWith session.config.home "/" = true)
    (hcwd : Path.IsNormal session.world.cwd) (hordered : session.world.tree.root.Ordered)
    (hplain : session.world.tree.root.Plain) {entry : String × Node} (h : entry ∈ session.offered word)
    (htilde : (splitWord word).1 = "" → entry.1 ≠ "~") :
    let env := session.environment clock
    let typed := (splitWord word).1
    env.absolute (suggestion typed entry) = Path.join (env.completionPath typed) entry.1 ∧
      env.resolve (suggestion typed entry) = some entry.2 := by
  intro env typed
  obtain ⟨hname, hlookup⟩ := lookup_of_mem_offered clock hhome hcwd hordered hplain h
  obtain ⟨ending, hending, hsuggestion⟩ := exists_suggestion_eq typed entry
  have habsolute : env.absolute (suggestion typed entry) = Path.join (env.completionPath typed) entry.1 := by
    rw [hsuggestion]
    exact Environment.absolute_suggestion hcwd (isTyped_splitWord word) hname hending htilde
  have hne : suggestion typed entry ≠ "" := by
    intro hempty
    have hnone := (String.append_eq_empty_iff.1 (String.append_eq_empty_iff.1 hempty).1).2
    exact (Path.isPlain_iff.1 hname).1.1 hnone
  refine ⟨habsolute, ?_⟩
  rw [Environment.resolve_eq_lookup hhome hne, habsolute]
  exact hlookup

/-- The suggestion for an entry `~` of the current directory stands for the home. -/
theorem absolute_suggestion_tilde (hhome : Text.startsWith session.config.home "/" = true)
    (hcwd : Path.IsNormal session.world.cwd) (node : Node) :
    (session.environment clock).absolute (suggestion "" ("~", node)) = (session.environment clock).absolute "~" := by
  obtain ⟨ending, hending, hsuggestion⟩ := exists_suggestion_eq "" ("~", node)
  rw [hsuggestion, String.empty_append]
  exact Environment.absolute_tilde hcwd hhome hending

/-- **What suggestions for a path stand for.** A session starts on a directory in which every name is plain, as in
`names_stay_plain`. After every run, a line has a command that takes paths for its first word and at least one more
word. At most ten entries are offered, the first of the directory that the last word names up to its last slash which
begin as the word does, and there is a suggestion for each. It begins as the word does, and ends in a slash if and only
if the entry is a directory. Typed in the same session, it stands for the entry. The one exception is an entry of the
current directory with the name `~`: the suggestion for it stands for the home. -/
theorem completions_stand_for_entries {root : Node} {config : Config} (hroot : root.isDirectory = true)
    (hconfig : config.validate = .ok config) (hordered : root.Ordered) (hplain : root.Plain) :
    ∃ session, start root config = .ok session ∧
      ∀ (inputs : List Input) (clock line command word : String) (between : List String),
        command ∈ ["cd", "ls", "cat", "rm", "cp", "mv", "touch", "mkdir"] →
        (line.toList.splitOn ' ').map String.ofList = command :: between ++ [word] →
        let here := session.after inputs
        let env := here.environment clock
        let typed := (splitWord word).1
        let begun := (splitWord word).2
        (typed ++ begun = word ∧ '/' ∉ begun.toList ∧ IsTyped typed) ∧
          here.complete line = (here.offered word).map (suggestion typed) ∧
          (here.offered word).length ≤ 10 ∧
          (∀ entries, here.world.tree.lookup (env.completionPath typed) = some (.directory entries) →
            here.offered word = (entries.filter fun entry => isSuggested begun entry.1).take 10) ∧
          ∀ entry ∈ here.offered word,
            let path := Path.join (env.completionPath typed) entry.1
            here.world.tree.lookup path = some entry.2 ∧
              word.toList <+: (suggestion typed entry).toList ∧
              ((suggestion typed entry).toList.getLast? = some '/' ↔ entry.2.isDirectory = true) ∧
              if typed = "" ∧ entry.1 = "~" then env.absolute (suggestion typed entry) = env.absolute "~"
              else env.absolute (suggestion typed entry) = path ∧
                env.resolve (suggestion typed entry) = some entry.2 := by
  obtain ⟨session, hstart, hregistry, hsettings, htree, hgrounded⟩ := start_eq hroot hconfig
  have hnames : session.world.tree.root = root := by rw [htree]
  rw [← hnames] at hordered hplain
  refine ⟨session, hstart, fun inputs clock line command word between hcommand hline => ?_⟩
  have hthere := after_grounded hregistry hgrounded inputs
  have hordered' := after_everywhere Filesystem.kept_ordered hregistry hgrounded hordered inputs
  have hplain' := after_everywhere Filesystem.kept_plain hregistry hgrounded hplain inputs
  have hhome : Text.startsWith (session.after inputs).config.home "/" = true := by
    rw [(after_registry session inputs).2, hsettings]
    exact Config.startsWith_home hconfig
  -- how the session came about does not matter from here on
  generalize session.after inputs = there at hthere hordered' hplain' hhome
  have hcwd := hthere.normal
  intro here env typed begun
  refine ⟨⟨splitWord_append word, slash_not_mem_splitWord word, isTyped_splitWord word⟩,
    (complete_eq hcommand hline).trans (completePath_eq there word), length_offered_le there word,
    fun entries hentries => offered_eq hhome hentries, fun entry hentry => ?_⟩
  obtain ⟨hname, hlookup⟩ := lookup_of_mem_offered clock hhome hcwd hordered' hplain' hentry
  refine ⟨hlookup, prefix_suggestion hentry, getLast?_suggestion hname _, ?_⟩
  by_cases hexception : typed = "" ∧ entry.1 = "~"
  · rw [if_pos hexception, hexception.1, show entry = ("~", entry.2) from Prod.ext hexception.2 rfl]
    exact absolute_suggestion_tilde hhome hcwd entry.2
  · rw [if_neg hexception]
    exact resolve_suggestion hhome hcwd hordered' hplain' hentry fun htyped htilde => hexception ⟨htyped, htilde⟩

/-- Half the name of a directory in the home is completed, and the suggestion leads into that directory. -/
theorem completions_stand_for_entries_home :
    let session : Session :=
      ⟨.standard, ⟨"/home/user", ⟨Node.teachingTree⟩, .initial .usual "/home/user"⟩, [], .usual⟩
    let main : Node := .file "#!/usr/bin/env python3\nprint(\"Hello, Linux!\")" none
    let projects : Node := .directory [("game", .directory [("main.py", main)])]
    let line := "cat notes ~/pro"
    let env := session.environment ""
    Node.teachingTree.isDirectory = true ∧ Config.usual.validate = .ok Config.usual ∧ Node.teachingTree.Ordered ∧
      Node.teachingTree.Plain ∧ "cat" ∈ ["cd", "ls", "cat", "rm", "cp", "mv", "touch", "mkdir"] ∧
      (line.toList.splitOn ' ').map String.ofList = ["cat", "notes", "~/pro"] ∧
      session.complete line = ["~/projects/"] ∧ env.absolute "~/projects/" = "/home/user/projects" ∧
      env.resolve "~/projects/" = some projects := by
  intro session main projects line env
  have hline : (line.toList.splitOn ' ').map String.ofList = ["cat", "notes", "~/pro"] := by decide
  have hstarts : start Node.teachingTree Config.usual = .ok session := rfl
  obtain ⟨other, hstart, hruns⟩ := @completions_stand_for_entries Node.teachingTree Config.usual rfl rfl
    Node.ordered_teachingTree Node.plain_teachingTree
  obtain rfl : session = other := Except.ok.inj (hstarts.symm.trans hstart)
  obtain ⟨-, hcomplete, -, -, hentries⟩ := hruns [] "" line "cat" "~/pro" ["notes"] (by decide) hline
  have hsplit : splitWord "~/pro" = ("~/", "pro") := by decide
  have hoffered : session.offered "~/pro" = [("projects", projects)] := by decide
  rw [after_nil, hoffered, hsplit] at hcomplete hentries
  obtain ⟨-, -, -, hstands⟩ := hentries ("projects", projects) (List.mem_singleton_self _)
  rw [if_neg (by decide)] at hstands
  refine ⟨rfl, rfl, Node.ordered_teachingTree, Node.plain_teachingTree, by decide, hline, hcomplete, ?_, hstands.2⟩
  rw [show "~/projects/" = suggestion "~/" ("projects", projects) from rfl, hstands.1]
  decide

/-- The one exception does occur: of a file with the name `~` in the home, what is suggested for it is the home. -/
theorem completion_misses_tilde :
    let file : Node := .file "x" none
    let home : Node := .directory [("~", file)]
    let root : Node := .directory [("home", .directory [("user", home)])]
    root.Plain ∧
      ∃ session, start root .usual = .ok session ∧ session.complete "cat ~" = ["~"] ∧
        (session.environment "").absolute "~" = "/home/user" ∧ (session.environment "").resolve "~" = some home ∧
        session.world.tree.lookup "/home/user/~" = some file := by
  intro file home root
  exact ⟨by decide, _, rfl, by decide, by decide, by decide, by decide⟩

end Session

end VirtualShell
