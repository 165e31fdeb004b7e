import VirtualShell.CommandLine.Run
import VirtualShell.Proofs.Config
import VirtualShell.Proofs.Json.Reading
import VirtualShell.Proofs.Session.Run
import VirtualShell.Proofs.Tree.Loading

/-!
# Conversations

A run of the program is a run of one session: it gives the session the lines of the input up to the one that
ends the conversation, and puts out what is written for each answer (`converse_eq`). In JSON every answer is
written on a line of its own, whatever it holds, so the output can be cut into lines again and every line
read (`Transcript`). A run starts whenever its settings and its tree could be loaded (`startSession_eq`).
-/

namespace VirtualShell

namespace Answer

private theorem textual_toJson (answer : Answer) : answer.toJson.Textual := by
  simp [toJson, Json.text, Json.Textual, Json.TextualMembers]

/-- An answer is written on one line. -/
theorem oneLine_compact (answer : Answer) : Json.OneLine answer.toJson.compact :=
  Json.oneLine_compact answer.toJson answer.textual_toJson

/-- What is written for an answer is read as the answer. -/
theorem parse?_compact (answer : Answer) :
    Json.parse? answer.toJson.compact = some answer.toJson := by
  have hdistinct : answer.toJson.Distinct := by
    simp [toJson, Json.text, Json.Distinct, Json.DistinctMembers, Entries.names]
  have hnesting : Json.nesting answer.toJson ≤ Json.Reading.deepest := by
    simp [toJson, Json.text, Json.nesting, Json.nestingOfMembers, Json.Reading.deepest]
  rw [Json.parse?_compact answer.textual_toJson hdistinct, if_pos hnesting]

end Answer

namespace CommandLine

/-! ## The start -/

/-- Settings that were loaded have no fault. -/
theorem validate_of_loadConfig {read : String → Option String} {file : Option String} {config : Config}
    (h : loadConfig read file = .ok config) : config.validate = .ok config := by
  rw [loadConfig.eq_def] at h
  split at h
  next =>
    cases h
    rfl
  next name =>
    split at h
    next => cases h
    next text _ =>
      rw [Result.mapError_eq_ok_iff, Config.ofToml] at h
      split at h
      next found _ =>
        obtain rfl := Config.eq_of_validate h
        exact h
      next => cases h

/-- A tree that was loaded has a directory as its root. -/
theorem isDirectory_of_loadSeed {read : String → Option String} {file : Option String} {seed : Node}
    (h : loadSeed read file = .ok seed) : seed.isDirectory = true := by
  rw [loadSeed.eq_def] at h
  split at h
  next =>
    cases h
    rfl
  next name =>
    split at h
    next => cases h
    next text _ =>
      rw [Result.mapError_eq_ok_iff, Node.ofDocument_eq_ok_iff] at h
      obtain ⟨_, _, -, -, -, hdirectory⟩ := h
      exact hdirectory

/-- What was loaded can be started from. -/
theorem startSession_eq {options : Options} {read : String → Option String} {config : Config}
    {seed : Node} (hconfig : loadConfig read options.config = .ok config)
    (hseed : loadSeed read options.seed = .ok seed) :
    ∃ session, startSession options read = .ok session ∧ Session.start seed config = .ok session := by
  obtain ⟨session, hstart, -⟩ :=
    Session.start_eq (isDirectory_of_loadSeed hseed) (validate_of_loadConfig hconfig)
  refine ⟨session, ?_, hstart⟩
  rw [startSession, hconfig, hseed]
  exact Result.mapError_eq_ok_iff.2 hstart

/-! ## The lines -/

/-- Lines that are entered at one time. -/
def inputsAt (clock : String) (lines : List String) : List Input :=
  lines.map (Input.mk clock)

theorem converse_cons (clock : String) (json : Bool) (session : Session) (line : String)
    (rest : List String) :
    converse clock json session (line :: rest) =
      ((converse clock json (session.feed ⟨clock, line⟩).1 rest).1,
        written json (session.feed ⟨clock, line⟩).2 ++
          (converse clock json (session.feed ⟨clock, line⟩).1 rest).2) := by
  rw [Session.feed_eq_execute]
  rfl

/-- A conversation is a run of the session, and puts out what is written for each answer. -/
theorem converse_eq (clock : String) (json : Bool) (session : Session) (lines : List String) :
    converse clock json session lines =
      (session.after (inputsAt clock lines),
        String.join ((session.answers (inputsAt clock lines)).map (written json))) := by
  induction lines generalizing session with
  | nil => rfl
  | cons line rest ih =>
    have hinputs : inputsAt clock (line :: rest) = ⟨clock, line⟩ :: inputsAt clock rest := rfl
    rw [converse_cons, ih, hinputs, Session.after_cons, Session.answers, List.map_cons,
      String.join_cons]

/-- The lines up to the one that ends a conversation: none of them ends it, and the next one does. -/
theorem linesToExit_split (lines : List String) :
    ∃ behind, lines = linesToExit lines ++ behind ∧
      (∀ line ∈ linesToExit lines, Text.trim line ≠ "exit") ∧
      ∀ line ∈ behind.head?, Text.trim line = "exit" := by
  refine ⟨lines.dropWhile fun line => Text.trim line ≠ "exit", ?_, ?_, ?_⟩
  · exact List.takeWhile_append_dropWhile.symm
  · intro line hline
    exact of_decide_eq_true (List.all_eq_true.1 List.all_takeWhile line hline)
  · intro line hline
    have hhead := List.head?_dropWhile_not (fun line => decide (Text.trim line ≠ "exit")) lines
    rw [Option.mem_def.1 hline] at hhead
    exact not_not.1 (of_decide_eq_false hhead)

/-- A run that starts, and is asked neither for one command nor for the tree, puts out what is written for
the answers to the lines that it carries out. -/
theorem carryOut_eq {options : Options} {around : Surroundings} {session : Session}
    (hsession : startSession options around.read = .ok session) (hcommand : options.command = none)
    (hdump : options.dump = false) :
    carryOut options around =
      { exitCode := 0
        output := String.join ((session.answers
          (inputsAt around.clock (linesToExit (Text.lines around.input)))).map
            (written options.json)) } := by
  have hlines : linesOf options around.input = linesToExit (Text.lines around.input) := by
    rw [linesOf, hcommand]
  have hoff : ¬ options.dump = true := by simp [hdump]
  simp only [carryOut, hsession, hlines, converse_eq, if_neg hoff, String.append_empty]

/-! ## The output -/

/-- The output has one line for each answer, and from the line the answer is read. -/
def Transcript (answers : List Answer) (output : String) : Prop :=
  ∃ printed : List String, output = String.join (printed.map (· ++ "\n")) ∧
    (∀ line ∈ printed, '\n' ∉ line.toList) ∧
    printed.map Json.parse? = answers.map fun answer =>
      some (.object [("output", .text answer.output), ("newDirectory", .text answer.newDirectory)])

/-- What is written in JSON is a transcript. -/
theorem transcript_written (answers : List Answer) :
    Transcript answers (String.join (answers.map (written true))) := by
  refine ⟨answers.map fun answer => answer.toJson.compact, ?_, ?_, ?_⟩
  · rw [List.map_map]
    rfl
  · intro line hline
    obtain ⟨answer, -, rfl⟩ := List.mem_map.1 hline
    exact answer.oneLine_compact.newline_not_mem
  · rw [List.map_map]
    exact List.map_congr_left fun answer _ => answer.parse?_compact

/-- **A run in JSON puts out one line for each line of the input.** The arguments ask for JSON, and neither
for one command nor for the tree, and the settings and the tree can be loaded. Then the run succeeds. The
lines of the input that it carries out are those before the first one that is `exit` between blanks, or all
of them. Its output is a transcript of the answers that one session gives to these lines in order: a line of
text for each of them, in which the output and the new directory of the answer are found again exactly. -/
theorem json_transcript {around : Surroundings} {args : List String} {options : Options}
    (hargs : Request.ofArguments args = .run options) (hjson : options.json = true)
    (hcommand : options.command = none) (hdump : options.dump = false) {config : Config} {seed : Node}
    (hconfig : loadConfig around.read options.config = .ok config)
    (hseed : loadSeed around.read options.seed = .ok seed) :
    ∃ session before behind output, Session.start seed config = .ok session ∧
      Text.lines around.input = before ++ behind ∧
      (∀ line ∈ before, Text.trim line ≠ "exit") ∧
      (∀ line ∈ behind.head?, Text.trim line = "exit") ∧
      run around args = { exitCode := 0, output } ∧
      Transcript (session.answers (inputsAt around.clock before)) output := by
  obtain ⟨session, hsession, hstart⟩ := startSession_eq hconfig hseed
  obtain ⟨behind, hlines, hbefore, hbehind⟩ := linesToExit_split (Text.lines around.input)
  refine ⟨session, _, behind, _, hstart, hlines, hbefore, hbehind, ?_, transcript_written _⟩
  rw [run, hargs, ← hjson]
  exact carryOut_eq hsession hcommand hdump

/-- A run on lines of which one goes up, one prints a quotation mark, and one ends the conversation. -/
theorem json_transcript_exit :
    let around : Surroundings := ⟨fun _ => none, "cd ..\necho \"a\n exit \nls", "noon"⟩
    let options : Options := { json := true }
    Request.ofArguments ["--json"] = .run options ∧ options.json = true ∧ options.command = none ∧
      options.dump = false ∧ loadConfig around.read options.config = .ok Config.usual ∧
      loadSeed around.read options.seed = .ok Node.teachingTree ∧
      ∃ session before behind output, Session.start Node.teachingTree Config.usual = .ok session ∧
        Text.lines around.input = before ++ behind ∧
        (∀ line ∈ before, Text.trim line ≠ "exit") ∧
        (∀ line ∈ behind.head?, Text.trim line = "exit") ∧
        run around ["--json"] = { exitCode := 0, output } ∧
        Transcript (session.answers (inputsAt around.clock before)) output := by
  refine ⟨rfl, rfl, rfl, rfl, rfl, rfl, ?_⟩
  exact @json_transcript _ ["--json"] { json := true } rfl rfl rfl rfl Config.usual
    Node.teachingTree rfl rfl

end CommandLine

end VirtualShell
