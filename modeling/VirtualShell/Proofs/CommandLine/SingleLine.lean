import VirtualShell.CommandLine.Run
import VirtualShell.Proofs.CommandLine.Arguments
import VirtualShell.Proofs.Text.Lines

/-!
# A single line

One line can be given to a run by an option or as its input, and both runs report the same
(`command_eq_input`). The line is the only one of the input. It may have lost a carriage return at its end, but
a session trims what it is given and does not notice (`carryOut_withCommand`).
-/

namespace VirtualShell

/-- A session sees a line only through what is left of it when it is trimmed. -/
theorem Session.execute_eq_of_trim (session : Session) (clock : String) {line line' : String}
    (h : Text.trim line = Text.trim line') :
    session.execute clock line = session.execute clock line' := by
  simp only [execute, h]

namespace CommandLine

/-- The lines that are carried out where one line is the input. -/
theorem linesToExit_line {line : String} (hline : '\n' ∉ line.toList) (hexit : Text.trim line ≠ "exit") :
    ∃ line', linesToExit (Text.lines (line ++ "\n")) = [line'] ∧ Text.trim line' = Text.trim line := by
  have htrim := Text.trim_dropReturn line.toList
  rw [String.ofList_toList] at htrim
  refine ⟨String.ofList (Text.dropReturn line.toList), ?_, htrim⟩
  rw [Text.lines_newline hline, linesToExit,
    List.takeWhile_cons_of_pos (by rw [htrim]; exact decide_eq_true hexit), List.takeWhile_nil]

/-- A run carries a line out in the same way if it is asked for it and if it finds it in the input. -/
theorem carryOut_withCommand {options : Options} {line : String} (hnone : options.command = none)
    (hline : '\n' ∉ line.toList) (hexit : Text.trim line ≠ "exit") (around : Surroundings) :
    carryOut (options.withCommand (some line)) around =
      carryOut options { around with input := line ++ "\n" } := by
  obtain ⟨line', hlines, htrim⟩ := linesToExit_line hline hexit
  have hasked : linesOf (options.withCommand (some line)) around.input = [line] := rfl
  have hfound : linesOf options (line ++ "\n") = [line'] := by rw [linesOf, hnone]; exact hlines
  have hstart : startSession (options.withCommand (some line)) around.read =
      startSession options around.read := rfl
  have hconverse : ∀ session, converse around.clock options.json session [line] =
      converse around.clock options.json session [line'] := by
    intro session
    simp only [converse, session.execute_eq_of_trim around.clock htrim]
  simp only [carryOut, hasked, hfound, hstart]
  cases startSession options around.read with
  | error failure => rfl
  | ok session =>
    have hjson : (options.withCommand (some line)).json = options.json := rfl
    have hdump : (options.withCommand (some line)).dump = options.dump := rfl
    simp only [hjson, hdump, hconverse]

/-- **One line by an option or as the input.** Arguments ask for anything but for a line, and the option for
the line is put anywhere among them where an option may stand. The run with the option reports the same as
the run without it that has the line for its input: the same exit code, the same output and the same
complaint, whatever files there are, and also where the arguments are wrong or the run cannot start. -/
theorem command_eq_input {before after : List String} {line : String} (hbefore : TakesOption before)
    (hnone : ∀ arg ∈ before ++ after, (Argument.ofText arg).isCommand = false)
    (hline : '\n' ∉ line.toList) (hexit : Text.trim line ≠ "exit") (around : Surroundings) :
    run around (before ++ ("--command=" ++ line) :: after) =
      run { around with input := line ++ "\n" } (before ++ after) := by
  rw [run, run, ofArguments_insert hbefore hnone]
  cases hread : Request.ofArguments (before ++ after) with
  | help => rfl
  | version => rfl
  | mistake => rfl
  | run options =>
    have hoptions : options.command = none := command_of_readArguments hnone hread
    exact carryOut_withCommand hoptions hline hexit around

/-- A line between blanks, of which the last is a carriage return, among switches. -/
theorem command_eq_input_return :
    let around : Surroundings := ⟨fun _ => none, "cd /\nexit\n", "noon"⟩
    let line := " cat .bashrc\t\r"
    run around (["--json"] ++ ("--command=" ++ line) :: ["--dump"]) =
      run { around with input := line ++ "\n" } (["--json"] ++ ["--dump"]) := by
  intro around line
  have hbefore : TakesOption ["--json"] := by
    refine ⟨by decide, fun arg harg => ?_⟩
    cases harg
    rfl
  have hnone : ∀ arg ∈ ["--json"] ++ ["--dump"], (Argument.ofText arg).isCommand = false := by decide
  have hline : '\n' ∉ line.toList := by decide
  have hexit : Text.trim line ≠ "exit" := by decide
  exact command_eq_input hbefore hnone hline hexit around

end CommandLine

end VirtualShell
