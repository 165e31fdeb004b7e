import Mathlib.Data.List.DropRight
import VirtualShell.Proofs.Config
import VirtualShell.Proofs.Result
import VirtualShell.Proofs.Session.Run
import VirtualShell.Proofs.Text.Lines

/-!
# The history of a session

A session compares each line with the last one that it remembers, and drops the oldest line when it
remembers too many. It has then forgotten the lines that it would need to see the whole run, and remembers
what one would who had seen it all: the lines of the run with neighbours that are equal collapsed
(`List.destutter`), and of these as many of the last ones as the limit allows (`List.rtake`). The two views
agree because the limit is not zero, so that the last line is never the one dropped
(`getLast?_rtake`).
-/

namespace VirtualShell

namespace Session

open Text (destutter_concat getLast?_destutter)

/-- The lines that a run enters: without the blanks around them, and without those that are only blank. -/
def entered (inputs : List Input) : List String :=
  (inputs.map fun input => Text.trim input.line).filter (· ≠ "")

theorem entered_concat (inputs : List Input) (input : Input) :
    entered (inputs ++ [input]) =
      if Text.trim input.line = "" then entered inputs
      else entered inputs ++ [Text.trim input.line] := by
  unfold entered
  rw [List.map_append, List.filter_append, List.map_singleton, List.filter_singleton]
  by_cases hblank : Text.trim input.line = ""
  · simp [hblank]
  · simp [hblank]

/-! ## Keeping the last ones -/

theorem getLast?_rtake {limit : Nat} (hlimit : 0 < limit) (lines : List String) :
    (lines.rtake limit).getLast? = lines.getLast? := by
  unfold List.rtake
  rw [List.getLast?_drop]
  split
  next hle =>
    have hempty : lines.length = 0 := by omega
    rw [List.length_eq_zero_iff.1 hempty, List.getLast?_nil]
  next => rfl

theorem rtake_rtake_succ (lines : List String) (limit : Nat) :
    (lines.rtake (limit + 1)).rtake limit = lines.rtake limit := by
  unfold List.rtake
  rw [List.drop_drop, List.length_drop]
  congr 1
  omega

/-- A line changes the history as if the lines of the whole run were still there. -/
theorem remember_rtake {limit : Nat} (hlimit : 0 < limit) (lines : List String) (line : String) :
    remember limit ((lines.destutter (· ≠ ·)).rtake limit) line =
      ((lines ++ [line]).destutter (· ≠ ·)).rtake limit := by
  unfold remember
  rw [getLast?_rtake hlimit, getLast?_destutter, destutter_concat]
  split
  next => rfl
  next =>
    -- the new line takes one of the places, so one line fewer is kept of those before it
    obtain ⟨kept, rfl⟩ : ∃ kept, limit = kept + 1 := ⟨limit - 1, by omega⟩
    show ((lines.destutter (· ≠ ·)).rtake (kept + 1) ++ [line]).rtake (kept + 1) = _
    rw [List.rtake_concat_succ, List.rtake_concat_succ, rtake_rtake_succ]

/-! ## Runs -/

theorem start_history {root : Node} {config : Config} {session : Session}
    (h : start root config = .ok session) : session.history = [] := by
  unfold start at h
  obtain ⟨checked, -, h⟩ := Result.bind_eq_ok_iff.1 h
  obtain ⟨tree, -, h⟩ := Result.bind_eq_ok_iff.1 h
  cases h
  rfl

/-- The history after a run that began without one. -/
theorem after_history {session : Session} (hfresh : session.history = [])
    (hlimit : 0 < session.config.historyLimit) (inputs : List Input) :
    (session.after inputs).history =
      ((entered inputs).destutter (· ≠ ·)).rtake session.config.historyLimit := by
  -- on the last line, since that is what a session sees of a run
  induction inputs using List.reverseRecOn with
  | nil =>
    rw [after_nil, hfresh, entered, List.map_nil, List.filter_nil, List.destutter_nil, List.rtake_nil]
  | append_singleton inputs input ih =>
    rw [after_concat, feed_history, (after_registry session inputs).2, ih, entered_concat]
    split
    next => rfl
    next => exact remember_rtake hlimit _ _

/-- **What a session remembers.** With settings that have no fault, a session remembers the lines that
were entered since its start, equal neighbours collapsed to one, and of these the last ones up to the limit.
So it never remembers more, no two neighbours are equal, and the last line is the last one entered. -/
theorem history_eq_rtake {root : Node} {config : Config} (hroot : root.isDirectory = true)
    (hconfig : config.validate = .ok config) :
    ∃ session, start root config = .ok session ∧
      ∀ inputs : List Input,
        let history := (session.after inputs).history
        history = ((entered inputs).destutter (· ≠ ·)).rtake config.historyLimit ∧
        history.length ≤ config.historyLimit ∧
        history.IsChain (· ≠ ·) ∧
        history.getLast? = (entered inputs).getLast? := by
  obtain ⟨session, hstart, -, hsettings, -⟩ := start_eq hroot hconfig
  have hlimit : 0 < config.historyLimit := Config.historyLimit_pos hconfig
  refine ⟨session, hstart, ?_⟩
  intro inputs history
  have hhistory : history = ((entered inputs).destutter (· ≠ ·)).rtake config.historyLimit := by
    rw [← hsettings] at hlimit ⊢
    exact after_history (start_history hstart) hlimit inputs
  refine ⟨hhistory, ?_, ?_, ?_⟩
  · rw [hhistory, List.rtake, List.length_drop]
    omega
  · rw [hhistory]
    exact (List.isChain_destutter _ _).suffix (List.drop_suffix _ _)
  · rw [hhistory, getLast?_rtake hlimit, getLast?_destutter]

/-- A history of two lines, after four lines of which two are equal neighbours and one is blank. -/
theorem history_eq_rtake_two :
    let config : Config := { Config.usual with historyLimit := 2 }
    Node.teachingTree.isDirectory = true ∧ config.validate = .ok config ∧
      ∃ session, start Node.teachingTree config = .ok session ∧
        (session.after [⟨"", "pwd"⟩, ⟨"", "ls -a"⟩, ⟨"", " ls -a "⟩, ⟨"", " "⟩, ⟨"", "date"⟩]).history =
          ["ls -a", "date"] := by
  intro config
  have hconfig : config.validate = .ok config := by
    show Config.validate { Config.usual with historyLimit := 2 } = _
    rfl
  obtain ⟨session, hstart, hruns⟩ := @history_eq_rtake Node.teachingTree config rfl hconfig
  refine ⟨rfl, hconfig, session, hstart, ?_⟩
  rw [(hruns _).1]
  decide

end Session

end VirtualShell
