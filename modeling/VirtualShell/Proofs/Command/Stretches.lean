import Mathlib.Algebra.BigOperators.Group.List.Basic
import Mathlib.Algebra.GroupWithZero.Nat
import VirtualShell.Command.Arrangement
import VirtualShell.Proofs.Text.Lines

/-!
# Stretches of equal lines

Stretches with their lengths stand for lines. They encode lines if they are as long and as few as can be, which is to
say that none is empty and that no two neighbours have the same line. One more line lengthens the last stretch or
begins another one, and either way what was an encoding is one again (`Encodes.lengthen`, `Encodes.begin`). So
`stretches`, which takes the lines in turn, encodes them, and no other stretches do (`encodes_iff`). Without their
lengths they are the lines without those that repeat the one before them (`map_snd_stretches`).
-/

namespace VirtualShell.Command

/-- What it is for stretches to be the encoding of lines by lengths. -/
structure Encodes (runs : List (ℕ × String)) (lines : List String) : Prop where
  /-- Each line as often as its stretch is long, they are the lines. -/
  repeated : runs.flatMap (fun run => List.replicate run.1 run.2) = lines
  /-- No stretch is empty. -/
  pos : ∀ run ∈ runs, 1 ≤ run.1
  /-- Neighbours have different lines. -/
  apart : runs.IsChain fun run next => run.2 ≠ next.2

variable {runs before : List (ℕ × String)} {lines : List String} {line : String} {count : ℕ}

/-! ## One more line -/

theorem addLine_concat_self (before : List (ℕ × String)) (count : ℕ) (line : String) :
    addLine (before ++ [(count, line)]) line = before ++ [(count + 1, line)] := by
  rw [addLine, List.getLast?_concat, List.dropLast_concat]
  exact if_pos rfl

theorem addLine_of_ne (h : ∀ run ∈ runs.getLast?, run.2 ≠ line) : addLine runs line = runs ++ [(1, line)] := by
  rw [addLine]
  cases hlast : runs.getLast? with
  | none => rfl
  | some run =>
    rw [hlast] at h
    exact if_neg (h run rfl)

/-- A line lengthens the last stretch if that has the same line, and begins another one if not. -/
theorem addLine_cases (runs : List (ℕ × String)) (line : String) :
    (∃ before count, runs = before ++ [(count, line)] ∧ addLine runs line = before ++ [(count + 1, line)]) ∨
      (∀ run ∈ runs.getLast?, run.2 ≠ line) ∧ addLine runs line = runs ++ [(1, line)] := by
  by_cases h : ∀ run ∈ runs.getLast?, run.2 ≠ line
  · exact .inr ⟨h, addLine_of_ne h⟩
  · push Not at h
    obtain ⟨⟨count, last⟩, hlast, rfl⟩ := h
    obtain ⟨before, rfl⟩ := List.getLast?_eq_some_iff.1 hlast
    exact .inl ⟨before, count, rfl, addLine_concat_self before count last⟩

/-- The lines of the stretches get another one unless the last of them is the same. -/
theorem map_snd_addLine (runs : List (ℕ × String)) (line : String) :
    (addLine runs line).map Prod.snd =
      if (runs.map Prod.snd).getLast? = some line then runs.map Prod.snd else runs.map Prod.snd ++ [line] := by
  obtain ⟨before, count, rfl, hlonger⟩ | ⟨hother, hanother⟩ := addLine_cases runs line
  · rw [hlonger, List.map_append, List.map_append]
    exact (if_pos List.getLast?_concat).symm
  · rw [hanother, List.map_append, if_neg]
    · rfl
    · rw [List.getLast?_map, Option.map_eq_some_iff]
      rintro ⟨run, hlast, rfl⟩
      exact hother run hlast rfl

namespace Encodes

theorem nil : Encodes [] [] :=
  ⟨rfl, List.forall_mem_nil _, .nil⟩

/-- The line of the last stretch may stand once more behind it. -/
theorem lengthen (h : Encodes (before ++ [(count, line)]) lines) :
    Encodes (before ++ [(count + 1, line)]) (lines ++ [line]) where
  repeated := by
    rw [← h.repeated, List.flatMap_append, List.flatMap_append, List.flatMap_singleton, List.flatMap_singleton,
      List.replicate_succ', List.append_assoc]
  pos := List.forall_mem_append.2
    ⟨(List.forall_mem_append.1 h.pos).1, List.forall_mem_singleton.2 (Nat.le_add_left 1 count)⟩
  apart := by
    have happart := h.apart
    rw [List.isChain_append] at happart ⊢
    exact ⟨happart.1, .singleton _, fun run hrun _ hlast => by
      cases hlast
      exact happart.2.2 run hrun (count, line) rfl⟩

/-- Another line may stand behind the last stretch as a stretch of its own. -/
theorem begin (h : Encodes runs lines) (hline : ∀ run ∈ runs.getLast?, run.2 ≠ line) :
    Encodes (runs ++ [(1, line)]) (lines ++ [line]) where
  repeated := by
    rw [← h.repeated, List.flatMap_append]
    rfl
  pos := List.forall_mem_append.2 ⟨h.pos, List.forall_mem_singleton.2 (Nat.le_refl 1)⟩
  apart := List.isChain_append.2 ⟨h.apart, .singleton _, fun run hrun _ hlast => by
    cases hlast
    exact hline run hrun⟩

/-- The lengths add up to the number of lines. -/
theorem sum_counts (h : Encodes runs lines) : (runs.map Prod.fst).sum = lines.length := by
  rw [← h.repeated, List.length_flatMap]
  simp only [List.length_replicate]

end Encodes

/-! ## All lines -/

/-- The last line is added to the stretches of those before it. -/
theorem stretches_concat (lines : List String) (line : String) :
    stretches (lines ++ [line]) = addLine (stretches lines) line :=
  List.foldl_concat addLine [] line lines

/-- The stretches of lines encode them. -/
theorem encodes_stretches (lines : List String) : Encodes (stretches lines) lines := by
  induction lines using List.reverseRecOn with
  | nil => exact Encodes.nil
  | append_singleton lines line ih =>
    rw [stretches_concat]
    obtain ⟨before, count, hruns, hlonger⟩ | ⟨hother, hanother⟩ := addLine_cases (stretches lines) line
    · rw [hlonger]
      rw [hruns] at ih
      exact ih.lengthen
    · rw [hanother]
      exact ih.begin hother

/-- A line that is repeated behind lines that end with another one is a stretch of its own. -/
theorem stretches_append_replicate (h : ∀ run ∈ (stretches lines).getLast?, run.2 ≠ line) (count : ℕ) :
    stretches (lines ++ List.replicate (count + 1) line) = stretches lines ++ [(count + 1, line)] := by
  induction count with
  | zero => exact (stretches_concat lines line).trans (addLine_of_ne h)
  | succ count ih =>
    rw [List.replicate_succ', ← List.append_assoc, stretches_concat, ih]
    exact addLine_concat_self _ _ _

/-- What encodes lines are their stretches. -/
theorem Encodes.eq_stretches (h : Encodes runs lines) : runs = stretches lines := by
  induction runs using List.reverseRecOn generalizing lines with
  | nil =>
    rw [← h.repeated]
    rfl
  | append_singleton runs run ih =>
    obtain ⟨count, line⟩ := run
    obtain ⟨hpos, hlast⟩ := List.forall_mem_append.1 h.pos
    obtain ⟨hchain, -, hapart⟩ := List.isChain_append.1 h.apart
    have hruns := ih ⟨rfl, hpos, hchain⟩
    have hother : ∀ run ∈ runs.getLast?, run.2 ≠ line := fun run hrun => hapart run hrun (count, line) rfl
    obtain ⟨shorter, rfl⟩ : ∃ shorter, count = shorter + 1 :=
      Nat.exists_eq_add_of_le' (hlast (count, line) (List.mem_singleton_self _))
    rw [hruns] at hother
    rw [← h.repeated, List.flatMap_append, List.flatMap_singleton, stretches_append_replicate hother, ← hruns]

theorem encodes_iff : Encodes runs lines ↔ runs = stretches lines := by
  constructor
  · exact Encodes.eq_stretches
  · rintro rfl
    exact encodes_stretches lines

/-- The lines of the stretches are those that do not repeat the line before them. -/
theorem map_snd_stretches (lines : List String) :
    (stretches lines).map Prod.snd = lines.destutter (· ≠ ·) := by
  induction lines using List.reverseRecOn with
  | nil => rfl
  | append_singleton lines line ih =>
    rw [stretches_concat, map_snd_addLine, ih, Text.getLast?_destutter, Text.destutter_concat]

/-- **What `uniq` prints** of a file that can be read. The stretches of its lines, and no others, encode the lines:
each line as often as its stretch is long gives the lines in order, no stretch is empty, and no two neighbours have
the same line. The lengths add up to the number of lines. One line is printed for each stretch, behind its length if
that is asked for; otherwise what is printed are the lines but those that repeat the line before them, so that no
two neighbours are equal. -/
theorem uniq_prints_encoding {env : Environment} {args : List String} {file text : String} {mode : Option String}
    (hfile : (operandsOf args).head? = some file) (hread : env.resolve file = some (.file text mode)) :
    let lines := Text.lines text
    let runs := stretches lines
    (∀ others, Encodes others lines ↔ others = runs) ∧
      (runs.map Prod.fst).sum = lines.length ∧
      runs.map Prod.snd = lines.destutter (· ≠ ·) ∧ (runs.map Prod.snd).IsChain (· ≠ ·) ∧
      uniq.action.run env args = ⟨env.toWorld, .ok (.text (Text.unlines
        (if 'c' ∈ flagsOf args then runs.map fun run => Text.padLeft 7 (toString run.1) ++ " " ++ run.2
        else runs.map Prod.snd)))⟩ := by
  intro lines runs
  refine ⟨fun _ => encodes_iff, (encodes_stretches lines).sum_counts, map_snd_stretches lines, ?_, ?_⟩
  · rw [map_snd_stretches]
    exact List.isChain_destutter _ _
  · have hrun : runUniq env args = .ok (.text (Text.unlines (runs.map fun run =>
        if (flagsOf args).contains 'c' then Text.padLeft 7 (toString run.1) ++ " " ++ run.2 else run.2))) := by
      simp only [runUniq, hfile, readFile_of_resolve hread]
      rfl
    show Outcome.mk env.toWorld (runUniq env args) = _
    rw [hrun]
    by_cases hcounted : 'c' ∈ flagsOf args
    · simp [hcounted]
    · simp [hcounted]

/-- A line that comes again later has a stretch of its own there. -/
theorem uniq_prints_encoding_counted :
    let env : Environment :=
      { cwd := "/", tree := ⟨.directory [("f", .file "a\na\nb\na" none)]⟩, vars := .empty, history := [],
        config := .usual, clock := "" }
    (operandsOf ["f", "-c"]).head? = some "f" ∧ env.resolve "f" = some (.file "a\na\nb\na" none) ∧
      Encodes [(2, "a"), (1, "b"), (1, "a")] ["a", "a", "b", "a"] ∧
      uniq.action.run env ["f", "-c"] =
        ⟨env.toWorld, .ok (.text "      2 a\n      1 b\n      1 a")⟩ := by
  intro env
  have hfile : (operandsOf ["f", "-c"]).head? = some "f" := by decide
  have hread : env.resolve "f" = some (.file "a\na\nb\na" none) := by decide
  have hlines : Text.lines "a\na\nb\na" = ["a", "a", "b", "a"] := by decide
  have hruns : stretches ["a", "a", "b", "a"] = [(2, "a"), (1, "b"), (1, "a")] := by decide
  obtain ⟨hencodes, -, -, -, hrun⟩ := uniq_prints_encoding hfile hread
  rw [hlines, hruns] at hencodes hrun
  exact ⟨hfile, hread, (hencodes _).2 rfl, hrun⟩

end VirtualShell.Command
