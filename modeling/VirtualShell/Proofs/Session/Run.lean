import VirtualShell.Proofs.Command.Edits
import VirtualShell.Session.Basic
import VirtualShell.Tree.Teaching

/-!
# Runs of a session

A run gives a session lines in turn, each at its own time. `Session.after` is the session after a run,
and `after_keeps` is the induction that every statement about runs goes through.

A world is `Grounded` if its current directory is a directory of its tree and is written in normal form.
A session starts grounded (`start_grounded`) and a line keeps it so (`step_grounded`). The check at the
end of a line is not enough for that: it puts back a directory that a command has moved from, and does
not ask whether that one is still there. That it is follows from `Obeys.edits`, which spares whatever is
in use.
-/

namespace VirtualShell

open Filesystem (Edits)

/-- A line, and the time at which it is entered. -/
structure Input where
  clock : String
  line : String

/-- The word of a line that says which command is called. -/
def Input.command (input : Input) : String :=
  (Text.words (Text.trim input.line)).headD ""

/-- The words of a line. -/
def Input.words (input : Input) : List String :=
  Text.words (Text.trim input.line)

/-- The current directory is one that the tree holds, in normal form. -/
structure World.Grounded (world : World) : Prop where
  normal : Path.IsNormal world.cwd
  directory : world.tree.entry world.cwd = .directory

namespace Session

/-- Carries out one line. -/
def feed (session : Session) (input : Input) : Session × Answer :=
  session.execute input.clock input.line

/-- The session after some lines. -/
def after (session : Session) (inputs : List Input) : Session :=
  inputs.foldl (fun session input => (session.feed input).1) session

/-- What a line does and answers: its words are called in the world of the session, the world settles, and
the result is shown. -/
theorem feed_eq (session : Session) (input : Input) :
    ∃ env : Environment, env.toWorld = session.world ∧ env.config = session.config ∧
      (session.feed input).1.world =
        settle session.world.cwd (session.registry.call env input.words).world ∧
      (session.feed input).2.output = shown (session.registry.call env input.words).result := by
  simp only [feed, execute]
  exact ⟨_, by rw [environment], by rw [environment], rfl, rfl⟩

/-- No line changes what can be called. -/
theorem feed_registry (session : Session) (input : Input) :
    (session.feed input).1.registry = session.registry := by
  simp only [feed, execute]

/-- No line changes the settings. -/
theorem feed_config (session : Session) (input : Input) :
    (session.feed input).1.config = session.config := by
  simp only [feed, execute]

/-- The answer names the directory in which the line left the session. -/
theorem feed_newDirectory (session : Session) (input : Input) :
    (session.feed input).2.newDirectory = (session.feed input).1.world.cwd := by
  simp only [feed, execute]

/-- A line that is not blank is remembered, whatever becomes of it. -/
theorem feed_history (session : Session) (input : Input) :
    (session.feed input).1.history =
      if Text.trim input.line = "" then session.history
      else remember session.config.historyLimit session.history (Text.trim input.line) := by
  simp only [feed, execute, String.isEmpty_iff]

theorem feed_eq_execute (session : Session) (input : Input) :
    session.feed input = session.execute input.clock input.line := rfl

/-- The surroundings in which a line is carried out; it is part of the history by then. -/
def surroundings (session : Session) (input : Input) : Environment :=
  { session.world with
    history := (session.feed input).1.history, config := session.config, clock := input.clock }

/-- What the words of a line come to, before the world settles. -/
def outcome (session : Session) (input : Input) : Outcome :=
  session.registry.call (session.surroundings input) input.words

/-- A line succeeds if what it calls gives a result and no failure. -/
def Succeeds (session : Session) (input : Input) : Prop :=
  (session.outcome input).result.isOk = true

instance (session : Session) (input : Input) : Decidable (session.Succeeds input) :=
  inferInstanceAs (Decidable (_ = true))

/-- The words of a line are called in its surroundings, and the world settles. -/
theorem feed_world (session : Session) (input : Input) :
    (session.feed input).1.world = settle session.world.cwd (session.outcome input).world := by
  simp only [outcome, surroundings, Input.words, feed, execute, environment, Registry.execute]

/-- The answer to a line shows what its words come to. -/
theorem feed_output (session : Session) (input : Input) :
    (session.feed input).2.output = shown (session.outcome input).result := by
  simp only [outcome, surroundings, Input.words, feed, execute, environment, Registry.execute]

-- from here on a line is known by the laws above; unfolding it would carry the command out
attribute [irreducible] feed

@[simp]
theorem after_nil (session : Session) : session.after [] = session := rfl

theorem after_cons (session : Session) (input : Input) (rest : List Input) :
    session.after (input :: rest) = (session.feed input).1.after rest := by
  rw [after, after, List.foldl_cons]

theorem after_concat (session : Session) (inputs : List Input) (input : Input) :
    session.after (inputs ++ [input]) = ((session.after inputs).feed input).1 := by
  rw [after, after, List.foldl_append, List.foldl_cons, List.foldl_nil]

/-- The answers to some lines, one for each. -/
def answers (session : Session) : List Input → List Answer
  | [] => []
  | input :: rest => (session.feed input).2 :: (session.feed input).1.answers rest

/-- What every line keeps, every run keeps. -/
theorem after_keeps {P : Session → Prop} {session : Session}
    (hstep : ∀ (session : Session) (input : Input), P session → P (session.feed input).1)
    (h : P session) (inputs : List Input) : P (session.after inputs) := by
  induction inputs generalizing session with
  | nil => exact h
  | cons input rest ih =>
    rw [after_cons]
    exact ih (hstep session input h)

/-! ## The start -/

/-- A session starts on every directory with every settings that have no fault. -/
theorem start_eq {root : Node} {config : Config} (hroot : root.isDirectory = true)
    (hconfig : config.validate = .ok config) :
    ∃ session, start root config = .ok session ∧ session.registry = .standard ∧
      session.config = config ∧ session.world.tree = ⟨root⟩ ∧ session.world.Grounded := by
  have htree : Filesystem.ofRoot root = .ok ⟨root⟩ := by rw [Filesystem.ofRoot, if_pos hroot]
  simp only [start, hconfig, htree, bind, Except.bind, pure, Except.pure]
  refine ⟨_, rfl, rfl, rfl, rfl, ?_, ?_⟩
  · dsimp only
    split
    next => exact Path.isNormal_normalize _
    next => exact Path.isNormal_root
  · dsimp only
    split
    next hhome => exact Filesystem.isDirectory_iff.1 hhome
    next => exact Filesystem.isDirectory_iff.1 hroot

/-! ## One line -/

section

variable {name : String} {env : Environment} {world : World}

/-- What is in use stays a directory. -/
theorem keeps_inUse (hobeys : Obeys name env world) (h : env.toWorld.Grounded) {path : String}
    (hpath : Path.IsNormal path) (huse : env.InUse path) : world.tree.entry path = .directory := by
  rw [Environment.InUse, Path.isWithin_iff_segments h.normal hpath] at huse
  refine hobeys.edits.keeps_directory (fun removed hremoved habove => ?_)
    (Filesystem.entry_eq_directory_upward h.directory huse)
  rw [Environment.InUse, Path.isWithin_iff_segments h.normal hremoved]
  exact habove.trans huse

/-- Settling changes no tree. -/
theorem settle_tree (cwd : String) (world : World) : (settle cwd world).tree = world.tree := by
  rw [settle]
  split <;> rfl

/-- A world whose directory has not moved settles as it is. -/
theorem settle_eq_self {cwd : String} {world : World} (h : world.cwd = cwd) :
    settle cwd world = world := by
  rw [settle, ← h]
  split <;> rfl

/-- If a line comes to another tree and nothing else, it leaves that. -/
theorem feed_world_of_edit {session : Session} {input : Input} {tree : Filesystem}
    (h : (session.outcome input).world = { session.world with tree := tree }) :
    (session.feed input).1.world = { session.world with tree := tree } := by
  rw [feed_world, h]
  exact settle_eq_self rfl

/-- A world settles in its own directory or in the one that the command began in, and both are there. -/
theorem settle_grounded (hobeys : Obeys name env world) (h : env.toWorld.Grounded) :
    (settle env.cwd world).tree = world.tree ∧ (settle env.cwd world).Grounded ∧
      (name ≠ "cd" → (settle env.cwd world).cwd = env.cwd) := by
  have hself : env.InUse env.cwd :=
    (Path.isWithin_iff_segments h.normal h.normal).2 List.prefix_rfl
  have hcwd := keeps_inUse hobeys h h.normal hself
  rw [settle]
  split
  next hthere =>
    refine ⟨rfl, ⟨?_, Filesystem.isDirectory_iff.1 hthere⟩, hobeys.stays⟩
    rcases hobeys.lands with hstays | ⟨hnormal, -⟩
    · rw [hstays]
      exact h.normal
    · exact hnormal
  next => exact ⟨rfl, ⟨h.normal, hcwd⟩, fun _ => rfl⟩

end

/-- What a line does to a session in a grounded world: it removes nothing that is in use, only `cd` moves
the current directory, and the world is grounded again. -/
theorem feed_grounded {session : Session} (hregistry : session.registry = .standard)
    (h : session.world.Grounded) (input : Input) :
    Edits (fun path => Path.isWithin session.world.cwd path = true)
        (Node.Available session.world.tree) session.world.tree (session.feed input).1.world.tree ∧
      (∀ path, Path.IsNormal path → Path.isWithin session.world.cwd path = true →
        (session.feed input).1.world.tree.entry path = .directory) ∧
      (input.command ≠ "cd" → (session.feed input).1.world.cwd = session.world.cwd) ∧
      (session.feed input).1.world.Grounded := by
  obtain ⟨env, henv, -, hworld, -⟩ := session.feed_eq input
  rw [hregistry] at hworld
  rw [← henv] at h hworld ⊢
  have hobeys := Registry.standard_call_obeys input.words h.normal h.directory
  obtain ⟨htree, hgrounded, hstays⟩ := settle_grounded hobeys h
  rw [hworld, htree]
  exact ⟨hobeys.edits, fun path => keeps_inUse hobeys h, hstays, hgrounded⟩

/-! ## Runs -/

/-- The commands of a session and its settings never change. -/
theorem after_registry (session : Session) (inputs : List Input) :
    (session.after inputs).registry = session.registry ∧
      (session.after inputs).config = session.config := by
  refine after_keeps (P := fun reached =>
    reached.registry = session.registry ∧ reached.config = session.config) ?_ ⟨rfl, rfl⟩ inputs
  intro reached input h
  rw [feed_registry, feed_config]
  exact h

/-- What every line keeps in a grounded world, every run that begins in one keeps. -/
theorem after_keeps_grounded {P : World → Prop} {session : Session}
    (hregistry : session.registry = .standard) (hgrounded : session.world.Grounded)
    (hstep : ∀ (session : Session) (input : Input), session.registry = .standard →
      session.world.Grounded → P session.world → P (session.feed input).1.world)
    (h : P session.world) (inputs : List Input) : P (session.after inputs).world := by
  have hall : (session.after inputs).registry = .standard ∧
      (session.after inputs).world.Grounded ∧ P (session.after inputs).world := by
    apply after_keeps (P := fun reached =>
      reached.registry = .standard ∧ reached.world.Grounded ∧ P reached.world) _
      ⟨hregistry, hgrounded, h⟩
    rintro reached input ⟨hreached, hthere, hP⟩
    obtain ⟨-, -, -, hnext⟩ := feed_grounded hreached hthere input
    exact ⟨(reached.feed_registry input).trans hreached, hnext,
      hstep reached input hreached hthere hP⟩
  exact hall.2.2

/-- A session is grounded after every run. -/
theorem after_grounded {session : Session} (hregistry : session.registry = .standard)
    (h : session.world.Grounded) (inputs : List Input) : (session.after inputs).world.Grounded := by
  apply after_keeps_grounded hregistry h _ h
  intro reached input hreached hthere _
  obtain ⟨-, -, -, hnext⟩ := feed_grounded hreached hthere input
  exact hnext

/-- **The current directory of a session is always there.** A session starts on every directory, with all
settings that have no fault. After the start and after every line of every run, the root is a
directory, the current directory is a normal path to a directory, and it is the one that the answer
names. A line removes neither the current directory nor one above it, whatever its words are: all of
them are still directories, and only `cd` leaves the current directory. -/
theorem current_directory_stays {root : Node} {config : Config} (hroot : root.isDirectory = true)
    (hconfig : config.validate = .ok config) :
    ∃ session, start root config = .ok session ∧
      ∀ inputs : List Input,
        (session.after inputs).world.tree.root.isDirectory = true ∧
        Path.IsNormal (session.after inputs).world.cwd ∧
        (session.after inputs).world.tree.isDirectory (session.after inputs).world.cwd = true ∧
        ∀ input : Input,
          let before := (session.after inputs).world
          let next := ((session.after inputs).feed input).1.world
          ((session.after inputs).feed input).2.newDirectory = next.cwd ∧
          next = (session.after (inputs ++ [input])).world ∧
          Edits (fun path => Path.isWithin before.cwd path = true) (Node.Available before.tree)
            before.tree next.tree ∧
          (∀ path, Path.IsNormal path → Path.isWithin before.cwd path = true →
            next.tree.isDirectory path = true) ∧
          (input.command ≠ "cd" → next.cwd = before.cwd) := by
  obtain ⟨session, hstart, hregistry, -, -, hgrounded⟩ := start_eq hroot hconfig
  refine ⟨session, hstart, fun inputs => ?_⟩
  have hthere := after_grounded hregistry hgrounded inputs
  refine ⟨Filesystem.root_isDirectory hthere.directory, hthere.normal,
    Filesystem.isDirectory_iff.2 hthere.directory, fun input => ?_⟩
  have hstandard := (after_registry session inputs).1.trans hregistry
  obtain ⟨hedits, hkept, hstays, -⟩ := feed_grounded hstandard hthere input
  refine ⟨feed_newDirectory _ input, ?_, hedits, fun path hpath hwithin => ?_, hstays⟩
  · rw [after, after, List.foldl_append, List.foldl_cons, List.foldl_nil]
  · exact Filesystem.isDirectory_iff.2 (hkept path hpath hwithin)

/-- The session that starts on the teaching tree with the usual settings, whatever lines follow. -/
theorem current_directory_stays_usual :
    Node.teachingTree.isDirectory = true ∧ Config.usual.validate = .ok Config.usual ∧
      ∃ session, start Node.teachingTree Config.usual = .ok session ∧
        ∀ inputs : List Input, (session.after inputs).world.tree.isDirectory
          (session.after inputs).world.cwd = true := by
  refine ⟨rfl, rfl, ?_⟩
  obtain ⟨session, hstart, hruns⟩ :=
    @current_directory_stays Node.teachingTree Config.usual rfl rfl
  exact ⟨session, hstart, fun inputs => (hruns inputs).2.2.1⟩

end Session

end VirtualShell
