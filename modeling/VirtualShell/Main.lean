import Std.Time.DateTime.Timestamp
import VirtualShell.Clock
import VirtualShell.CommandLine.Run

/-!
# The program

Reads the files that the arguments name and the input, runs, and puts the report out.
-/

namespace VirtualShell.Main

/-- All that is left of a stream. -/
partial def readAll (stream : IO.FS.Stream) (before : String) : IO String := do
  let line ← stream.getLine
  if line.isEmpty then return before else readAll stream (before ++ line)

/-- The text of a file, if it can be read. -/
def readFile? (file : String) : IO (Option String) := do
  try return some (← IO.FS.readFile file)
  catch _ => return none

/-- The files that the arguments name, with their texts. -/
def readNamed (options : CommandLine.Options) : IO (List (String × Option String)) :=
  (options.config.toList ++ options.seed.toList).mapM fun file => do
    return (file, ← readFile? file)

/-- What a run with these arguments is given. -/
def surroundings (request : CommandLine.Request) : IO CommandLine.Surroundings := do
  let seconds := (← Std.Time.Timestamp.now).toSecondsSinceUnixEpoch.val.toNat
  let clock := Clock.text seconds
  match request with
  | .run options =>
    let files ← readNamed options
    let input ← if options.command.isSome then pure "" else readAll (← IO.getStdin) ""
    return ⟨fun file => (files.lookup file).bind id, input, clock⟩
  | _ => return ⟨fun _ => none, "", clock⟩

end VirtualShell.Main

/-- Runs the program with the arguments it was called with. -/
def main (args : List String) : IO UInt32 := do
  let around ← VirtualShell.Main.surroundings (VirtualShell.CommandLine.Request.ofArguments args)
  let report := VirtualShell.CommandLine.run around args
  IO.print report.output
  match report.complaint with
  | some complaint => IO.eprintln complaint
  | none => pure ()
  return report.exitCode.toUInt32
