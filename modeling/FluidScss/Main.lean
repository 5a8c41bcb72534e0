/-
FluidScss/Main.lean

The program.  It reads a snapshot of a project from standard input, carries
out the command line on it, and prints what came of it as one JSON object.
It touches no files; whoever calls it writes the changes.
-/
import FluidScss.Snapshot

namespace FluidScss

/-- What the program prints for a snapshot and a command line, and whether
it could be carried out. -/
def respond (input : Text) (line : List Text) : Text × Bool :=
  match Json.read? input with
  | .ok (.obj members) =>
    match Snapshot.run members line with
    | .ok report => (report.write .unicode, true)
    | .error fault => (fault.message, false)
  | .ok _ => ("a snapshot is a JSON object", false)
  | .error (.fault fault distance) => (fault.message input distance, false)
  | .error .oversize => ("a number has too many digits", false)

end FluidScss

/-- Reads a snapshot, carries out the command line and prints the report. -/
def main (arguments : List String) : IO UInt32 := do
  let input ← (← IO.getStdin).readToEnd
  let (output, done) := FluidScss.respond input.toList (arguments.map String.toList)
  if done then
    IO.println (String.ofList output)
    return 0
  else
    IO.eprintln (String.ofList output)
    return 2
