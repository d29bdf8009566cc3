import Reckon.CommandLine

/-!
The program: writes what `Reckon.Command.run` computes, a session line by
line as it comes in.
-/

namespace Reckon

/-- Shows a line where it belongs: values on standard output, errors on standard
error. -/
def Line.print : Line → IO Unit
  | value text => do
      IO.println text
      (← IO.getStdout).flush
  | failure text => IO.eprintln text

/-- Holds a session on a stream. -/
partial def converseOn (input : IO.FS.Stream) (vars : Variables) : IO Unit := do
  let line ← input.getLine
  if line.isEmpty then
    return
  match react line.toList vars with
  | .ends => return
  | .goesOn shown after =>
      shown.forM Line.print
      converseOn input after

end Reckon

open Reckon in
/-- Runs the program. -/
def main (arguments : List String) : IO UInt32 := do
  match Command.ofArguments arguments with
  | .error e =>
      IO.eprintln s!"error: {e.message}"
      return usageExit.toUInt32
  | .ok .converse => do
      converseOn (← IO.getStdin) .empty
      return 0
  | .ok command => do
      let run := command.run ""
      IO.print run.output
      IO.eprint run.errors
      return run.exit.toUInt32
