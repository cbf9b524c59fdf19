import Reckoner.Session

/-!
# The program

Gives a run its arguments, the environment, the files and the standard input, and writes what the
run reports.
-/

namespace Reckoner

/-- All that is left of a stream. -/
partial def readAll (stream : IO.FS.Stream) (text : String) : IO String := do
  let line ← stream.getLine
  if line.isEmpty then return text else readAll stream (text ++ line)

/-- The world as a host: a file that cannot be read has no text. -/
def systemHost : Host IO where
  lookup? := fun name => IO.getEnv name
  file? := fun path => do
    try return some (← IO.FS.readFile path) catch _ => return none
  input := do readAll (← IO.getStdin) ""

end Reckoner

open Reckoner

/-- Answer the question on the command line, or those on the standard input. -/
def main (arguments : List String) : IO UInt32 := do
  match ← Session.run systemHost arguments with
  | .error refusal =>
    IO.eprintln (errorLine refusal.message)
    return 2
  | .ok report =>
    IO.print report.output
    IO.eprint report.errors
    return report.code.toUInt32
