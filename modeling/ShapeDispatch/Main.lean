import ShapeDispatch.Inspect.Run

/-!
The program: reads the file that the arguments name, runs, and prints what the run leaves behind.
-/

namespace ShapeDispatch.Inspect

/-- The text of the file that the arguments name, if it can be read. -/
def readNamed (arguments : List String) : IO (Option String) := do
  match requestOf arguments with
  | .run command =>
    match command.file? with
    | some path => try some <$> IO.FS.readFile path catch _ => pure none
    | none => pure none
  | _ => pure none

end ShapeDispatch.Inspect

open ShapeDispatch.Inspect in
def main (arguments : List String) : IO UInt32 := do
  let content ← readNamed arguments
  let outcome := run (fun _ => content) arguments
  IO.print outcome.output
  IO.eprint outcome.errorOutput
  pure (UInt32.ofNat outcome.exitCode)
