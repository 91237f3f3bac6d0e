import SharedValues.Runner

/-!
# The command

Prints and writes what the runner's plan says.
-/

open SharedValues

/-- Runs the command on its arguments. -/
def main (arguments : List String) : IO UInt32 := do
  let plan := Runner.plan arguments
  IO.print plan.output
  if plan.code = 2 then
    IO.eprintln "error: the arguments are not understood; see --help"
  match plan.file with
  | none => return plan.code
  | some (path, content) =>
    try
      IO.FS.writeFile path content
      return plan.code
    catch e =>
      IO.eprintln ("Error: " ++ e.toString)
      return Runner.unwritten
