import FilterSql.Command

/-!
The program `filterql`: prints what its command gives.
-/

/-- Runs the command of the arguments and prints its outcome. -/
def main (args : List String) : IO UInt32 := do
  let outcome := FilterSql.Command.runArgs args
  (← IO.getStdout).putStr outcome.stdout
  (← IO.getStderr).putStr outcome.stderr
  return outcome.exit
