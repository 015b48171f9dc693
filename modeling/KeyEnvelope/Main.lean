import KeyEnvelope.Walkthrough

/-!
# The command

Runs the walk through the library with the settings of the environment and a random
seed, and prints its lines.
-/

/-- Prints the walk; a failure goes to standard error and makes the exit status one. -/
def main : IO UInt32 := do
  let environment ← KeyEnvelope.Settings.readEnvironment fun name => do
    return (← IO.getEnv name).map KeyEnvelope.Utf8.encode
  let seed ← IO.getRandomBytes 32
  let (lines, failure) := KeyEnvelope.Walkthrough.transcript environment seed.data.toList
  for line in lines do
    IO.println line
  match failure with
  | none => return 0
  | some report =>
    IO.eprintln report
    return 1
