import FilterLogic.CommandLine.Run

/-!
# The program

Reads the files that the arguments name and runs the command on their contents.
-/

open FilterLogic CommandLine

/-- The contents of a file, or why it cannot be read as text. -/
def readText (path : String) : IO (Except String String) := do
  try
    return .ok (← IO.FS.readFile path)
  catch e =>
    return .error (toString e)

def main (args : List String) : IO UInt32 := do
  let paths :=
    match readInvocation args with
    | .ok invocation => invocation.command.paths
    | .error _ => []
  let contents ← paths.mapM readText
  let known := paths.zip contents
  let outcome := run args
    { read := fun path => (List.lookup path known).getD (.error "not read")
      configReport := fun _ fault => fault.message
      jsonReport := fun _ _ => "not of the expected form" }
  let stdout ← IO.getStdout
  stdout.putStr outcome.output
  let stderr ← IO.getStderr
  stderr.putStr outcome.diagnostics
  return UInt32.ofNat outcome.exitCode
