import TypeAtlas.CommandLine.Run
/-!
# The programs

Started under the name of the server, the program serves requests from its input; otherwise it
carries out one command.
-/

namespace TypeAtlas.Main

/-- The text of a file, if it can be read. -/
def readFile? (path : String) : IO (Option String) := do
  try
    return some (← IO.FS.readFile path)
  catch _ =>
    return none

/-- The files that a command may need. -/
def filesOf (words : List String) : List String :=
  match Command.ofWords words with
  | .ok (.inspect tree _ _ server) => tree.program :: server.toList
  | .ok (.expand tree _) => [tree.program]
  | .error _ => ((TreeArguments.ofWords words).toOption.map (·.program)).toList

/-- Reads what a command may need. A server is served in this process. -/
def surroundings (words : List String) : IO Surroundings := do
  let texts ← (filesOf words).mapM fun path => do return (path, ← readFile? path)
  let fileText? (path : String) : Option String := (texts.lookup path).join
  return { fileText?, isServer := fun path => (fileText? path).isSome }

/-- Prints the end of a run. -/
def finish (outcome : Outcome) : IO UInt32 := do
  IO.print outcome.output
  match outcome with
  | .failure reason =>
    IO.eprintln ("Error: " ++ reason.message)
    reason.causes.forM fun cause => IO.eprintln ("  caused by: " ++ cause)
  | .refused _ => IO.eprintln "error: the command line is not understood; try --help"
  | .success _ => pure ()
  return UInt32.ofNat outcome.code

/-- Writes what an endpoint sends. -/
def send (occasions : List (Occasion Unit)) : IO Unit := do
  let stdout ← IO.getStdout
  (occasions.filterMap Occasion.envelope?).forM fun envelope => do
    stdout.putStrLn envelope.line
    stdout.flush

/-- Serves until the input ends. -/
partial def serve (e : Endpoint Program Unit) : IO Unit := do
  let bytes ← (← IO.getStdin).read 65536
  if bytes.isEmpty then send e.close.1
  else
    let (occasions, e) := e.push bytes.toList
    send occasions
    unless e.connection.closed do serve e

end TypeAtlas.Main

open TypeAtlas in
/-- Carries out the command line. -/
def main (words : List String) : IO UInt32 := do
  let surroundings ← Main.surroundings words
  if (← IO.appPath).fileName == some serverName then
    match surroundings.startServer words with
    | .error outcome => Main.finish outcome
    | .ok program =>
      Main.serve program.endpoint
      return 0
  else
    Main.finish (surroundings.run words)
