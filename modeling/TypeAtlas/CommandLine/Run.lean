import TypeAtlas.CommandLine.Help
import TypeAtlas.Wire.Service
/-!
# Carrying out a command line

A run is a function of its command line and of what it finds outside: the texts of files, and the
servers that can be started. Its outcome is the text that it prints, or why it fails.
-/

namespace TypeAtlas

/-- How a run ends. -/
inductive Outcome where
  | success (output : String)
  | failure (failure : Failure)
  /-- The command line is refused. -/
  | refused (error : UsageError)
  deriving DecidableEq, Inhabited, Repr

namespace Outcome

/-- The outcome of something that can fail. -/
def ofExcept : Except Failure String → Outcome
  | .ok output => success output
  | .error reason => failure reason

/-- The exit code. -/
def code : Outcome → Nat
  | success _ => 0
  | failure _ => 1
  | refused _ => 2

/-- The text that is printed. -/
def output : Outcome → String
  | success text => text
  | _ => ""

/-- The first line of a text. -/
def firstLine (text : String) : String :=
  .ofList (text.toList.takeWhile (· != '\n'))

/-- The line that says why a run fails. -/
def errorLine? : Outcome → Option String
  | failure reason => some ("Error: " ++ firstLine reason.message)
  | _ => none

end Outcome

/-- What a run finds outside. -/
structure Surroundings where
  /-- The text of a file, if it can be read. -/
  fileText? : String → Option String
  /-- Whether a file is a server. -/
  isServer : String → Bool

namespace Surroundings

variable (s : Surroundings)

/-- The text of a snapshot file. -/
def snapshotText (path : String) : Except SnapshotError String :=
  match s.fileText? path with
  | some text => .ok text
  | none => .error (.read path)

/-- The program that arguments name. -/
def program (tree : TreeArguments) : Except Failure Program :=
  match (s.snapshotText tree.program).bind TypeGraph.loadText with
  | .ok graph => .ok ⟨graph, tree.config⟩
  | .error error =>
    .error ⟨"failed to load program snapshot " ++ tree.program, [error.message]⟩

/-- A server with a line of its own. It answers nothing if the line is refused or names no
program. -/
def server (words : List String) (line : String) : Option String :=
  match TreeArguments.ofWords words with
  | .error _ => none
  | .ok tree =>
    match s.program tree with
    | .error _ => none
    | .ok program => program.peer line

end Surroundings

/-- What there is when a location names nothing. -/
def Location.noSymbol (location : Location) : Failure :=
  ⟨"no symbol at " ++ location.display, []⟩

namespace Command

variable (s : Surroundings)

/-- The outline of the tree at a location, with the retriever that found it. -/
def outlineAt (retriever : Retriever) (location : Location) (expandDepth : UInt32) :
    Except Failure String := do
  match ← retriever location with
  | none => .error location.noSymbol
  | some tree => .ok (tree.outline (some retriever) { expandDepth })

/-- What a command prints. -/
def output : Command → Except Failure String
  | .inspect tree location expandDepth none => do
    let program ← s.program tree
    outlineAt program.retriever location expandDepth
  | .inspect tree location expandDepth (some server) =>
    if s.isServer server then
      outlineAt (Remote.retriever (s.server tree.words)) location expandDepth
    else .error ⟨"failed to start " ++ server, []⟩
  | .expand tree location => do
    let program ← s.program tree
    match (program.expandedAt location).1 with
    | none => .error location.noSymbol
    | some text => .ok (text ++ "\n")

end Command

namespace Surroundings

variable (s : Surroundings)

/-- A run of the explorer. -/
def run (words : List String) : Outcome :=
  match Command.ofWords words with
  | .ok command => .ofExcept (command.output s)
  | .error .help => .success (Command.helpFor words)
  | .error .version => .success (explorerName ++ " " ++ programVersion ++ "\n")
  | .error error => .refused error

/-- The start of the server: the program that it serves, or the outcome if it stops at once. -/
def startServer (words : List String) : Except Outcome Program :=
  match TreeArguments.ofWords words with
  | .ok tree => (s.program tree).mapError .failure
  | .error .help => .error (.success TreeArguments.serverHelp)
  | .error .version => .error (.success (serverName ++ " " ++ programVersion ++ "\n"))
  | .error error => .error (.refused error)

end Surroundings

end TypeAtlas
