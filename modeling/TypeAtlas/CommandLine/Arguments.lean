import TypeAtlas.CommandLine.Options
import TypeAtlas.Config
import TypeAtlas.Source.Position
/-!
# Commands

What the explorer and the server are told on the command line: the explorer has commands, each with
a program and a location, and the server has a program only.
-/

namespace TypeAtlas

/-- Which program, and how its trees are made. -/
structure TreeArguments where
  /-- The file with the snapshot of the program. -/
  program : String
  config : TreeConfig
  deriving DecidableEq, Inhabited, Repr

/-- A command and what it is told. -/
inductive Command where
  /-- Shows the tree at a location; the trees come from a server, if one is named. -/
  | inspect (tree : TreeArguments) (location : Location) (expandDepth : UInt32)
      (server : Option String)
  /-- Shows the merged type at a location. -/
  | expand (tree : TreeArguments) (location : Location)
  deriving DecidableEq, Inhabited, Repr

/-- The names of the commands. -/
inductive CommandName where
  | inspect
  | expand
  deriving DecidableEq, Inhabited, Repr

namespace CommandName

/-- The commands by name. -/
def names : List (String × CommandName) :=
  [("inspect", inspect), ("expand", expand)]

/-- The word that asks for help. -/
def helpWord : String := "help"

/-- Whether a word is a command or the word that asks for help. -/
def isKnown (word : String) : Bool :=
  word == helpWord || (names.lookup word).isSome

end CommandName

/-! ## Trees and locations -/

namespace TreeArguments

/-- The options of every program that makes trees. -/
def options : List OptionSpec :=
  [{ name := "program", kind := .path, required := true,
     about := "Program snapshot (JSON) to load" },
    { name := "max-depth", kind := .number,
      about := "Nodes deeper than this become `max depth` placeholders [default: 6]" },
    { name := "reference-defined-types", kind := .flag,
      about := "Emit declared classes, interfaces, enums and aliases below the root " ++
        "as references that are expanded on demand" }]

/-- The arguments on a line that was read. -/
def ofReading? (reading : Reading) : Option TreeArguments := do
  let program ← reading.text? "program"
  let maxDepth := (reading.number? "max-depth").getD ({} : TreeConfig).maxDepth
  some ⟨program, ⟨maxDepth, reading.has "reference-defined-types"⟩⟩

/-- The line that tells another program the same. -/
def words (tree : TreeArguments) : List String :=
  ["--program", tree.program, "--max-depth", toString tree.config.maxDepth.toNat] ++
    if tree.config.referenceDefinedTypes then ["--reference-defined-types"] else []

end TreeArguments

/-- The options that give a location. -/
def Location.options : List OptionSpec :=
  [{ name := "file", kind := .text, required := true },
    { name := "line", kind := .number, required := true },
    { name := "character", kind := .number, required := true }]

/-- The location on a line that was read. -/
def Location.ofReading? (reading : Reading) : Option Location := do
  let file ← reading.text? "file"
  let line ← reading.number? "line"
  some (.point file ⟨line, ← reading.number? "character"⟩)

/-! ## Commands -/

namespace CommandName

/-- The options of a command. -/
def usage : CommandName → Usage
  | inspect =>
    { options := TreeArguments.options ++ Location.options ++
        [{ name := "expand-depth", kind := .number,
           about := "How many levels below the root to expand [default: 3]" },
          { name := "server", kind := .path,
            about := "Fetch trees from a spawned `texplorer-server` " ++
              "instead of computing them in process" }] }
  | expand => { options := TreeArguments.options ++ Location.options }

/-- The command on a line that was read. -/
def command? (reading : Reading) : CommandName → Option Command
  | inspect => do
    let tree ← TreeArguments.ofReading? reading
    let location ← Location.ofReading? reading
    some (.inspect tree location ((reading.number? "expand-depth").getD 3) (reading.text? "server"))
  | expand => do
    let tree ← TreeArguments.ofReading? reading
    some (.expand tree (← Location.ofReading? reading))

/-- A command with the words after its name. -/
def read (name : CommandName) (words : List String) : Except UsageError Command := do
  let reading ← name.usage.read words
  match name.command? reading with
  | some command => .ok command
  | none => .error .missingOption

end CommandName

namespace Command

/-- The questions that can stand in the place of a command. -/
def usage : Usage := { options := [], hasVersion := true }

/-- What is wrong with a line that asks for help in words. -/
def helpError : List String → UsageError
  | [] => .help
  | [word] => if CommandName.isKnown word then .help else .invalidCommand
  | _ => .invalidCommand

/-- The command on a line, without the name of the program. -/
def ofWords : List String → Except UsageError Command
  | [] => .error .missingCommand
  | word :: rest =>
    match Word.ofText word with
    | .separator =>
      match rest with
      | [] => .error .missingCommand
      | word :: _ => .error (if CommandName.isKnown word then .unknownWord else .invalidCommand)
    | .long name value =>
      match usage.long {} name value with
      | .error error => .error error
      | .ok _ => .error .unknownWord
    | .short letter => .error (usage.short {} letter)
    | .plain word =>
      if word == CommandName.helpWord then .error (helpError rest)
      else
        match CommandName.names.lookup word with
        | some name => name.read rest
        | none => .error .invalidCommand

end Command

namespace TreeArguments

/-- The options of the server. -/
def serverUsage : Usage := { options, hasVersion := true }

/-- The arguments of the server on a line, without the name of the program. -/
def ofWords (words : List String) : Except UsageError TreeArguments := do
  let reading ← serverUsage.read words
  match ofReading? reading with
  | some tree => .ok tree
  | none => .error .missingOption

end TreeArguments

end TypeAtlas
