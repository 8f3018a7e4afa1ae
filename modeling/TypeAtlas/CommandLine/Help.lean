import TypeAtlas.CommandLine.Arguments
/-!
# Help texts

What the programs print when they are asked for help or for their version.
-/

namespace TypeAtlas

/-- The name of the explorer. -/
def explorerName : String := "texplorer"

/-- The name of the server. -/
def serverName : String := "texplorer-server"

/-- The version of both programs. -/
def programVersion : String := "0.1.0"

namespace OptionSpec

/-- The word that stands for the value of an option. -/
def valueName (option : OptionSpec) : String :=
  option.name.map fun c => if c = '-' then '_' else c.toUpper

/-- How the option is written. -/
def form (option : OptionSpec) : String :=
  match option.kind with
  | .flag => "--" ++ option.name
  | _ => "--" ++ option.name ++ " <" ++ option.valueName ++ ">"

end OptionSpec

namespace Help

/-- A list in two columns, what is written and what it is about. The second column stands after the
longest entry of the first. -/
def columns (entries : List (String × String)) : String :=
  let width := (entries.map (·.1.length)).foldl max 0
  String.join (entries.map fun (form, about) =>
    "  " ++ form.pushn ' ' (width - form.length) ++ "  " ++ about ++ "\n")

/-- The options that have a letter, for help and for the version. -/
def questions (hasVersion : Bool) : List (String × String) :=
  ("-h, --help", "Print help") ::
    if hasVersion then [("-V, --version", "Print version")] else []

/-- The help for a command: what it does, how it is used, and lists under headings. -/
def page (about usage : String) (lists : List (String × List (String × String))) : String :=
  about ++ "\n\nUsage: " ++ usage ++ "\n" ++
    String.join (lists.map fun (heading, entries) => "\n" ++ heading ++ ":\n" ++ columns entries)

end Help

/-- The help for a command with options. -/
def Usage.help (usage : Usage) (name about : String) : String :=
  let required := (usage.options.filter (·.required)).map fun option => " " ++ option.form
  Help.page about (name ++ " [OPTIONS]" ++ String.join required)
    [("Options", usage.options.map (fun option => ("    " ++ option.form, option.about)) ++
      Help.questions usage.hasVersion)]

namespace CommandName

/-- What a command does. -/
def about : CommandName → String
  | inspect => "Print the type tree of the symbol at a location"
  | expand => "Print the intersection-merged type of the symbol at a location"

/-- What the word that asks for help does. -/
def helpAbout : String := "Print this message or the help of the given subcommand(s)"

/-- The help for a command. -/
def help (word : String) (name : CommandName) : String :=
  name.usage.help (explorerName ++ " " ++ word) name.about

/-- The help for the word that asks for help. -/
def helpHelp : String :=
  Help.page helpAbout (explorerName ++ " " ++ helpWord ++ " [COMMAND]...")
    [("Arguments", [("[COMMAND]...", "Print help for the subcommand(s)")])]

/-- The help for a word, if it is a command. -/
def helpFor? (word : String) : Option String :=
  if word == helpWord then some helpHelp else (names.lookup word).map (help word)

end CommandName

namespace Command

/-- The help for the explorer as a whole. -/
def overview : String :=
  Help.page "Explore TypeScript types as trees" (explorerName ++ " <COMMAND>")
    [("Commands", CommandName.names.map (fun (word, name) => (word, name.about)) ++
        [(CommandName.helpWord, CommandName.helpAbout)]),
      ("Options", Help.questions usage.hasVersion)]

/-- The help that a line asks for: `help` is followed by the command that it is about, and a command
may be followed by a question. -/
def helpFor : List String → String
  | first :: rest =>
    let topic := if first == CommandName.helpWord then rest.head? else some first
    (topic.bind CommandName.helpFor?).getD overview
  | [] => overview

end Command

/-- The help for the server. -/
def TreeArguments.serverHelp : String :=
  TreeArguments.serverUsage.help serverName
    "Serve type trees over newline-delimited JSON on stdio"

end TypeAtlas
