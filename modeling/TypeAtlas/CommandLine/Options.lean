/-!
# Options on a command line

A `Usage` lists the options of a command. `Usage.read` goes through the words of a command line and
collects the values of the options; the first thing that is wrong is the answer.

The value of an option is the rest of its word after `=`, or else the next word. A value in a word
of its own is looked at late, when the next option comes or at the end of the line
(`Reading.settle`), so a word that does not belong on the line is reported before a value that came
earlier and is wrong.
-/

namespace TypeAtlas

/-- What an option takes. -/
inductive OptionKind where
  | flag
  | text
  | path
  | number
  deriving DecidableEq, Inhabited, Repr

/-- An option of a command, with its name without the hyphens. -/
structure OptionSpec where
  name : String
  kind : OptionKind
  required : Bool := false
  /-- What the option is for. -/
  about : String := ""
  deriving DecidableEq, Inhabited, Repr

/-- The value of an option. -/
inductive OptionValue where
  | present
  | text (value : String)
  | number (value : UInt32)
  deriving DecidableEq, Inhabited, Repr

/-- Why a command line is not carried out. -/
inductive UsageError where
  /-- Help is asked for. -/
  | help
  /-- The version is asked for. -/
  | version
  /-- There is no command. -/
  | missingCommand
  /-- There is no such command. -/
  | invalidCommand
  /-- A required option is missing. -/
  | missingOption
  /-- A word that is no option, or one too many. -/
  | unknownWord
  /-- An option is given twice. -/
  | repeatedOption
  /-- A value that is no number in range. -/
  | malformedNumber
  /-- An option without its value, or an empty path. -/
  | missingValue
  /-- A value given to a flag. -/
  | unexpectedValue
  deriving DecidableEq, Inhabited, Repr

/-! ## Words -/

/-- A word of a command line by its form. -/
inductive Word where
  /-- Two hyphens: the options end here. -/
  | separator
  /-- An option by its name, with the value after `=` if there is one. -/
  | long (name : String) (value : Option String)
  /-- An option by its letter; what follows the letter does not matter. -/
  | short (letter : Char)
  /-- Any other word; a single hyphen is one of them. -/
  | plain (text : String)
  deriving DecidableEq, Inhabited, Repr

namespace Word

/-- The name of an option and the value after the first `=`. -/
def splitValue (text : List Char) : String × Option String :=
  let name := text.takeWhile (· != '=')
  match text.drop name.length with
  | [] => (.ofList name, none)
  | _ :: value => (.ofList name, some (.ofList value))

/-- The form of a word. -/
def ofText (text : String) : Word :=
  match text.toList with
  | ['-', '-'] => separator
  | '-' :: '-' :: rest => long (splitValue rest).1 (splitValue rest).2
  | '-' :: letter :: _ => short letter
  | _ => plain text

end Word

/-! ## Values -/

/-- The number that decimal digits stand for; there is at least one. -/
def digits? (text : List Char) : Option Nat :=
  if text.isEmpty || !text.all Char.isDigit then none
  else some (text.foldl (fun n c => 10 * n + (c.toNat - '0'.toNat)) 0)

/-- A number of 32 bits without sign. A plus sign may be written before it, and a minus sign before
zero. -/
def uint32OfText? (text : String) : Option UInt32 := do
  let n ← match text.toList with
    | '+' :: rest => digits? rest
    | '-' :: rest => (digits? rest).filter (· == 0)
    | rest => digits? rest
  if n < UInt32.size then some (UInt32.ofNat n) else none

/-- The value that a text stands for. -/
def OptionKind.value? (kind : OptionKind) (text : String) : Except UsageError OptionValue :=
  match kind with
  | flag => .error .unexpectedValue
  | .text => .ok (.text text)
  | path => if text.isEmpty then .error .missingValue else .ok (.text text)
  | number =>
    match uint32OfText? text with
    | some n => .ok (.number n)
    | none => .error .malformedNumber

/-! ## Reading a line -/

/-- The options of a command. -/
structure Usage where
  options : List OptionSpec
  /-- Whether the command tells its version. -/
  hasVersion : Bool := false
  deriving DecidableEq, Inhabited, Repr

/-- What has been read of a line. -/
structure Reading where
  values : List (String × OptionValue) := []
  /-- The last option, if its value has a word of its own, and the value once that was read. -/
  pending : Option (OptionSpec × Option String) := none
  deriving DecidableEq, Inhabited, Repr

namespace Reading

/-- Adds the value of an option. -/
def add (reading : Reading) (option : OptionSpec) (value : Except UsageError OptionValue) :
    Except UsageError Reading :=
  if (reading.values.lookup option.name).isSome then .error .repeatedOption
  else value.map fun value => { reading with values := (option.name, value) :: reading.values }

/-- Adds the value of the last option. -/
def settle (reading : Reading) : Except UsageError Reading :=
  match reading.pending with
  | none => .ok reading
  | some (_, none) => .error .missingValue
  | some (option, some text) =>
    { reading with pending := none }.add option (option.kind.value? text)

/-- The text given for an option. -/
def text? (reading : Reading) (name : String) : Option String :=
  match reading.values.lookup name with
  | some (.text value) => some value
  | _ => none

/-- The number given for an option. -/
def number? (reading : Reading) (name : String) : Option UInt32 :=
  match reading.values.lookup name with
  | some (.number value) => some value
  | _ => none

/-- Whether an option is given. -/
def has (reading : Reading) (name : String) : Bool :=
  (reading.values.lookup name).isSome

end Reading

namespace Usage

/-- What every command is asked by an option: for help, and some for their version. -/
def question? (usage : Usage) (help version : Bool) : Option UsageError :=
  if help then some .help
  else if version && usage.hasVersion then some .version
  else none

/-- The question that an option asks by its name. -/
def longQuestion? (usage : Usage) (name : String) : Option UsageError :=
  usage.question? (name == "help") (name == "version")

/-- The question that an option asks by its letter. -/
def shortQuestion? (usage : Usage) (letter : Char) : Option UsageError :=
  usage.question? (letter == 'h') (letter == 'V')

/-- An option of the command. -/
def option (reading : Reading) (option : OptionSpec) (value : Option String) :
    Except UsageError Reading :=
  match option.kind, value with
  | .flag, some _ => .error .unexpectedValue
  | .flag, none => do (← reading.settle).add option (.ok .present)
  | _, some text => do (← reading.settle).add option (option.kind.value? text)
  | _, none => do return { ← reading.settle with pending := some (option, none) }

/-- An option by its name. -/
def long (usage : Usage) (reading : Reading) (name : String) (value : Option String) :
    Except UsageError Reading :=
  match usage.longQuestion? name, value with
  | some _, some _ => .error .unexpectedValue
  | some question, none => reading.settle.bind fun _ => .error question
  | none, value =>
    match usage.options.find? (·.name == name) with
    | some spec => option reading spec value
    | none => .error .unknownWord

/-- An option by its letter; there are only questions. -/
def short (usage : Usage) (reading : Reading) (letter : Char) : UsageError :=
  match usage.shortQuestion? letter with
  | some question =>
    match reading.settle with
    | .ok _ => question
    | .error error => error
  | none => .unknownWord

/-- Reads the words of a line. -/
def readFrom (usage : Usage) : Reading → List String → Except UsageError Reading
  | reading, [] => reading.settle
  | reading, word :: rest =>
    match Word.ofText word with
    | .separator => if rest.isEmpty then reading.settle else .error .unknownWord
    | .long name value => do usage.readFrom (← usage.long reading name value) rest
    | .short letter => .error (usage.short reading letter)
    | .plain text =>
      match reading.pending with
      | some (option, none) =>
        usage.readFrom { reading with pending := some (option, some text) } rest
      | _ => .error .unknownWord

/-- Reads a line and makes sure that nothing required is missing. -/
def read (usage : Usage) (words : List String) : Except UsageError Reading := do
  let reading ← usage.readFrom {} words
  if usage.options.all fun option => !option.required || reading.has option.name then .ok reading
  else .error .missingOption

end Usage

end TypeAtlas
