import DesignCompiler.RawText

/-!
The words of a command line read as a command: options of the whole program, the name of a command,
and the options of this command. An option takes the next word as its value, unless this word is an
option itself; each option counts once for each of the two places.
-/
namespace DesignCompiler.CommandLine

inductive ReportFormat where
  | json
  | pretty
deriving DecidableEq, Repr

/-- The files of a compiling run. -/
structure CompilePaths where
  manifest : RawText
  output : Option RawText
  cache : RawText
  previous : Option RawText
  snapshotOut : Option RawText
deriving DecidableEq, Repr

inductive Command where
  | compile (paths : CompilePaths) (format : ReportFormat)
  | diff (manifest : RawText) (previous : Option RawText) (format : ReportFormat)
deriving DecidableEq, Repr

structure Invocation where
  verbose : Bool
  config : Option RawText
  command : Command
deriving DecidableEq, Repr

/-- What help can be about. -/
inductive Topic where
  | program
  | compile
  | diff
  | help
deriving DecidableEq, Repr

/-- Why there is no command to run; asking for help is one reason. -/
inductive Usage where
  | help (topic : Topic) (long : Bool)
  | version (topic : Topic)
  | nothingGiven
  | missingCommand
  | unknownCommand
  | unknownArgument
  | invalidValue
  | tooManyValues
  | repeated
  | missingArgument
deriving DecidableEq, Repr

/-- Asking for help or for the version is no failure. -/
def Usage.exitCode : Usage → Nat
  | help .. | version _ => 0
  | _ => 2

/-- What an option does. -/
inductive OptionKind where
  | path
  | format
  | switch
  | help
  | version
deriving DecidableEq, Repr

structure OptionSpec where
  long : String
  short : Option Char
  kind : OptionKind
deriving DecidableEq, Repr

/-- Options that may stand before and after the name of a command. -/
def globalOptions : List OptionSpec :=
  [⟨"verbose", none, .switch⟩, ⟨"config", none, .path⟩, ⟨"help", some 'h', .help⟩,
    ⟨"version", some 'V', .version⟩]

def compileOptions : List OptionSpec :=
  [⟨"manifest", none, .path⟩, ⟨"output", some 'o', .path⟩, ⟨"cache", none, .path⟩,
    ⟨"previous", none, .path⟩, ⟨"snapshot-out", none, .path⟩, ⟨"format", none, .format⟩]

def diffOptions : List OptionSpec :=
  [⟨"manifest", none, .path⟩, ⟨"previous", none, .path⟩, ⟨"format", none, .format⟩]

def formats : List (String × ReportFormat) := [("json", .json), ("pretty", .pretty)]

/-- What the words after a topic may be. -/
structure Grammar where
  topic : Topic
  options : List OptionSpec
  commands : List (String × Topic)

def programGrammar : Grammar :=
  ⟨.program, globalOptions, [("compile", .compile), ("diff", .diff), ("help", .help)]⟩

def compileGrammar : Grammar := ⟨.compile, compileOptions ++ globalOptions, []⟩

def diffGrammar : Grammar := ⟨.diff, diffOptions ++ globalOptions, []⟩

/-- The options met so far. -/
structure Given where
  values : List (String × RawText)
  /-- The option that was met last, with its value if that has been met too. -/
  pending : Option (OptionSpec × Option RawText)

namespace Given

def none : Given := ⟨[], Option.none⟩

def isAcceptable (kind : OptionKind) (value : RawText) : Bool :=
  match kind with
  | .path => !value.isEmpty
  | .format => (formats.lookup value).isSome
  | _ => true

/-- Takes in an option with its value. -/
def accept (given : Given) (option : OptionSpec) (value : RawText) : Except Usage Given :=
  if (given.values.lookup option.long).isSome then .error .repeated
  else if isAcceptable option.kind value then
    .ok { given with values := given.values ++ [(option.long, value)] }
  else .error .invalidValue

/-- Takes in the option that was met last. -/
def settle (given : Given) : Except Usage Given :=
  match given.pending with
  | Option.none => .ok given
  | some (_, Option.none) => .error .invalidValue
  | some (option, some value) => accept { given with pending := Option.none } option value

/-- The last option still lacks its value. -/
def isWaiting (given : Given) : Bool :=
  match given.pending with
  | some (_, Option.none) => true
  | _ => false

/-- Meets an option that takes a value, which may be attached to it. -/
def meet (given : Given) (option : OptionSpec) (attached : Option RawText) :
    Except Usage Given := do
  let given ← given.settle
  match attached with
  | some value => given.accept option value
  | Option.none => .ok { given with pending := some (option, Option.none) }

/-- Meets an option that takes no value. -/
def flag (given : Given) (topic : Topic) (option : OptionSpec) (long : Bool) :
    Except Usage Given := do
  let given ← given.settle
  match option.kind with
  | .help => .error (.help topic long)
  | .version => .error (.version topic)
  | _ => given.accept option ""

end Given

def takesValue (option : OptionSpec) : Bool :=
  option.kind = .path || option.kind = .format

/-- Meets a word of two hyphens, a name, and perhaps a value after an equals sign. -/
def longOption (grammar : Grammar) (given : Given) (word : List Char) : Except Usage Given :=
  let name := String.ofList (word.takeWhile (· != '='))
  let attached : Option RawText :=
    match word.dropWhile (· != '=') with
    | [] => none
    | _ :: value => some (String.ofList value)
  match grammar.options.find? (·.long == name) with
  | none => .error .unknownArgument
  | some option =>
    if takesValue option then given.meet option attached
    else if attached.isSome then .error .tooManyValues
    else given.flag grammar.topic option true

/-- Meets a word of one hyphen and letters, the last of which may be followed by its value. -/
def shortOptions (grammar : Grammar) (given : Given) : List Char → Except Usage Given
  | [] => .ok given
  | letter :: rest =>
    match grammar.options.find? (·.short == some letter) with
    | none => .error .unknownArgument
    | some option =>
      if takesValue option then
        given.meet option
          (match rest with
            | [] => none
            | '=' :: value => some (String.ofList value)
            | value => some (String.ofList value))
      else
        match given.flag grammar.topic option false with
        | .error usage => .error usage
        | .ok given => shortOptions grammar given rest

/-- A word that is neither an option nor a value. -/
def stray (grammar : Grammar) (trailing : Bool) (word : RawText) : Usage :=
  if grammar.commands.isEmpty then .unknownArgument
  else if trailing && (grammar.commands.lookup word).isSome then .unknownArgument
  else .unknownCommand

/-- The options at the front of some words, and the command after them with its own words. After a
bare pair of hyphens there are no more options. -/
def readWords (grammar : Grammar) (trailing : Bool) (given : Given) :
    List RawText → Except Usage (Given × Option (Topic × List RawText))
  | [] => .ok (given, none)
  | word :: rest =>
    if trailing then .error (stray grammar true word)
    else
      let command := if given.isWaiting then none else grammar.commands.lookup word
      match command with
      | some topic => .ok (given, some (topic, rest))
      | none =>
        match word.toList with
        | ['-', '-'] => readWords grammar true given rest
        | '-' :: '-' :: name => do
          readWords grammar false (← longOption grammar given name) rest
        | '-' :: letter :: more => do
          readWords grammar false (← shortOptions grammar given (letter :: more)) rest
        | _ =>
          match given.pending with
          | some (option, none) =>
            readWords grammar false { given with pending := some (option, some word) } rest
          | _ => .error (stray grammar false word)

/-- The options of a command to its end. -/
def readCommand (grammar : Grammar) (words : List RawText) :
    Except Usage (List (String × RawText)) := do
  let (given, _) ← readWords grammar false .none words
  return (← given.settle).values

def formatOf (values : List (String × RawText)) : ReportFormat :=
  ((values.lookup "format").bind fun name => formats.lookup name).getD .json

/-- Help about a command named by the words after `help`. -/
def helpAbout : List RawText → Usage
  | [] => .help .program true
  | [word] =>
    match programGrammar.commands.lookup word with
    | some topic => .help topic true
    | none => .unknownCommand
  | _ => .unknownCommand

/-- A command from its options; none is complete without a manifest. -/
def commandOf (topic : Topic) (values : List (String × RawText)) : Except Usage Command :=
  match values.lookup "manifest" with
  | none => .error .missingArgument
  | some manifest =>
    let format := formatOf values
    if topic = .compile then
      .ok (.compile {
        manifest
        output := values.lookup "output"
        cache := (values.lookup "cache").getD "figrbx-assets.json"
        previous := values.lookup "previous"
        snapshotOut := values.lookup "snapshot-out" } format)
    else .ok (.diff manifest (values.lookup "previous") format)

/-- Reads the words after the name of the program. -/
def parse (words : List RawText) : Except Usage Invocation := do
  let (given, command) ← readWords programGrammar false .none words
  match command with
  | none =>
    let given ← given.settle
    .error (if given.values.isEmpty then .nothingGiven else .missingCommand)
  | some (.help, rest) => .error (helpAbout rest)
  | some (topic, rest) =>
    let grammar := if topic = .compile then compileGrammar else diffGrammar
    let values ← readCommand grammar rest
    let command ← commandOf topic values
    let outer := (← given.settle).values
    return {
      verbose := (outer.lookup "verbose").isSome || (values.lookup "verbose").isSome
      config := (values.lookup "config").or (outer.lookup "config")
      command }

end DesignCompiler.CommandLine
