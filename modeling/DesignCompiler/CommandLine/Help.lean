import DesignCompiler.CommandLine.Invocation

/-!
The texts of help and version.
-/
namespace DesignCompiler.CommandLine

def programName : String := "figrbx"

def programVersion : String := "0.1.0"

/-- A text in lines, each of them ended. -/
def ofLines (lines : List String) : String := String.join (lines.map (· ++ "\n"))

/-- An option as help shows it: its forms, and what it is for. -/
structure OptionHelp where
  forms : String
  purpose : String

/-- The purpose of an option behind its forms, in a column of a width. -/
def OptionHelp.line (width : Nat) (option : OptionHelp) : String :=
  "  " ++ option.forms ++
    String.ofList (List.replicate (width - option.forms.length + 2) ' ') ++ option.purpose

/-- Options in two columns. -/
def table (options : List OptionHelp) : List String :=
  let width := options.foldl (fun width option => max width option.forms.length) 0
  options.map (OptionHelp.line width)

/-- Options with their purposes below them, apart from each other. -/
def spread : List OptionHelp → List String
  | [] => []
  | [option] => ["  " ++ option.forms, "          " ++ option.purpose]
  | option :: rest =>
    ["  " ++ option.forms, "          " ++ option.purpose, ""] ++ spread rest

def verboseHelp : OptionHelp := ⟨"    --verbose", "Enable verbose output"⟩

def configHelp : OptionHelp :=
  ⟨"    --config <PATH>", "Optional config file (TOML) for classification, overrides, " ++
    "stroke thresholds, upload and text settings"⟩

def manifestHelp : OptionHelp := ⟨"    --manifest <MANIFEST>", "Export manifest (JSON)"⟩

def formatHelp : OptionHelp :=
  ⟨"    --format <FORMAT>",
    "Report format [default: json] [possible values: json, pretty]"⟩

def helpHelp (purpose : String) : OptionHelp := ⟨"-h, --help", purpose⟩

def versionHelp : OptionHelp := ⟨"-V, --version", "Print version"⟩

def compilePurpose : String := "Compile an export manifest into an .rbxmx model"

def diffPurpose : String := "Compare a manifest against the previous export snapshot"

def helpPurpose : String := "Print this message or the help of the given subcommand(s)"

/-- How the program is used, and its commands. -/
def programUsage : List String :=
  ["", "Usage: figrbx [OPTIONS] <COMMAND>", "", "Commands:", "  compile  " ++ compilePurpose,
    "  diff     " ++ diffPurpose, "  help     " ++ helpPurpose, "", "Options:"]

def programHelp (long : Bool) : String :=
  if long then
    ofLines (["figrbx", "", "Modes:",
      "- compile: turn an export manifest into an .rbxmx model, uploading rasterized content " ++
        "that is not cached yet.",
      "- diff: report which nodes changed since the previous export snapshot.", "",
      "Use --help on any subcommand for details."] ++ programUsage ++
      spread [verboseHelp, configHelp, helpHelp "Print help (see a summary with '-h')",
        versionHelp])
  else
    ofLines (["Compile design exports into native Roblox GUI models"] ++ programUsage ++
      table [verboseHelp, configHelp, helpHelp "Print help (see more with '--help')",
        versionHelp])

def compileHelp : String :=
  ofLines ([compilePurpose, "", "Usage: figrbx compile [OPTIONS] --manifest <MANIFEST>", "",
    "Options:"] ++ table [manifestHelp, verboseHelp, configHelp,
      ⟨"-o, --output <OUTPUT>",
        "Path for the .rbxmx model (embedded in the report if omitted)"⟩,
      ⟨"    --cache <PATH>", "Asset cache mapping content hashes to uploaded asset ids " ++
        "[default: figrbx-assets.json]"⟩,
      ⟨"    --previous <PATH>",
        "Snapshot from the previous export; unchanged nodes reuse its asset ids"⟩,
      ⟨"    --snapshot-out <PATH>",
        "Where to write the snapshot of this export (defaults to --previous)"⟩,
      formatHelp, helpHelp "Print help", versionHelp])

def diffHelp : String :=
  ofLines ([diffPurpose, "", "Usage: figrbx diff [OPTIONS] --manifest <MANIFEST>", "",
    "Options:"] ++ table [manifestHelp, verboseHelp, configHelp,
      ⟨"    --previous <PATH>", "Snapshot from the previous export"⟩, formatHelp,
      helpHelp "Print help", versionHelp])

def helpHelpText : String :=
  ofLines [helpPurpose, "", "Usage: figrbx help [COMMAND]...", "", "Arguments:",
    "  [COMMAND]...  Print help for the subcommand(s)"]

namespace Topic

def text (long : Bool) : Topic → String
  | program => programHelp long
  | compile => compileHelp
  | diff => diffHelp
  | help => helpHelpText

/-- The name that a topic has beside its version. -/
def title : Topic → String
  | program => programName
  | compile => programName ++ "-compile"
  | diff => programName ++ "-diff"
  | help => programName ++ "-help"

end Topic

/-- What is printed in place of a report. Faults of the command line are not part of the output. -/
def Usage.text : Usage → String
  | help topic long => topic.text long
  | version topic => topic.title ++ " " ++ programVersion ++ "\n"
  | _ => ""

end DesignCompiler.CommandLine
