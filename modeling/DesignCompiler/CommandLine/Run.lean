import DesignCompiler.CommandLine.Help
import DesignCompiler.Report
import DesignCompiler.Store.Client

/-!
A run of the program from its command line to its report. The ledger is written as assets arrive; the model and
then the snapshot are written once everything before them has succeeded, and the report comes last.
-/
namespace DesignCompiler

section
variable {m : Type → Type} [Monad m] [Host m]

def Manifest.load (path : RawText) : m (Except Failure (Manifest Float)) := do
  match ← Host.readText path with
  | .error fault => return .error (.config (.manifestFile path fault))
  | .ok contents =>
    match Manifest.parse contents with
    | some manifest => return .ok manifest
    | none => return .error .serialization

/-- The snapshot of a file, or none where there is no file. -/
def Snapshot.load (path : RawText) : m (Except Failure (Option (Snapshot Float))) := do
  match ← Host.readText path with
  | .error .notFound => return .ok none
  | .error fault => return .error (.io fault)
  | .ok contents =>
    match Snapshot.parse contents with
    | some snapshot => return .ok (some snapshot)
    | none => return .error .serialization

def Snapshot.loadFrom : Option RawText → m (Except Failure (Option (Snapshot Float)))
  | some path => Snapshot.load path
  | none => pure (.ok none)

def writeTo (text : String) : Option RawText → m (Except Failure Unit)
  | some path => do return (← replaceFile path text).mapError .io
  | none => pure (.ok ())

end

namespace CommandLine

/-- What a run leaves: the text it prints, and the code it ends with. -/
structure Outcome where
  output : String
  exitCode : Nat
deriving DecidableEq, Repr

/-- What a run is given besides its words: the environment, and whether a reader sees the output. -/
structure Setup where
  environment : Environment
  atTerminal : Bool

section
variable {m : Type → Type} [Monad m] [Host m]

/-- The report of a compilation whose files are written. -/
def compileReport (paths : CompilePaths) (compilation : Compilation Float) : Report :=
  .compile { CompileOutput.ofReport paths.manifest compilation.report compilation.diff with
    outputPath := paths.output
    snapshotPath := paths.snapshotOut.or paths.previous
    document := if paths.output.isNone then some compilation.document else none }

def writeAll (paths : CompilePaths) (compilation : Compilation Float) :
    m (Except Failure Unit) := do
  match ← writeTo compilation.document paths.output with
  | .error failure => return .error failure
  | .ok () => writeTo compilation.snapshot.fileText (paths.snapshotOut.or paths.previous)

/-- Compiles a manifest with a ledger and an uploader, and writes what comes of it. -/
def compileWith (paths : CompilePaths) (config : Config Float) (manifest : Manifest Float)
    (previous : Option (Snapshot Float)) (ledger : Store.Ledger) (uploader : Store.Uploader m) :
    m (Except Failure Report) := do
  let (result, _) ← (Compilation.run config uploader previous manifest).run ledger
  match result with
  | .error failure => return .error failure
  | .ok compilation =>
    match ← writeAll paths compilation with
    | .error failure => return .error failure
    | .ok () => return .ok (compileReport paths compilation)

/-- Reads the files of a command, in the order of the settings, the manifest and the snapshot. -/
def inputs (environment : Environment) (config : Option RawText) (manifest : RawText)
    (previous : Option RawText) :
    m (Except Failure (Config Float × Manifest Float × Option (Snapshot Float))) := do
  match ← Config.load environment config with
  | .error failure => return .error failure
  | .ok config =>
    match ← Manifest.load manifest with
    | .error failure => return .error failure
    | .ok manifest =>
      match ← Snapshot.loadFrom previous with
      | .error failure => return .error failure
      | .ok previous => return .ok (config, manifest, previous)

def compile (environment : Environment) (send : Store.Request → m (Option Store.Reply))
    (config : Option RawText) (paths : CompilePaths) : m (Except Failure Report) := do
  match ← inputs environment config paths.manifest paths.previous with
  | .error failure => return .error failure
  | .ok (config, manifest, previous) =>
    match ← Store.Ledger.load paths.cache with
    | .error failure => return .error failure
    | .ok ledger =>
      match Store.Uploader.ofEnvironment environment config.upload send with
      | .error failure => return .error failure
      | .ok uploader => compileWith paths config manifest previous ledger uploader

def diff (environment : Environment) (config : Option RawText) (manifest : RawText)
    (previous : Option RawText) : m (Except Failure Report) := do
  match ← inputs environment config manifest previous with
  | .error failure => return .error failure
  | .ok (config, design, snapshot) =>
    return (design.diff config snapshot).map fun diff =>
      .diff (.ofDiff manifest previous diff)

/-- What is printed for a report that cannot be given. -/
def stopgap : String := "\x7b\"mode\":\"error\"\x7d\n"

/-- The text of a report. Away from a terminal it is data in every format. The pretty format makes do with a
stopgap where the report cannot be given as data. -/
def render (format : ReportFormat) (atTerminal : Bool) (report : Report) : Option String :=
  match format, atTerminal with
  | .json, _ => report.data?.map fun data => data.compact ++ "\n"
  | .pretty, true => some (report.text true ++ "\n")
  | .pretty, false =>
    some ((report.data?.map fun data => data.pretty ++ "\n").getD stopgap)

def Command.format : Command → ReportFormat
  | compile _ format => format
  | diff _ _ format => format

/-- What a run that fails prints, and the code it ends with. -/
def failed (setup : Setup) (format : ReportFormat) (failure : Failure) : Outcome :=
  ⟨(render format setup.atTerminal (.error (.ofFailure failure))).getD stopgap, 2⟩

/-- What a run prints about its result, and the code it ends with. A report that cannot be given is a failure
like any other, also where everything else is done. -/
def outcome (setup : Setup) (format : ReportFormat) : Except Failure Report → Outcome
  | .ok report =>
    match render format setup.atTerminal report with
    | some text => ⟨text, 0⟩
    | none => failed setup format (.config .unwritablePath)
  | .error failure => failed setup format failure

def execute (setup : Setup) (send : Store.Request → m (Option Store.Reply))
    (invocation : Invocation) : m Outcome := do
  let result ← match invocation.command with
    | .compile paths _ => compile setup.environment send invocation.config paths
    | .diff manifest previous _ => diff setup.environment invocation.config manifest previous
  return outcome setup invocation.command.format result

/-- Runs the program on the words after its name. -/
def run (setup : Setup) (send : Store.Request → m (Option Store.Reply)) (words : List RawText) :
    m Outcome :=
  match parse words with
  | .ok invocation => execute setup send invocation
  | .error usage => pure ⟨usage.text, usage.exitCode⟩

end
end CommandLine
end DesignCompiler
