import DesignCompiler.Assembly
import DesignCompiler.Config.Validation
import DesignCompiler.Document
import DesignCompiler.Manifest
import DesignCompiler.Snapshot
import DesignCompiler.Store.Resolution
import DesignCompiler.Stroke

/-!
One run of the compiler: a manifest in, a document and the snapshot for the next run out. The passes
run in a fixed order and the first failure ends the run; only finding the assets asks anything of the
machine.
-/
namespace DesignCompiler

variable {α : Type} [Scalar α]

structure CompileReport where
  rootName : String
  instances : Nat
  /-- How many distinct pictures the document shows. -/
  requiredAssets : Nat
  /-- The hashes uploaded in this run, in order. -/
  uploaded : List String
  cacheHits : Nat
  /-- How many pictures were filled from the snapshot. -/
  reused : Nat
  strokeGroups : Nat
  strokeDuplicates : Nat
  warnings : List Warning
deriving DecidableEq, Repr

namespace CompileReport

def json (report : CompileReport) : Json :=
  .object [("rootName", .string report.rootName), ("instances", Json.nat report.instances),
    ("requiredAssets", Json.nat report.requiredAssets),
    ("uploaded", Json.texts report.uploaded), ("cacheHits", Json.nat report.cacheHits),
    ("reused", Json.nat report.reused), ("strokeGroups", Json.nat report.strokeGroups),
    ("strokeDuplicates", Json.nat report.strokeDuplicates),
    ("warnings", .array (report.warnings.map Warning.json))]

end CompileReport

structure Compilation (α : Type) where
  document : String
  diff : Diff
  snapshot : Snapshot α
  report : CompileReport

/-- A design after the passes that need no assets. -/
structure PlannedDesign (α : Type) where
  rules : RuleSet
  root : Node α
  stroke : Stroke.Report
  diff : Diff
  warnings : List Warning

namespace PlannedDesign

/-- Runs the passes up to the comparison with the previous run. -/
def of (config : Config α) (previous : Option (Snapshot α)) (manifest : Manifest α) :
    Except Failure (PlannedDesign α) :=
  match config.rules with
  | .error fault => .error (.config (.rule fault))
  | .ok rules => do
    let (root, _) ← manifest.takeRoot
    let (root, stroke) := Stroke.resolve config.stroke (rules.applyStructural root)
    let (root, warnings) := Plan.annotate rules root
    return { rules, root, stroke, diff := Diff.of root previous, warnings }

end PlannedDesign

def Manifest.diff (config : Config α) (previous : Option (Snapshot α)) (manifest : Manifest α) :
    Except Failure Diff :=
  (PlannedDesign.of config previous manifest).map (·.diff)

namespace Compilation

/-- A hash can be had: it is carried over, known to the ledger, or comes with the manifest. -/
def isObtainable (ledger : Store.Ledger) (raw : List (String × String)) (root : Node α)
    (jobs : List UploadJob) (hash : String) : Bool :=
  (!jobs.any (·.hash == hash) && (Plan.requiredHashes root).contains hash) ||
    (ledger.asset? hash).isSome || (raw.lookup hash).isSome

/-- Fails for the first declared hash that cannot be had. -/
def checkDeclared (ledger : Store.Ledger) (raw : List (String × String)) (root : Node α)
    (jobs : List UploadJob) (declared : List String) : Except Failure Unit :=
  match declared.find? fun hash => !isObtainable ledger raw root jobs hash with
  | none => .ok ()
  | some hash =>
    .error (.missingRawContent hash
      (((jobs.find? (·.hash == hash)).map (·.nodeId)).getD "unresolvedContentHashes"))

/-- The outputs of a design whose pictures have their assets. -/
def finish (config : Config α) (planned : PlannedDesign α) (reused : Nat) (root : Node α)
    (resolution : Store.Resolution) : Except Failure (Compilation α) := do
  let (arena, log) ←
    (Assembly.assemble planned.rules config.text root).run ⟨planned.warnings, []⟩
  return {
    document := arena.document
    diff := planned.diff
    snapshot := root.snapshot
    report := {
      rootName := root.layer.name
      instances := arena.size
      requiredAssets := (Plan.requiredHashes root).length
      uploaded := resolution.uploaded
      cacheHits := resolution.cacheHits
      reused
      strokeGroups := planned.stroke.groups
      strokeDuplicates := planned.stroke.duplicates
      warnings := log.warnings } }

variable {m : Type → Type} [Monad m] [Host m]

/-- Compiles a manifest. The ledger keeps every upload, also if the run fails afterwards. -/
def run (config : Config α) (uploader : Store.Uploader m) (previous : Option (Snapshot α))
    (manifest : Manifest α) : StateT Store.Ledger m (Except Failure (Compilation α)) := do
  match PlannedDesign.of config previous manifest with
  | .error failure => return .error failure
  | .ok planned =>
    let (root, reused) := Diff.applyReuse planned.diff.reuse planned.root
    let jobs := Plan.pendingJobs root
    match checkDeclared (← get) manifest.rawContent root jobs manifest.unresolved with
    | .error failure => return .error failure
    | .ok () =>
      match ← Store.resolveAll jobs manifest.rawContent uploader config.upload with
      | .error failure => return .error failure
      | .ok resolution =>
        let root := Plan.applyAssets (resolution.resolved.lookup ·) root
        return finish config planned reused root resolution

end Compilation
end DesignCompiler
