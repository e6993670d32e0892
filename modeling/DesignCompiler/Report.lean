import DesignCompiler.Compilation

/-!
Reports of runs: as data, and as text for a terminal.
-/
namespace DesignCompiler

/-- The version that reports carry. -/
def reportVersion : String := "0.1.0"

/-- How many nodes of a comparison are of each sort. -/
structure DiffCounts where
  changed : Nat
  unchanged : Nat
  added : Nat
  removed : Nat
  reused : Nat
deriving DecidableEq, Repr

def Diff.counts (diff : Diff) : DiffCounts :=
  ⟨diff.changed.length, diff.unchanged.length, diff.added.length, diff.removed.length,
    diff.reuse.length⟩

def DiffCounts.json (counts : DiffCounts) : Json :=
  .object [("changed", Json.nat counts.changed), ("unchanged", Json.nat counts.unchanged),
    ("added", Json.nat counts.added), ("removed", Json.nat counts.removed),
    ("reused", Json.nat counts.reused)]

/-- A run that compiled a design. -/
structure CompileOutput where
  manifest : RawText
  outputPath : Option RawText
  snapshotPath : Option RawText
  rootName : String
  instances : Nat
  requiredAssets : Nat
  uploaded : Nat
  cacheHits : Nat
  reused : Nat
  strokeGroups : Nat
  diff : DiffCounts
  warnings : List Warning
  /-- The document itself, if it was not written to a file. -/
  document : Option String
deriving DecidableEq, Repr

/-- A run that compared a design with the previous one. -/
structure DiffOutput where
  manifest : RawText
  previous : Option RawText
  counts : DiffCounts
  changed : List String
  added : List String
  removed : List String
deriving DecidableEq, Repr

/-- A run that failed. -/
structure ErrorOutput where
  category : Category
  message : String
  advice : Option String
deriving DecidableEq, Repr

inductive Report where
  | compile (output : CompileOutput)
  | diff (output : DiffOutput)
  | error (output : ErrorOutput)
deriving DecidableEq, Repr

/-- A path as reports give it, if it is a text. -/
def RawText.json (path : RawText) : Json := Json.ofText? path.text?

namespace CompileOutput

def ofReport (manifest : RawText) (report : CompileReport) (diff : Diff) : CompileOutput where
  manifest := manifest
  outputPath := none
  snapshotPath := none
  rootName := report.rootName
  instances := report.instances
  requiredAssets := report.requiredAssets
  uploaded := report.uploaded.length
  cacheHits := report.cacheHits
  reused := report.reused
  strokeGroups := report.strokeGroups
  diff := diff.counts
  warnings := report.warnings
  document := none

def members (output : CompileOutput) : List (String × Json) :=
  [("manifest", output.manifest.json)] ++
  Json.member? "outputPath" (output.outputPath.map RawText.json) ++
  Json.member? "snapshotPath" (output.snapshotPath.map RawText.json) ++
  [("rootName", .string output.rootName), ("instances", Json.nat output.instances),
    ("requiredAssets", Json.nat output.requiredAssets),
    ("uploaded", Json.nat output.uploaded), ("cacheHits", Json.nat output.cacheHits),
    ("reused", Json.nat output.reused), ("strokeGroups", Json.nat output.strokeGroups),
    ("diff", output.diff.json)] ++
  (if output.warnings.isEmpty then []
    else [("warnings", .array (output.warnings.map Warning.json))]) ++
  Json.member? "document" (output.document.map .string)

end CompileOutput

namespace DiffOutput

def ofDiff (manifest : RawText) (previous : Option RawText) (diff : Diff) : DiffOutput :=
  ⟨manifest, previous, diff.counts, diff.changed, diff.added, diff.removed⟩

def members (output : DiffOutput) : List (String × Json) :=
  [("manifest", output.manifest.json)] ++
  Json.member? "previous" (output.previous.map RawText.json) ++
  [("counts", output.counts.json), ("changed", Json.texts output.changed),
    ("added", Json.texts output.added), ("removed", Json.texts output.removed)]

end DiffOutput

namespace ErrorOutput

def ofFailure (failure : Failure) : ErrorOutput :=
  ⟨failure.category, failure.message, some failure.advice⟩

def json (output : ErrorOutput) : Json :=
  .object ([("category", .string output.category.name), ("message", .string output.message)] ++
    Json.member? "remediation" (output.advice.map .string))

end ErrorOutput

namespace Report

def json : Report → Json
  | compile output =>
    .object ([("mode", .string "compile"), ("version", .string reportVersion)] ++ output.members)
  | diff output =>
    .object ([("mode", .string "diff"), ("version", .string reportVersion)] ++ output.members)
  | error output =>
    .object [("mode", .string "error"), ("version", .string reportVersion),
      ("error", output.json)]

/-- The paths that a report gives. -/
def paths : Report → List RawText
  | compile output =>
    output.manifest :: (output.outputPath.toList ++ output.snapshotPath.toList)
  | diff output => output.manifest :: output.previous.toList
  | error _ => []

/-- All the paths that a report gives are texts. -/
def IsWritable (report : Report) : Prop := ∀ path ∈ report.paths, path.text?.isSome

instance (report : Report) : Decidable report.IsWritable :=
  inferInstanceAs (Decidable (∀ path ∈ report.paths, path.text?.isSome = true))

/-- The report as data, if it can be given so. -/
def data? (report : Report) : Option Json := if report.IsWritable then some report.json else none

/-- A text in a color of the terminal, if colors are wanted. -/
def paint (colored : Bool) (code text : String) : String :=
  if colored then "\x1b[" ++ code ++ "m" ++ text ++ "\x1b[0m" else text

/-- A count with what it counts. -/
def counted (count : Nat) (label : String) : String := Decimal.natText count ++ " " ++ label

/-- A line of counts. -/
def countLine (counts : List (Nat × String)) : String :=
  ", ".intercalate (counts.map fun (count, label) => counted count label)

def diffLine (counts : DiffCounts) : String :=
  countLine [(counts.changed, "changed"), (counts.unchanged, "unchanged"),
    (counts.added, "added"), (counts.removed, "removed")]

def warningLine (warning : Warning) : String :=
  match warning.nodeId with
  | some id => "- [" ++ id ++ "] " ++ warning.message
  | none => "- " ++ warning.message

/-- A line of ids, if there are any. -/
def idLine (label : String) (ids : List String) : List String :=
  if ids.isEmpty then [] else [label ++ ": " ++ ", ".intercalate ids]

/-- The lines for a reader at a terminal. -/
def lines (colored : Bool) : Report → List String
  | compile output =>
    [paint colored "32" "[COMPILE]" ++ " " ++ output.rootName ++ " (" ++
        counted output.instances "instances)"] ++
      (output.outputPath.map fun path => "Model: " ++ path.shown).toList ++
      ["Assets: " ++ countLine [(output.requiredAssets, "required"),
          (output.uploaded, "uploaded"), (output.cacheHits, "cached"),
          (output.reused, "reused")],
        "Diff: " ++ diffLine output.diff] ++
      (if output.strokeGroups > 0 then
        ["Stroke groups collapsed: " ++ Decimal.natText output.strokeGroups] else []) ++
      (if output.warnings.isEmpty then []
        else paint colored "33" "Warnings:" :: output.warnings.map warningLine)
  | diff output =>
    [paint colored "36" "[DIFF]" ++ " " ++ diffLine output.counts] ++
      idLine "Changed" output.changed ++ idLine "Added" output.added ++
      idLine "Removed" output.removed
  | error output =>
    [paint colored "31" "[ERROR]" ++ " " ++ output.message] ++
      (output.advice.map fun advice => "Hint: " ++ advice).toList

/-- The report as text, each line ended. -/
def text (colored : Bool) (report : Report) : String :=
  String.join ((report.lines colored).map (· ++ "\n"))

end Report
end DesignCompiler
