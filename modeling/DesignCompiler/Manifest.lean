import DesignCompiler.Design.File
import DesignCompiler.Failure

/-!
Manifests: one export of a design, with the pictures that the store may not have yet.
-/
namespace DesignCompiler

variable {α : Type} [Scalar α]

/-- Counts of the export. Whatever else it counts is kept as it is. -/
structure ManifestStats where
  totalNodes : Option Nat
  exportedImages : Option Nat
  extra : List (String × Json)

structure Manifest (α : Type) where
  root : Option (Node α)
  /-- Hashes of pictures that the export could not resolve by itself. -/
  unresolved : List String
  /-- Pictures by hash, as text. -/
  rawContent : List (String × String)
  stats : ManifestStats

namespace ManifestStats

def empty : ManifestStats := ⟨none, none, []⟩

def keys : List String := ["totalNodes", "exportedImages"]

def ofJson? : Json → Option ManifestStats
  | .object members => do
    let fields ← Json.knownMembers? keys members
    let extra := members.filter fun entry => !keys.contains entry.1
    let settled := match Json.settled (.object extra) with
      | .object members => members
      | _ => []
    return {
      totalNodes := ← fields.orElse "totalNodes" none (Json.optional? Json.word?)
      exportedImages := ← fields.orElse "exportedImages" none (Json.optional? Json.word?)
      extra := settled }
  | _ => none

def json (stats : ManifestStats) : Json :=
  .object (Json.member? "totalNodes" (stats.totalNodes.map Json.nat) ++
    Json.member? "exportedImages" (stats.exportedImages.map Json.nat) ++ stats.extra)

end ManifestStats

namespace Manifest

def keys : List String := ["root", "unresolvedContentHashes", "rawContentByHash", "stats"]

def ofJson? (value : Json) : Option (Manifest α) := do
  let fields ← Json.record? keys value
  return {
    root := ← fields.orElse "root" none (Json.optional? Node.ofJson?)
    unresolved := ← fields.orElse "unresolvedContentHashes" [] (Json.list? Json.text?)
    rawContent := ← fields.orElse "rawContentByHash" [] (Json.dictionary? Json.text?)
    stats := ← fields.orElse "stats" .empty ManifestStats.ofJson? }

def json (manifest : Manifest α) : Json :=
  .object [("root", (manifest.root.map Node.json).getD .null),
    ("unresolvedContentHashes", Json.texts manifest.unresolved),
    ("rawContentByHash",
      .object (manifest.rawContent.map fun (hash, content) => (hash, .string content))),
    ("stats", manifest.stats.json)]

def fileShape : Json.Shape :=
  .record [("root", Node.fileShape), ("unresolvedContentHashes", .whole),
    ("rawContentByHash", .whole), ("stats", .whole)] .ignored

/-- Reads the text of a manifest. -/
def parse (contents : String) : Option (Manifest α) :=
  (Json.Reader.read fileShape contents).bind ofJson?

/-- The root of the design, and the manifest without it. -/
def takeRoot (manifest : Manifest α) : Except Failure (Node α × Manifest α) :=
  match manifest.root with
  | some root => .ok (root, { manifest with root := none })
  | none => .error (.malformedManifest "manifest has no root node")

end Manifest
end DesignCompiler
