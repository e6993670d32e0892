import DesignCompiler.Fingerprint
import DesignCompiler.Json.Record
import DesignCompiler.Json.Reader
import DesignCompiler.Plan

/-!
Snapshots: what the next run needs to know about this one, and the differences between a design and a
snapshot.
-/
namespace DesignCompiler

variable {α : Type} [Scalar α]

structure SnapshotEntry (α : Type) where
  name : String
  structuralHash : String
  asset : Option String
  width : α
  height : α

/-- The entries of a run by node id, in the order of the ids, each id once. -/
structure Snapshot (α : Type) where
  entries : List (String × SnapshotEntry α)

/-- Puts a value for a key into a list ordered by key, in place of an earlier one. -/
def insertSorted {β : Type} (key : String) (value : β) : List (String × β) → List (String × β)
  | [] => [(key, value)]
  | (other, held) :: rest =>
    if key < other then (key, value) :: (other, held) :: rest
    else if key = other then (key, value) :: rest
    else (other, held) :: insertSorted key value rest

/-- Puts a text into an ordered list of distinct texts. -/
def insertText (text : String) : List String → List String
  | [] => [text]
  | other :: rest =>
    if text < other then text :: other :: rest
    else if text = other then other :: rest
    else other :: insertText text rest

namespace SnapshotEntry

def keys : List String := ["name", "structuralHash", "assetId", "width", "height"]

def json (entry : SnapshotEntry α) : Json :=
  .object ([("name", .string entry.name), ("structuralHash", .string entry.structuralHash)] ++
    Json.member? "assetId" (entry.asset.map .string) ++
    [("width", Scalar.json entry.width), ("height", Scalar.json entry.height)])

def ofJson? (value : Json) : Option (SnapshotEntry α) := do
  let fields ← Json.record? keys value
  return {
    name := ← fields.required "name" Json.text?
    structuralHash := ← fields.required "structuralHash" Json.text?
    asset := ← fields.orElse "assetId" none (Json.optional? Json.text?)
    width := ← fields.required "width" Scalar.ofJson?
    height := ← fields.required "height" Scalar.ofJson? }

end SnapshotEntry

namespace Snapshot

def empty : Snapshot α := ⟨[]⟩

def get? (snapshot : Snapshot α) (id : String) : Option (SnapshotEntry α) :=
  snapshot.entries.lookup id

def insert (snapshot : Snapshot α) (id : String) (entry : SnapshotEntry α) : Snapshot α :=
  ⟨insertSorted id entry snapshot.entries⟩

def json (snapshot : Snapshot α) : Json :=
  .object [("entries", .object (snapshot.entries.map fun (id, entry) => (id, entry.json)))]

def ofJson? (value : Json) : Option (Snapshot α) := do
  let fields ← Json.record? ["entries"] value
  let entries ← fields.orElse "entries" [] (Json.dictionary? SnapshotEntry.ofJson?)
  return entries.foldl (fun snapshot (id, entry) => snapshot.insert id entry) empty

def fileShape : Json.Shape :=
  .record [("entries", .each (.only SnapshotEntry.keys))] .ignored

/-- Reads the text of a snapshot. -/
def parse (contents : String) : Option (Snapshot α) :=
  (Json.Reader.read fileShape contents).bind ofJson?

/-- The text of a snapshot. -/
def fileText (snapshot : Snapshot α) : String := snapshot.json.pretty

end Snapshot

namespace Node

mutual

/-- A node and its live descendants, the last child first. -/
def backwards : Node α → List (Node α)
  | .container layer props children => .container layer props children :: backwardsAll children
  | node => [node]

def backwardsAll : List (Node α) → List (Node α)
  | [] => []
  | child :: rest =>
    backwardsAll rest ++ if child.isLive then backwards child else []

end

/-- The entry of a node for the next run. -/
def snapshotEntry (node : Node α) : SnapshotEntry α where
  name := node.layer.name
  structuralHash := node.fingerprint
  asset := Plan.primaryAsset node
  width := node.layer.width
  height := node.layer.height

/-- The snapshot of a planned and resolved tree. -/
def snapshot (root : Node α) : Snapshot α :=
  root.backwards.foldl (fun snapshot node => snapshot.insert node.layer.id node.snapshotEntry)
    .empty

end Node

/-- The ids of the nodes that differ from a snapshot and of those that do not. -/
structure Diff where
  changed : List String
  unchanged : List String
  added : List String
  removed : List String
  /-- The assets of unchanged nodes by node id. -/
  reuse : List (String × String)
deriving DecidableEq, Repr

namespace Diff

def empty : Diff := ⟨[], [], [], [], []⟩

/-- Compares one node with its entry. -/
def step (previous : Option (Snapshot α)) (diff : Diff) (node : Node α) : Diff :=
  let id := node.layer.id
  match previous.bind (·.get? id) with
  | none => { diff with added := insertText id diff.added }
  | some entry =>
    if entry.structuralHash = node.fingerprint then
      { diff with
        unchanged := insertText id diff.unchanged
        reuse :=
          match entry.asset with
          | some asset => insertSorted id asset diff.reuse
          | none => diff.reuse }
    else { diff with changed := insertText id diff.changed }

/-- Compares every live node of a planned tree with a snapshot. -/
def of (root : Node α) (previous : Option (Snapshot α)) : Diff :=
  let nodes := root.backwards
  let found := nodes.foldl (step previous) empty
  match previous with
  | none => found
  | some snapshot =>
    { found with
      removed := (snapshot.entries.map (·.1)).filter fun id =>
        !nodes.any fun node => node.layer.id == id }

/-- Fills the picture that stands for the node, if it has one that lacks an asset; counts it. -/
def reuseNotes (asset : String) (notes : Annotations α) : Annotations α × Nat :=
  match notes.raster, notes.background with
  | some picture, _ =>
    if picture.asset.isNone then
      ({ notes with raster := some { picture with asset := some asset } }, 1)
    else (notes, 0)
  | none, some picture =>
    if picture.asset.isNone then
      ({ notes with background := some { picture with asset := some asset } }, 1)
    else (notes, 0)
  | none, none => (notes, 0)

/-- Fills the picture of a layer whose id has an asset to reuse. -/
def reuseLayer (reuse : List (String × String)) (layer : Layer α) : Layer α × Nat :=
  match reuse.lookup layer.id with
  | some asset =>
    let (notes, count) := reuseNotes asset layer.annotations
    ({ layer with annotations := notes }, count)
  | none => (layer, 0)

mutual

/-- Carries the assets of the previous run onto unchanged nodes, and counts the pictures filled. -/
def applyReuse (reuse : List (String × String)) : Node α → Node α × Nat
  | .text layer content =>
    let (layer, count) := reuseLayer reuse layer
    (.text layer content, count)
  | .container layer props children =>
    let (layer, count) := reuseLayer reuse layer
    let (children, below) := applyReuseAll reuse children
    (.container layer props children, count + below)
  | .shape layer kind =>
    let (layer, count) := reuseLayer reuse layer
    (.shape layer kind, count)

def applyReuseAll (reuse : List (String × String)) : List (Node α) → List (Node α) × Nat
  | [] => ([], 0)
  | child :: rest =>
    let (filled, own) := if child.isLive then applyReuse reuse child else (child, 0)
    let (rest, others) := applyReuseAll reuse rest
    (filled :: rest, own + others)

end

def json (diff : Diff) : Json :=
  .object [("changed", Json.texts diff.changed), ("unchanged", Json.texts diff.unchanged),
    ("added", Json.texts diff.added), ("removed", Json.texts diff.removed),
    ("reuse", .object (diff.reuse.map fun (id, asset) => (id, .string asset)))]

end Diff
end DesignCompiler
