import DesignCompiler.Classification
import DesignCompiler.Diagnostics
import DesignCompiler.Signature

/-!
Planning: which pictures each node needs, which of them still lack an asset, and filling in the
assets once they are known.
-/
namespace DesignCompiler

variable {α : Type} [Scalar α]

/-- A picture without an asset, and the first node that needs it. -/
structure UploadJob where
  hash : String
  nodeId : String
  nodeName : String
deriving DecidableEq, Repr

namespace UploadJob

def json (job : UploadJob) : Json :=
  .object [("hash", .string job.hash), ("nodeId", .string job.nodeId),
    ("nodeName", .string job.nodeName)]

end UploadJob

namespace Plan

def picture (hash : String) : Picture := ⟨hash, none⟩

def shadowSkipped (layer : Layer α) : Warning :=
  .about .shadowSkipped layer.id
    ("detached shadow for '" ++ layer.name ++ "' skipped: parent layout owns sibling positions")

/-- The annotations of a node, and a warning if its shadow cannot be drawn. -/
def notes (rules : RuleSet) (parentFlow isRoot : Bool) (node : Node α) :
    Annotations α × List Warning :=
  let classification := node.classify rules
  let layer := node.layer
  let shadow := if isRoot then none else givenHash? layer.shadowHash
  ({ layer.annotations with
      nativeFill := classification.nativeFill.isSome
      renderBounds := layer.effectBounds
      raster :=
        if classification.needsRaster then
          some (picture (node.contentHash (rules.isFlattened layer)))
        else none
      background :=
        if classification.needsUnderlay layer then some (picture node.backgroundHash) else none
      shadow := if parentFlow then none else shadow.map picture },
    if parentFlow && shadow.isSome then [shadowSkipped layer] else [])

mutual

/-- Annotates a node and, below a container, its live children. -/
def annotateNode (rules : RuleSet) (parentFlow isRoot : Bool) : Node α → Node α × List Warning
  | .container layer props children =>
    let node : Node α := .container layer props children
    let (notes, warnings) := notes rules parentFlow isRoot node
    let layer := { layer with annotations := notes }
    if node.strategy rules == .container then
      let (children, below) := annotateAll rules props.layout.isSome children
      (.container layer props children, warnings ++ below)
    else (.container layer props children, warnings)
  | node =>
    let (notes, warnings) := notes rules parentFlow isRoot node
    (node.withLayer fun layer => { layer with annotations := notes }, warnings)

def annotateAll (rules : RuleSet) (flow : Bool) : List (Node α) → List (Node α) × List Warning
  | [] => ([], [])
  | child :: rest =>
    let (annotated, own) :=
      if child.isLive then annotateNode rules flow false child else (child, [])
    let (rest, others) := annotateAll rules flow rest
    (annotated :: rest, own ++ others)

end

/-- Annotates a whole tree. -/
def annotate (rules : RuleSet) (root : Node α) : Node α × List Warning :=
  annotateNode rules false true root

mutual

/-- A node and its live descendants, each before its children. -/
def emitted : Node α → List (Node α)
  | .container layer props children => .container layer props children :: emittedAll children
  | node => [node]

def emittedAll : List (Node α) → List (Node α)
  | [] => []
  | child :: rest => if child.isLive then emitted child ++ emittedAll rest else emittedAll rest

end

/-- The pictures of a node: its shadow, its background, itself. -/
def pictures (node : Node α) : List Picture :=
  let notes := node.layer.annotations
  notes.shadow.toList ++ notes.background.toList ++ notes.raster.toList

/-- The jobs for the pictures of a node that have no asset. -/
def openJobs (node : Node α) : List UploadJob :=
  ((pictures node).filter (·.asset.isNone)).map fun picture =>
    ⟨picture.hash, node.layer.id, node.layer.name⟩

/-- Keeps the first of the jobs for each hash. -/
def firstOfEach (jobs : List UploadJob) : List UploadJob :=
  jobs.foldl (fun kept job => if kept.any (·.hash == job.hash) then kept else kept ++ [job]) []

/-- One job for each hash that lacks an asset somewhere, in the order first seen. -/
def pendingJobs (root : Node α) : List UploadJob := firstOfEach ((emitted root).flatMap openJobs)

/-- The distinct hashes of all pictures, in the order first seen. -/
def requiredHashes (root : Node α) : List String :=
  (((emitted root).flatMap pictures).map (·.hash)).eraseDups

def fillPicture (lookup : String → Option String) (picture : Picture) : Picture :=
  if picture.asset.isNone then { picture with asset := lookup picture.hash } else picture

def fillNotes (lookup : String → Option String) (notes : Annotations α) : Annotations α :=
  { notes with
    shadow := notes.shadow.map (fillPicture lookup)
    background := notes.background.map (fillPicture lookup)
    raster := notes.raster.map (fillPicture lookup) }

mutual

/-- Fills in the assets of a node and of its live descendants. -/
def applyAssets (lookup : String → Option String) : Node α → Node α
  | .container layer props children =>
    .container { layer with annotations := fillNotes lookup layer.annotations } props
      (applyAssetsAll lookup children)
  | node => node.annotate (fillNotes lookup)

def applyAssetsAll (lookup : String → Option String) : List (Node α) → List (Node α)
  | [] => []
  | child :: rest =>
    (if child.isLive then applyAssets lookup child else child) :: applyAssetsAll lookup rest

end

/-- The picture that stands for a node as a whole: its own, else the one under its children. -/
def primary (node : Node α) : Option Picture :=
  node.layer.annotations.raster.or node.layer.annotations.background

def primaryAsset (node : Node α) : Option String := (primary node).bind (·.asset)

end Plan
end DesignCompiler
