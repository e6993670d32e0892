import DesignCompiler.Assembly.Label
import DesignCompiler.Placement

/-!
The instances of a design. Siblings are stacked in the order of the design: each takes the next
z-index, the background of a container lies under all of them and its click target over them. A flow
that also has a background or a click target keeps its children in a frame of their own, so that the
flow does not arrange those two as well.
-/
namespace DesignCompiler

variable {α : Type} [Scalar α]

abbrev Assembly (β : Type) := StateT Diagnostics (Except Failure) β

namespace Assembly

open Decoration (leaf placement fillParent)

def warnAll (warnings : List Warning) : Assembly Unit :=
  modify fun log => log.warnAll warnings

def keep {β : Type} (result : β × List Warning) : Assembly β := do
  warnAll result.2
  return result.1

def assetUrl (picture : Picture) (id : String) : Except Failure String :=
  match picture.asset with
  | some asset => .ok ("rbxassetid://" ++ asset)
  | none => .error (.missingRawContent picture.hash id)

/-- The layer with other bounds, counted from its own corner. -/
def ghost (layer : Layer α) (bounds : Rect α) : Layer α :=
  { layer with x := layer.x + bounds.x, y := layer.y + bounds.y
               width := bounds.width, height := bounds.height }

/-- Where a node lands among its siblings. -/
structure Slot (α : Type) where
  frame : ParentFrame α
  isRoot : Bool
  zIndex : Int
  layoutOrder : Option Int

def className (classification : Classification α) : String :=
  match classification.strategy with
  | .container => "Frame"
  | .text => "TextLabel"
  | .raster => if classification.needsRaster then "ImageLabel" else "Frame"

/-- The layer that a node is placed by: a picture with effects around it takes up its render bounds,
unless it is the root or a flow places it. -/
def placedLayer (layer : Layer α) (needsRaster : Bool) (slot : Slot α) : Layer α :=
  match layer.annotations.renderBounds with
  | some bounds =>
    if needsRaster && !slot.isRoot && !slot.frame.flow then ghost layer bounds else layer
  | none => layer

/-- Where the instance of a node stands in a slot. -/
def nodeGeometry (rules : RuleSet) (node : Node α) (slot : Slot α) : Geometry α × List Warning :=
  Geometry.place rules (placedLayer node.layer (node.classify rules).needsRaster slot) slot.frame
    slot.isRoot

def frameProperties (geometry : Geometry α) (layer : Layer α) (slot : Slot α) :
    List (String × Property α) :=
  placement geometry ++ [("ZIndex", .int slot.zIndex)] ++
  (match slot.layoutOrder with
    | some order => [("LayoutOrder", .int order)]
    | none => []) ++
  (if layer.rotation != 0 then [("Rotation", .float (-layer.rotation))] else []) ++
  [("BorderSizePixel", .int 0)]

/-- The transparency of a picture under the opacity of its node. -/
def imageTransparency (opacity : α) : List (String × Property α) :=
  if opacity < 1 then [("ImageTransparency", .float (1 - Scalar.unit opacity))] else []

/-- Some visible fill asks for its image to fit instead of to cover. -/
def fits (layer : Layer α) : Bool :=
  layer.visibleFills.any fun
    | .image paint => paint.scaleMode == some "FIT"
    | _ => false

/-- What shows the picture at an address in place of a node. -/
def pictureProperties (layer : Layer α) (url : String) : List (String × Property α) :=
  [("Image", .content url), ("BackgroundTransparency", .float 1),
    ("ScaleType", .token (if fits layer then 3 else 0))] ++ imageTransparency layer.opacity

def picturePaint (layer : Layer α) : Except Failure (List (String × Property α)) :=
  match layer.annotations.raster with
  | none => .error (.config (.unplanned layer.id))
  | some picture => do return pictureProperties layer (← assetUrl picture layer.id)

def framePaint (layer : Layer α) (fill : Option (Color α)) :
    List (String × Property α) × List (Item α) × List Warning :=
  match fill with
  | none => ([("BackgroundTransparency", .float 1)], [], [])
  | some color =>
    let (corner, warnings) := Decoration.corner layer
    ([("BackgroundColor3", .color3 color),
      ("BackgroundTransparency", .float (Decoration.transparency color.a layer.opacity))],
      corner, warnings)

/-- The paint of a node itself: its properties and its decorations. -/
def paint (config : TextConfig) (classification : Classification α) (node : Node α) :
    Assembly (List (String × Property α) × List (Item α)) :=
  match classification.strategy with
  | .text =>
    match node.content? with
    | none => return ([], [])
    | some text => do
      let (properties, decorations, log) := Label.emit config node.layer text (← get)
      set log
      return (properties, decorations)
  | _ =>
    if classification.needsRaster then do
      return (← picturePaint node.layer, [])
    else do
      let (properties, decorations, warnings) := framePaint node.layer classification.nativeFill
      warnAll warnings
      return (properties, decorations)

/-- The picture under the children of a container. That of the root stays within its box. -/
def underlayItem (layer : Layer α) (isRoot : Bool) (url : String) : Item α :=
  let bounds :=
    match layer.annotations.renderBounds with
    | some bounds =>
      if isRoot then []
      else [("Position", Property.udim2 (.pixels bounds.x bounds.y)),
        ("Size", Property.udim2 (.pixels bounds.width bounds.height))]
    | none => []
  leaf "ImageLabel" "Background"
    (fillParent ++ bounds ++ [("Image", .content url), ("ZIndex", .int 0)] ++
      imageTransparency layer.opacity)

/-- The picture under the children of a container, if it has one. -/
def underlays (layer : Layer α) (isRoot : Bool) : Except Failure (List (Item α)) :=
  match layer.annotations.background with
  | some picture => do return [underlayItem layer isRoot (← assetUrl picture layer.id)]
  | none => return []

/-- Where the shadow of a node stands: it takes up the render bounds of the node. -/
def shadowGeometry (rules : RuleSet) (layer : Layer α) (frame : ParentFrame α) :
    Geometry α × List Warning :=
  let bounds := layer.annotations.renderBounds.getD ⟨0, 0, layer.width, layer.height⟩
  Geometry.place rules (ghost layer bounds) frame false

def shadowItem (layer : Layer α) (geometry : Geometry α) (zIndex : Int) (url : String) : Item α :=
  leaf "ImageLabel" (layer.name ++ "_Shadow")
    (placement geometry ++ [("Image", .content url), ("BackgroundTransparency", .float 1),
      ("BorderSizePixel", .int 0), ("ZIndex", .int zIndex)] ++
    if layer.rotation != 0 then [("Rotation", .float (-layer.rotation))] else [])

/-- The shadow directly under a node, if it has one. -/
def shadows (rules : RuleSet) (layer : Layer α) (frame : ParentFrame α) (zIndex : Int) :
    Assembly (List (Item α)) :=
  match layer.annotations.shadow with
  | some picture => do
    let geometry ← keep (shadowGeometry rules layer frame)
    return [shadowItem layer geometry zIndex (← assetUrl picture layer.id)]
  | none => return []

/-- The list that runs through the children of a node that is a flow. -/
def flowItems (node : Node α) : List (Item α) × List Warning :=
  match node.layout? with
  | some layout => Decoration.listLayout node.layer.id layout
  | none => ([], [])

def targets (rules : RuleSet) (layer : Layer α) (zIndex : Int) : List (Item α) :=
  if rules.isInteractive layer then [Decoration.clickTarget zIndex] else []

/-- A flow that also has a background or a click target keeps its children apart from those. -/
def keepsApart (rules : RuleSet) (node : Node α) : Bool :=
  node.layout?.isSome &&
    (rules.isInteractive node.layer || node.layer.annotations.background.isSome)

/-- A frame over the whole of its parent that shows nothing of its own. -/
def contentProperties : Properties α := Properties.setAll [] (fillParent ++ [("ZIndex", .int 1)])

/-- The frame for the children of a flow that has more than children. -/
def contentFrame (children : List (Item α)) : Item α :=
  .mk "Frame" "Content" contentProperties children

def leafItem (rules : RuleSet) (node : Node α) (properties : List (String × Property α))
    (decorations records : List (Item α)) : Item α :=
  .mk (className (node.classify rules)) node.layer.name (Properties.setAll [] properties)
    (decorations ++ records ++ targets rules node.layer 1)

/-- The item of a container around the items of its children, the next free z-index of which is
given. -/
def frameItem (rules : RuleSet) (node : Node α) (properties : List (String × Property α))
    (decorations background flow emitted records : List (Item α)) (next : Int) : Item α :=
  let apart := keepsApart rules node
  let clips := if node.clips then [("ClipsDescendants", Property.bool true)] else []
  let content := if apart then [contentFrame (flow ++ emitted)] else flow ++ emitted
  .mk (className (node.classify rules)) node.layer.name
    (Properties.setAll [] (properties ++ clips))
    (decorations ++ background ++ content ++ records ++
      targets rules node.layer (if apart then 2 else next))

mutual

/-- Emits a node in a slot, and all that is placed under it. -/
def emit (rules : RuleSet) (config : TextConfig) (slot : Slot α) : Placed α → Assembly (Item α)
  | .mk node _ children => do
    let geometry ← keep (nodeGeometry rules node slot)
    let (painted, decorations) ← paint config (node.classify rules) node
    let properties := frameProperties geometry node.layer slot ++ painted
    if node.strategy rules = .container then
      let background ← underlays node.layer slot.isRoot
      let flow ← keep (flowItems node)
      let (emitted, next) ← emitAll rules config (.of node) 1 0 children
      let records ← keep (Decoration.interactions node.layer)
      return frameItem rules node properties decorations background flow emitted records next
    else
      let records ← keep (Decoration.interactions node.layer)
      return leafItem rules node properties decorations records

/-- Emits siblings from a z-index and a layout order on, each after its shadow; also gives the next
free z-index. -/
def emitAll (rules : RuleSet) (config : TextConfig) (frame : ParentFrame α) (zIndex order : Int) :
    List (Placed α) → Assembly (List (Item α) × Int)
  | [] => return ([], zIndex)
  | placed :: rest => do
    warnAll placed.notice.toList
    let under ← shadows rules placed.node.layer frame zIndex
    let own := zIndex + under.length
    let slot : Slot α :=
      { frame, isRoot := false, zIndex := own
        layoutOrder := if frame.flow then some (order + 1) else none }
    let item ← emit rules config slot placed
    let (items, next) ← emitAll rules config frame (own + 1) (order + 1) rest
    return (under ++ item :: items, next)

end

def screen (name : String) (root : Item α) : Item α :=
  .mk "ScreenGui" name
    (Properties.setAll [] [("ZIndexBehavior", .token 1), ("ResetOnSpawn", .bool false)]) [root]

def rootSlot (root : Node α) : Slot α where
  frame := .free root.layer.width root.layer.height
  isRoot := true
  zIndex := 1
  layoutOrder := none

def assemble (rules : RuleSet) (config : TextConfig) (root : Node α) : Assembly (Arena α) := do
  let item ← emit rules config (rootSlot root) (Placement.settle rules false root none).1.1
  return Arena.empty.plant none (screen root.layer.name item)

end Assembly
end DesignCompiler
