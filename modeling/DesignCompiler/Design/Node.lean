import DesignCompiler.Design.Layout
import DesignCompiler.Design.Paint
import DesignCompiler.Design.Reaction
import DesignCompiler.Design.Text

/-!
Nodes of a design. What all nodes have in common is their layer; a node is a layer with text, with
children, or with a shape. The annotations of a layer are what the compiler found out about it; files
never hold them.
-/
namespace DesignCompiler

variable {α : Type} [Scalar α]

/-- An outline that a text took over from copies of itself. -/
structure InferredStroke (α : Type) where
  thickness : α
  color : Option (Color α)

/-- A picture that the output needs, by the hash of its content. -/
structure Picture where
  hash : String
  asset : Option String
deriving DecidableEq, Repr

/-- What the compiler found out about a layer. -/
structure Annotations (α : Type) where
  /-- The text is one of the copies that imitate an outline. -/
  duplicate : Bool
  inferredStroke : Option (InferredStroke α)
  /-- The picture that stands for the node itself. -/
  raster : Option Picture
  /-- The picture under the children of a container. -/
  background : Option Picture
  /-- The picture of a shadow, drawn apart from the node. -/
  shadow : Option Picture
  nativeFill : Bool
  renderBounds : Option (Rect α)

def Annotations.none : Annotations α where
  duplicate := false
  inferredStroke := Option.none
  raster := Option.none
  background := Option.none
  shadow := Option.none
  nativeFill := false
  renderBounds := Option.none

namespace Picture

def json (picture : Picture) : Json :=
  .object [("hash", .string picture.hash), ("assetId", Json.ofText? picture.asset)]

end Picture

namespace InferredStroke

def json (stroke : InferredStroke α) : Json :=
  .object [("thickness", Scalar.json stroke.thickness),
    ("color", Json.orNull Color.json stroke.color)]

end InferredStroke

namespace Annotations

def json (notes : Annotations α) : Json :=
  .object [("strokeDuplicate", .bool notes.duplicate),
    ("inferredStroke", Json.orNull InferredStroke.json notes.inferredStroke),
    ("raster", Json.orNull Picture.json notes.raster),
    ("background", Json.orNull Picture.json notes.background),
    ("shadow", Json.orNull Picture.json notes.shadow),
    ("nativeFill", .bool notes.nativeFill),
    ("renderBounds", Json.orNull Rect.json notes.renderBounds)]

end Annotations

structure Layer (α : Type) where
  id : String
  name : String
  visible : Bool
  x : α
  y : α
  width : α
  height : α
  rotation : α
  corners : Corners α
  fills : List (Paint α)
  strokes : List (Paint α)
  strokeWeight : α
  effects : List (Effect α)
  opacity : α
  constraints : Constraints
  sizingHorizontal : Sizing
  sizingVertical : Sizing
  reactions : List (Reaction α)
  /-- The hash that the export declares for the picture of the node. -/
  contentHash : Option String
  /-- The hash that the export declares for the picture of the node's shadow. -/
  shadowHash : Option String
  annotations : Annotations α

inductive ContainerKind where
  | frame
  | group
  | component
  | componentSet
  | componentInstance
  | pageSection
  | booleanOperation
deriving DecidableEq, Repr, Inhabited

def ContainerKind.names : List (String × ContainerKind) :=
  [("FRAME", .frame), ("GROUP", .group), ("COMPONENT", .component),
    ("COMPONENT_SET", .componentSet), ("INSTANCE", .componentInstance), ("SECTION", .pageSection),
    ("BOOLEAN_OPERATION", .booleanOperation)]

inductive ShapeKind where
  | rectangle
  | ellipse
  | vector
  | line
  | star
  | polygon
deriving DecidableEq, Repr, Inhabited

def ShapeKind.names : List (String × ShapeKind) :=
  [("RECTANGLE", .rectangle), ("ELLIPSE", .ellipse), ("VECTOR", .vector), ("LINE", .line),
    ("STAR", .star), ("POLYGON", .polygon)]

/-- What a container has besides its children. -/
structure ContainerProps (α : Type) where
  kind : ContainerKind
  layout : Option (FlowLayout α)
  clips : Bool

inductive Node (α : Type) where
  | text (layer : Layer α) (content : TextContent α)
  | container (layer : Layer α) (props : ContainerProps α) (children : List (Node α))
  | shape (layer : Layer α) (kind : ShapeKind)

namespace Layer

/-- A layer with an id, a name and a box, and all else left at its default. -/
def plain (id name : String) (box : Rect α) : Layer α where
  id := id
  name := name
  visible := true
  x := box.x
  y := box.y
  width := box.width
  height := box.height
  rotation := 0
  corners := .uniform 0
  fills := []
  strokes := []
  strokeWeight := 0
  effects := []
  opacity := 1
  constraints := .default
  sizingHorizontal := .fixed
  sizingVertical := .fixed
  reactions := []
  contentHash := none
  shadowHash := none
  annotations := .none

/-- Shown, and not given up as a copy. -/
def isLive (layer : Layer α) : Bool := layer.visible && !layer.annotations.duplicate

def visibleFills (layer : Layer α) : List (Paint α) := layer.fills.filter Paint.isVisible

def hasVisibleStroke (layer : Layer α) : Bool :=
  decide (0 < layer.strokeWeight) && layer.strokes.any Paint.isVisible

def hasVisibleEffect (layer : Layer α) : Bool := layer.effects.any Effect.isVisible

def hasGradientFill (layer : Layer α) : Bool := layer.visibleFills.any Paint.isGradient

/-- The first visible solid fill, its opacity taken into the color. -/
def firstSolid (layer : Layer α) : Option (Color α) :=
  (layer.visibleFills.findSome? Paint.solid?).map fun paint =>
    { paint.color with a := paint.color.a * paint.opacity }

/-- The sides of a box, counted from the corner of the node. -/
structure Sides (α : Type) where
  left : α
  top : α
  right : α
  bottom : α

/-- The sides after one more effect. A shadow reaches as far as its radius and spread around its
offset, a blur as far as its radius. -/
def Sides.reach (width height : α) (sides : Sides α) : Effect α → Sides α
  | .dropShadow shadow =>
    let reach := shadow.radius + shadow.spread
    { left := Scalar.least sides.left (shadow.offset.x - reach)
      top := Scalar.least sides.top (shadow.offset.y - reach)
      right := Scalar.greatest sides.right (width + shadow.offset.x + reach)
      bottom := Scalar.greatest sides.bottom (height + shadow.offset.y + reach) }
  | .layerBlur blur =>
    { left := Scalar.least sides.left (-blur.radius)
      top := Scalar.least sides.top (-blur.radius)
      right := Scalar.greatest sides.right (width + blur.radius)
      bottom := Scalar.greatest sides.bottom (height + blur.radius) }
  | _ => sides

/-- The box of the node together with its visible effects, if they reach beyond the node. -/
def effectBounds (layer : Layer α) : Option (Rect α) :=
  let own : Sides α := ⟨0, 0, layer.width, layer.height⟩
  let sides := (layer.effects.filter Effect.isVisible).foldl
    (Sides.reach layer.width layer.height) own
  if sides.left < 0 ∨ sides.top < 0 ∨ layer.width < sides.right ∨ layer.height < sides.bottom then
    some ⟨sides.left, sides.top, sides.right - sides.left, sides.bottom - sides.top⟩
  else none

end Layer

namespace Node

def layer : Node α → Layer α
  | text layer _ => layer
  | container layer _ _ => layer
  | shape layer _ => layer

def withLayer (change : Layer α → Layer α) : Node α → Node α
  | text layer content => text (change layer) content
  | container layer props children => container (change layer) props children
  | shape layer kind => shape (change layer) kind

def annotate (change : Annotations α → Annotations α) (node : Node α) : Node α :=
  node.withLayer fun layer => { layer with annotations := change layer.annotations }

/-- The node moved within its parent. -/
def moved (dx dy : α) (node : Node α) : Node α :=
  node.withLayer fun layer => { layer with x := layer.x + dx, y := layer.y + dy }

def tag : Node α → String
  | text .. => "TEXT"
  | container _ props _ => Json.nameIn ContainerKind.names props.kind
  | shape _ kind => Json.nameIn ShapeKind.names kind

def children : Node α → List (Node α)
  | container _ _ children => children
  | _ => []

def isLive (node : Node α) : Bool := node.layer.isLive

/-- Children that reach the output. -/
def liveChildren (node : Node α) : List (Node α) := node.children.filter isLive

def content? : Node α → Option (TextContent α)
  | text _ content => some content
  | _ => none

def isText : Node α → Bool
  | text .. => true
  | _ => false

def layout? : Node α → Option (FlowLayout α)
  | container _ props _ => props.layout
  | _ => none

def clips : Node α → Bool
  | container _ props _ => props.clips
  | _ => false

mutual

/-- The number of nodes in a tree. -/
def size : Node α → Nat
  | text .. => 1
  | container _ _ children => 1 + sizes children
  | shape .. => 1

def sizes : List (Node α) → Nat
  | [] => 0
  | node :: rest => node.size + sizes rest

end

mutual

/-- All nodes of a tree, each before its children. -/
def preorder : Node α → List (Node α)
  | node@(text ..) => [node]
  | node@(container _ _ children) => node :: preorders children
  | node@(shape ..) => [node]

def preorders : List (Node α) → List (Node α)
  | [] => []
  | node :: rest => node.preorder ++ preorders rest

end

end Node
end DesignCompiler
