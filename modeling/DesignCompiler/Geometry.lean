import DesignCompiler.Diagnostics
import DesignCompiler.Rules

/-!
Positions and sizes as shares of the parent plus pixels. Children of a flow are placed by the flow,
the root stands in the middle of the screen, and all others follow their constraints against the box
of the parent.
-/
namespace DesignCompiler

variable {α : Type} [Scalar α]

/-- A share of the parent's extent and a number of pixels. -/
structure UDim (α : Type) where
  scale : α
  offset : α

structure UDim2 (α : Type) where
  x : UDim α
  y : UDim α

structure Geometry (α : Type) where
  position : UDim2 α
  size : UDim2 α
  anchor : Point α

/-- The box that a child is placed in. -/
structure ParentFrame (α : Type) where
  flow : Bool
  width : α
  height : α

namespace UDim

def pixels (offset : α) : UDim α := ⟨0, offset⟩

def share (scale : α) : UDim α := ⟨scale, 0⟩

def json (dim : UDim α) : Json :=
  .object [("scale", Scalar.json dim.scale), ("offset", Scalar.json dim.offset)]

end UDim

namespace UDim2

def zero : UDim2 α := ⟨.pixels 0, .pixels 0⟩

def pixels (x y : α) : UDim2 α := ⟨.pixels x, .pixels y⟩

def shares (x y : α) : UDim2 α := ⟨.share x, .share y⟩

def json (dims : UDim2 α) : Json := .object [("x", dims.x.json), ("y", dims.y.json)]

end UDim2

namespace ParentFrame

def of (node : Node α) : ParentFrame α :=
  ⟨node.layout?.isSome, node.layer.width, node.layer.height⟩

def free (width height : α) : ParentFrame α := ⟨false, width, height⟩

end ParentFrame

/-- The placement on one axis. -/
structure AxisPlacement (α : Type) where
  position : UDim α
  size : UDim α
  anchor : α

namespace Geometry

def json (geometry : Geometry α) : Json :=
  .object [("position", geometry.position.json), ("size", geometry.size.json),
    ("anchor", geometry.anchor.json)]

/-- Covers the whole parent. -/
def full : Geometry α := ⟨.zero, .shares 1 1, .zero⟩

def flowSize (sizing : Sizing) (extent : α) : UDim α :=
  match sizing with
  | .fill => .share 1
  | .hug | .fixed => .pixels extent

/-- A shared extent needs a parent that has one. -/
def degenerate (constraint : Constraint) (parent : α) : Bool :=
  constraint == .scale && !decide (0 < parent)

/-- The placement that keeps what a constraint keeps. A shared one against a parent without extent
is placed by pixels. -/
def placeAxis (constraint : Constraint) (position size parent : α) : AxisPlacement α :=
  match constraint with
  | .min => ⟨.pixels position, .pixels size, 0⟩
  | .max => ⟨⟨1, position + size - parent⟩, .pixels size, 1⟩
  | .center => ⟨⟨Scalar.half, position + size / 2 - parent / 2⟩, .pixels size, Scalar.half⟩
  | .stretch => ⟨.pixels position, ⟨1, size - parent⟩, 0⟩
  | .scale =>
    if 0 < parent then ⟨.share (position / parent), .share (size / parent), 0⟩
    else ⟨.pixels position, .pixels size, 0⟩

def degenerateWarning (id : String) : Warning :=
  .about .degenerateParent id
    "scale constraint against a zero-sized parent; using fixed offsets"

/-- The constraints that count: stretched on both axes if a rule demands it. -/
def constraintsOf (rules : RuleSet) (layer : Layer α) : Constraints :=
  if rules.forcesStretch layer then ⟨.stretch, .stretch⟩ else layer.constraints

/-- Places a free node against the box of its parent. -/
def free (constraints : Constraints) (layer : Layer α) (parent : ParentFrame α) : Geometry α :=
  let x := placeAxis constraints.horizontal layer.x layer.width parent.width
  let y := placeAxis constraints.vertical layer.y layer.height parent.height
  ⟨⟨x.position, y.position⟩, ⟨x.size, y.size⟩, ⟨x.anchor, y.anchor⟩⟩

/-- Places a node, and warns of each axis on which a shared extent has nothing to share. -/
def place (rules : RuleSet) (layer : Layer α) (parent : ParentFrame α) (isRoot : Bool) :
    Geometry α × List Warning :=
  if parent.flow && !isRoot then
    (⟨.zero, ⟨flowSize layer.sizingHorizontal layer.width,
      flowSize layer.sizingVertical layer.height⟩, .zero⟩, [])
  else if isRoot then
    (⟨.shares Scalar.half Scalar.half, .pixels layer.width layer.height,
      ⟨Scalar.half, Scalar.half⟩⟩, [])
  else
    let constraints := constraintsOf rules layer
    (free constraints layer parent,
      (if degenerate constraints.horizontal parent.width then [degenerateWarning layer.id]
        else []) ++
      (if degenerate constraints.vertical parent.height then [degenerateWarning layer.id]
        else []))

end Geometry

/-- Whether a box reaches out of the box of its parent. -/
def Layer.overflows (layer : Layer α) (width height : α) : Bool :=
  decide (layer.x < 0) || decide (layer.y < 0) || decide (width < layer.x + layer.width) ||
    decide (height < layer.y + layer.height)

end DesignCompiler
