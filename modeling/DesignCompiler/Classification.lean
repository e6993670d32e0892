import DesignCompiler.Rules

/-!
What becomes of a node in the output: a picture, a label, or a frame that holds its children.
-/
namespace DesignCompiler

variable {α : Type} [Scalar α]

inductive Strategy where
  | raster
  | text
  | container
deriving DecidableEq, Repr

def Strategy.label : Strategy → String
  | raster => "Raster"
  | text => "Text"
  | container => "Container"

structure Classification (α : Type) where
  strategy : Strategy
  /-- The one flat color of the node, if the engine can paint it by itself. -/
  nativeFill : Option (Color α)
  /-- A leaf with nothing to draw. -/
  paintless : Bool

namespace Layer

/-- The color of a node with a single visible fill that is solid, and no visible stroke. -/
def nativeSolidFill (layer : Layer α) : Option (Color α) :=
  if layer.hasVisibleStroke then none
  else match layer.visibleFills with
    | [.solid paint] => some { paint.color with a := paint.color.a * paint.opacity }
    | _ => none

end Layer

namespace Node

/-- The strategy of a node that is not drawn as one picture. -/
def ownStrategy : Node α → Strategy
  | text .. => .text
  | container _ _ children => if children.isEmpty then .raster else .container
  | shape .. => .raster

def strategy (rules : RuleSet) (node : Node α) : Strategy :=
  if rules.isFlattened node.layer then .raster else node.ownStrategy

/-- The class of a node depends on the node and the rules alone. -/
def classify (rules : RuleSet) (node : Node α) : Classification α :=
  let flattened := rules.isFlattened node.layer
  let strategy := node.strategy rules
  { strategy
    nativeFill :=
      if flattened || strategy == .text then none else node.layer.nativeSolidFill
    paintless :=
      !flattened && strategy == .raster && node.children.isEmpty &&
        node.layer.visibleFills.isEmpty && !node.layer.hasVisibleStroke &&
        !node.layer.hasVisibleEffect }

end Node

namespace Classification

/-- The node's own paint has to be a picture. -/
def needsRaster (classification : Classification α) : Bool :=
  classification.strategy == .raster && classification.nativeFill.isNone &&
    !classification.paintless

/-- The paint of a container has to be a picture under its children. -/
def needsUnderlay (classification : Classification α) (layer : Layer α) : Bool :=
  classification.strategy == .container && classification.nativeFill.isNone &&
    (!layer.visibleFills.isEmpty || layer.hasVisibleStroke)

end Classification
end DesignCompiler
