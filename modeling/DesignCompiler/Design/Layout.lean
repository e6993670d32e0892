import DesignCompiler.Json.Record
import DesignCompiler.Scalar

/-!
How a node is placed: constraints against the box of its parent, its sizing within a flow, and the
flow that a container runs its children through.
-/
namespace DesignCompiler

variable {α : Type} [Scalar α]

/-- What keeps still on one axis when the parent is resized. -/
inductive Constraint where
  | min
  | max
  | center
  | stretch
  | scale
deriving DecidableEq, Repr, Inhabited

def Constraint.names : List (String × Constraint) :=
  [("MIN", .min), ("LEFT", .min), ("TOP", .min), ("MAX", .max), ("RIGHT", .max), ("BOTTOM", .max),
    ("CENTER", .center), ("STRETCH", .stretch), ("LEFT_RIGHT", .stretch), ("TOP_BOTTOM", .stretch),
    ("SCALE", .scale)]

structure Constraints where
  horizontal : Constraint
  vertical : Constraint
deriving DecidableEq, Repr, Inhabited

namespace Constraints

def default : Constraints := ⟨.min, .min⟩

def keys : List String := ["horizontal", "vertical"]

def ofJson? (value : Json) : Option Constraints := do
  let fields ← Json.record? keys value
  return {
    horizontal := ← fields.orElse "horizontal" .min (Json.oneOf? Constraint.names)
    vertical := ← fields.orElse "vertical" .min (Json.oneOf? Constraint.names) }

def json (constraints : Constraints) : Json :=
  .object [("horizontal", .string (Json.nameIn Constraint.names constraints.horizontal)),
    ("vertical", .string (Json.nameIn Constraint.names constraints.vertical))]

end Constraints

/-- The extent of a child within a flow. -/
inductive Sizing where
  | fixed
  | fill
  | hug
deriving DecidableEq, Repr, Inhabited

def Sizing.names : List (String × Sizing) :=
  [("FIXED", .fixed), ("FILL", .fill), ("HUG", .hug)]

inductive FlowAxis where
  | horizontal
  | vertical
deriving DecidableEq, Repr, Inhabited

def FlowAxis.names : List (String × FlowAxis) :=
  [("HORIZONTAL", .horizontal), ("VERTICAL", .vertical)]

inductive AxisAlign where
  | min
  | center
  | max
  | spaceBetween
  | baseline
deriving DecidableEq, Repr, Inhabited

def AxisAlign.names : List (String × AxisAlign) :=
  [("MIN", .min), ("CENTER", .center), ("MAX", .max), ("SPACE_BETWEEN", .spaceBetween),
    ("BASELINE", .baseline)]

/-- A list of children one after the other along an axis. -/
structure FlowLayout (α : Type) where
  mode : FlowAxis
  itemSpacing : α
  paddingLeft : α
  paddingRight : α
  paddingTop : α
  paddingBottom : α
  primaryAlign : AxisAlign
  counterAlign : AxisAlign
  wrap : Bool

namespace FlowLayout

def keys : List String :=
  ["mode", "itemSpacing", "paddingLeft", "paddingRight", "paddingTop", "paddingBottom",
    "primaryAxisAlignItems", "counterAxisAlignItems", "wrap"]

def hasPadding (layout : FlowLayout α) : Bool :=
  [layout.paddingLeft, layout.paddingRight, layout.paddingTop, layout.paddingBottom].any (· != 0)

def ofJson? (value : Json) : Option (FlowLayout α) := do
  let fields ← Json.record? keys value
  return {
    mode := ← fields.required "mode" (Json.oneOf? FlowAxis.names)
    itemSpacing := ← fields.orElse "itemSpacing" 0 Scalar.ofJson?
    paddingLeft := ← fields.orElse "paddingLeft" 0 Scalar.ofJson?
    paddingRight := ← fields.orElse "paddingRight" 0 Scalar.ofJson?
    paddingTop := ← fields.orElse "paddingTop" 0 Scalar.ofJson?
    paddingBottom := ← fields.orElse "paddingBottom" 0 Scalar.ofJson?
    primaryAlign := ← fields.orElse "primaryAxisAlignItems" .min (Json.oneOf? AxisAlign.names)
    counterAlign := ← fields.orElse "counterAxisAlignItems" .min (Json.oneOf? AxisAlign.names)
    wrap := ← fields.orElse "wrap" false Json.bool? }

def json (layout : FlowLayout α) : Json :=
  .object [("mode", .string (Json.nameIn FlowAxis.names layout.mode)),
    ("itemSpacing", Scalar.json layout.itemSpacing),
    ("paddingLeft", Scalar.json layout.paddingLeft),
    ("paddingRight", Scalar.json layout.paddingRight),
    ("paddingTop", Scalar.json layout.paddingTop),
    ("paddingBottom", Scalar.json layout.paddingBottom),
    ("primaryAxisAlignItems", .string (Json.nameIn AxisAlign.names layout.primaryAlign)),
    ("counterAxisAlignItems", .string (Json.nameIn AxisAlign.names layout.counterAlign)),
    ("wrap", .bool layout.wrap)]

end FlowLayout
end DesignCompiler
