import DesignCompiler.Design.Color

/-!
Paints and effects of a node.
-/
namespace DesignCompiler

variable {α : Type} [Scalar α]

structure ColorStop (α : Type) where
  position : α
  color : Color α

inductive GradientShape where
  | linear
  | radial
  | angular
  | diamond
deriving DecidableEq, Repr

namespace GradientShape

/-- The shape as warnings spell it. -/
def label : GradientShape → String
  | linear => "Linear"
  | radial => "Radial"
  | angular => "Angular"
  | diamond => "Diamond"

def tag : GradientShape → String
  | linear => "GRADIENT_LINEAR"
  | radial => "GRADIENT_RADIAL"
  | angular => "GRADIENT_ANGULAR"
  | diamond => "GRADIENT_DIAMOND"

def ofTag? : String → Option GradientShape
  | "GRADIENT_LINEAR" => some linear
  | "GRADIENT_RADIAL" => some radial
  | "GRADIENT_ANGULAR" => some angular
  | "GRADIENT_DIAMOND" => some diamond
  | _ => none

end GradientShape

structure SolidPaint (α : Type) where
  visible : Bool
  opacity : α
  color : Color α

structure GradientPaint (α : Type) where
  visible : Bool
  opacity : α
  stops : List (ColorStop α)
  /-- The points that the gradient runs from and to, and its side handle. -/
  handles : List (Point α)

structure ImagePaint (α : Type) where
  visible : Bool
  opacity : α
  imageHash : Option String
  scaleMode : Option String

inductive Paint (α : Type) where
  | solid (paint : SolidPaint α)
  | gradient (shape : GradientShape) (paint : GradientPaint α)
  | image (paint : ImagePaint α)
  | unsupported

namespace ColorStop

def ofJson? (value : Json) : Option (ColorStop α) := do
  let fields ← Json.record? ["position", "color"] value
  return {
    position := ← fields.required "position" Scalar.ofJson?
    color := ← fields.required "color" Color.ofJson? }

def json (stop : ColorStop α) : Json :=
  .object [("position", Scalar.json stop.position), ("color", stop.color.json)]

end ColorStop

namespace Paint

def isVisible : Paint α → Bool
  | solid paint => paint.visible
  | gradient _ paint => paint.visible
  | image paint => paint.visible
  | unsupported => true

def solid? : Paint α → Option (SolidPaint α)
  | solid paint => some paint
  | _ => none

def isGradient : Paint α → Bool
  | gradient .. => true
  | _ => false

def tags : List String :=
  ["SOLID", "GRADIENT_LINEAR", "GRADIENT_RADIAL", "GRADIENT_ANGULAR", "GRADIENT_DIAMOND", "IMAGE"]

def solidOfJson? (value : Json) : Option (SolidPaint α) := do
  let fields ← Json.record? ["visible", "opacity", "color"] value
  return {
    visible := ← fields.orElse "visible" true Json.bool?
    opacity := ← fields.orElse "opacity" 1 Scalar.ofJson?
    color := ← fields.required "color" Color.ofJson? }

def gradientOfJson? (value : Json) : Option (GradientPaint α) := do
  let fields ←
    Json.record? ["visible", "opacity", "gradientStops", "gradientHandlePositions"] value
  return {
    visible := ← fields.orElse "visible" true Json.bool?
    opacity := ← fields.orElse "opacity" 1 Scalar.ofJson?
    stops := ← fields.orElse "gradientStops" [] (Json.list? ColorStop.ofJson?)
    handles := ← fields.orElse "gradientHandlePositions" [] (Json.list? Point.ofJson?) }

def imageOfJson? (value : Json) : Option (ImagePaint α) := do
  let fields ← Json.record? ["visible", "opacity", "imageHash", "scaleMode"] value
  return {
    visible := ← fields.orElse "visible" true Json.bool?
    opacity := ← fields.orElse "opacity" 1 Scalar.ofJson?
    imageHash := ← fields.orElse "imageHash" none (Json.optional? Json.text?)
    scaleMode := ← fields.orElse "scaleMode" none (Json.optional? Json.text?) }

/-- Reads a paint by its tag; a paint with an unknown tag is unsupported. -/
def ofJson? (value : Json) : Option (Paint α) := do
  let (tag, content) ← Json.tagged? tags value
  match tag with
  | none => (Json.nothing? content).map fun _ => unsupported
  | some "SOLID" => (solidOfJson? content).map solid
  | some "IMAGE" => (imageOfJson? content).map image
  | some tag => do
    let shape ← GradientShape.ofTag? tag
    return gradient shape (← gradientOfJson? content)

def json : Paint α → Json
  | solid paint =>
    .object [("type", .string "SOLID"), ("visible", .bool paint.visible),
      ("opacity", Scalar.json paint.opacity), ("color", paint.color.json)]
  | gradient shape paint =>
    .object [("type", .string shape.tag), ("visible", .bool paint.visible),
      ("opacity", Scalar.json paint.opacity),
      ("gradientStops", .array (paint.stops.map ColorStop.json)),
      ("gradientHandlePositions", .array (paint.handles.map Point.json))]
  | image paint =>
    .object [("type", .string "IMAGE"), ("visible", .bool paint.visible),
      ("opacity", Scalar.json paint.opacity), ("imageHash", Json.ofText? paint.imageHash),
      ("scaleMode", Json.ofText? paint.scaleMode)]
  | unsupported => .object [("type", .string "UNSUPPORTED")]

end Paint

structure ShadowEffect (α : Type) where
  visible : Bool
  color : Color α
  offset : Point α
  radius : α
  spread : α

structure BlurEffect (α : Type) where
  visible : Bool
  radius : α

inductive Effect (α : Type) where
  | dropShadow (shadow : ShadowEffect α)
  | innerShadow (shadow : ShadowEffect α)
  | layerBlur (blur : BlurEffect α)
  | backgroundBlur (blur : BlurEffect α)
  | unsupported

namespace Effect

def isVisible : Effect α → Bool
  | dropShadow shadow => shadow.visible
  | innerShadow shadow => shadow.visible
  | layerBlur blur => blur.visible
  | backgroundBlur blur => blur.visible
  | unsupported => false

def tags : List String := ["DROP_SHADOW", "INNER_SHADOW", "LAYER_BLUR", "BACKGROUND_BLUR"]

/-- The color of a shadow that names none: a quarter of black. -/
def shadowColor : Color α := { Color.black with a := 1 / 4 }

def shadowOfJson? (value : Json) : Option (ShadowEffect α) := do
  let fields ← Json.record? ["visible", "color", "offset", "radius", "spread"] value
  return {
    visible := ← fields.orElse "visible" true Json.bool?
    color := ← fields.orElse "color" shadowColor Color.ofJson?
    offset := ← fields.orElse "offset" Point.zero Point.ofJson?
    radius := ← fields.orElse "radius" 0 Scalar.ofJson?
    spread := ← fields.orElse "spread" 0 Scalar.ofJson? }

def blurOfJson? (value : Json) : Option (BlurEffect α) := do
  let fields ← Json.record? ["visible", "radius"] value
  return {
    visible := ← fields.orElse "visible" true Json.bool?
    radius := ← fields.orElse "radius" 0 Scalar.ofJson? }

/-- Reads an effect by its tag; an effect with an unknown tag is unsupported. -/
def ofJson? (value : Json) : Option (Effect α) := do
  let (tag, content) ← Json.tagged? tags value
  match tag with
  | none => (Json.nothing? content).map fun _ => unsupported
  | some "DROP_SHADOW" => (shadowOfJson? content).map dropShadow
  | some "INNER_SHADOW" => (shadowOfJson? content).map innerShadow
  | some "LAYER_BLUR" => (blurOfJson? content).map layerBlur
  | some "BACKGROUND_BLUR" => (blurOfJson? content).map backgroundBlur
  | some _ => none

def shadowMembers (shadow : ShadowEffect α) : List (String × Json) :=
  [("visible", .bool shadow.visible), ("color", shadow.color.json), ("offset", shadow.offset.json),
    ("radius", Scalar.json shadow.radius), ("spread", Scalar.json shadow.spread)]

def blurMembers (blur : BlurEffect α) : List (String × Json) :=
  [("visible", .bool blur.visible), ("radius", Scalar.json blur.radius)]

def json : Effect α → Json
  | dropShadow shadow => .object (("type", .string "DROP_SHADOW") :: shadowMembers shadow)
  | innerShadow shadow => .object (("type", .string "INNER_SHADOW") :: shadowMembers shadow)
  | layerBlur blur => .object (("type", .string "LAYER_BLUR") :: blurMembers blur)
  | backgroundBlur blur => .object (("type", .string "BACKGROUND_BLUR") :: blurMembers blur)
  | unsupported => .object [("type", .string "UNSUPPORTED")]

end Effect
end DesignCompiler
