import DesignCompiler.Json.Record
import DesignCompiler.Scalar

/-!
Colors, points and rectangles of a design, and how files hold them.
-/
namespace DesignCompiler

variable {α : Type} [Scalar α]

/-- A color whose parts are shares of one. -/
structure Color (α : Type) where
  r : α
  g : α
  b : α
  a : α

structure Point (α : Type) where
  x : α
  y : α

/-- A rectangle by its corner and its extent. -/
structure Rect (α : Type) where
  x : α
  y : α
  width : α
  height : α

namespace Color

def black : Color α := ⟨0, 0, 0, 1⟩

def white : Color α := ⟨1, 1, 1, 1⟩

def hexByte (value : UInt8) : String :=
  String.ofList [Nat.digitChar (value.toNat / 16), Nat.digitChar (value.toNat % 16)]

/-- The opaque color as a number sign and three bytes in hexadecimal. -/
def hex (color : Color α) : String :=
  "#" ++ hexByte (Scalar.channel color.r) ++ hexByte (Scalar.channel color.g) ++
    hexByte (Scalar.channel color.b)

def ofJson? (value : Json) : Option (Color α) := do
  let fields ← Json.record? ["r", "g", "b", "a"] value
  return {
    r := ← fields.required "r" Scalar.ofJson?
    g := ← fields.required "g" Scalar.ofJson?
    b := ← fields.required "b" Scalar.ofJson?
    a := ← fields.orElse "a" 1 Scalar.ofJson? }

def json (color : Color α) : Json :=
  .object [("r", Scalar.json color.r), ("g", Scalar.json color.g), ("b", Scalar.json color.b),
    ("a", Scalar.json color.a)]

end Color

namespace Point

def zero : Point α := ⟨0, 0⟩

def ofJson? (value : Json) : Option (Point α) := do
  let fields ← Json.record? ["x", "y"] value
  return {
    x := ← fields.required "x" Scalar.ofJson?
    y := ← fields.required "y" Scalar.ofJson? }

def json (point : Point α) : Json :=
  .object [("x", Scalar.json point.x), ("y", Scalar.json point.y)]

end Point

namespace Rect

def json (rect : Rect α) : Json :=
  .object [("x", Scalar.json rect.x), ("y", Scalar.json rect.y),
    ("width", Scalar.json rect.width), ("height", Scalar.json rect.height)]

end Rect

/-- The rounding of the corners of a box: one radius, or one for each corner from the top left
around. -/
inductive Corners (α : Type) where
  | uniform (radius : α)
  | each (topLeft topRight bottomRight bottomLeft : α)

namespace Corners

/-- Whether all corners have the radius of the first. -/
def isUniform : Corners α → Bool
  | uniform _ => true
  | each a b c d =>
    [a, b, c, d].all fun radius => decide (Scalar.abs (radius - a) < Scalar.epsilon)

/-- The largest radius; of four radii none counts for less than zero. -/
def largest : Corners α → α
  | uniform radius => radius
  | each a b c d => [a, b, c, d].foldl Scalar.greatest 0

def ofJson? : Json → Option (Corners α)
  | .array [a, b, c, d] => do
    return .each (← Scalar.ofJson? a) (← Scalar.ofJson? b) (← Scalar.ofJson? c)
      (← Scalar.ofJson? d)
  | value => (Scalar.ofJson? value).map uniform

def json : Corners α → Json
  | uniform radius => Scalar.json radius
  | each a b c d => .array [Scalar.json a, Scalar.json b, Scalar.json c, Scalar.json d]

end Corners
end DesignCompiler
