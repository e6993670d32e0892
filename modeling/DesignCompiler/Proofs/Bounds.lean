import DesignCompiler.Arena
import DesignCompiler.Scalar.Rational
import Mathlib.Tactic.FieldSimp
import Mathlib.Tactic.Ring

/-!
The rectangles that positions and sizes stand for. A share and some pixels become an extent once that of
the parent is known. Whatever constraints a free node has, it takes up just the rectangle that the design
gives it.
-/
namespace DesignCompiler

/-- How much of an extent a share and some pixels are. -/
def UDim.along (dim : UDim Rat) (extent : Rat) : Rat := dim.scale * extent + dim.offset

namespace Rect

/-- A rectangle that is counted from the corner of another one. -/
def within (inner outer : Rect Rat) : Rect Rat :=
  ⟨outer.x + inner.x, outer.y + inner.y, inner.width, inner.height⟩

/-- The rectangle that a geometry takes up in one: its anchor, a point of itself, stands at its
position. -/
def part (outer : Rect Rat) (geometry : Geometry Rat) : Rect Rat :=
  let width := geometry.size.x.along outer.width
  let height := geometry.size.y.along outer.height
  Rect.within ⟨geometry.position.x.along outer.width - geometry.anchor.x * width,
    geometry.position.y.along outer.height - geometry.anchor.y * height, width, height⟩ outer

theorem within_within (inner between outer : Rect Rat) :
    (inner.within between).within outer = inner.within (between.within outer) := by
  simp only [within, add_assoc]

theorem within_corner (outer : Rect Rat) : within ⟨0, 0, outer.width, outer.height⟩ outer = outer := by
  simp [within]

end Rect

/-- The rectangle of a layer, counted from the corner of its parent. -/
def Layer.box (layer : Layer Rat) : Rect Rat := ⟨layer.x, layer.y, layer.width, layer.height⟩

/-- The rectangle of a layer, in the middle of another one. -/
def Layer.centered (layer : Layer Rat) (screen : Rect Rat) : Rect Rat :=
  Rect.within ⟨(screen.width - layer.width) / 2, (screen.height - layer.height) / 2, layer.width,
    layer.height⟩ screen

namespace Geometry

section Axis

variable (position size parent : Rat)

theorem along_placeAxis (constraint : Constraint) :
    (placeAxis constraint position size parent).size.along parent = size ∧
      (placeAxis constraint position size parent).position.along parent -
        (placeAxis constraint position size parent).anchor * size = position := by
  have half : (Scalar.half : Rat) = 1 / 2 := rfl
  cases constraint with
  | min | max | center | stretch =>
    simp only [placeAxis, UDim.pixels, UDim.along, half]
    constructor <;> ring
  | scale =>
    rw [placeAxis]
    split
    · rename_i positive
      have nonzero : parent ≠ 0 := ne_of_gt positive
      simp only [UDim.share, UDim.along]
      constructor <;> field_simp <;> ring
    · simp only [UDim.pixels, UDim.along]
      constructor <;> ring

end Axis

theorem part_free (constraints : Constraints) (layer : Layer Rat) {frame : ParentFrame Rat}
    {outer : Rect Rat} (width : frame.width = outer.width) (height : frame.height = outer.height) :
    outer.part (free constraints layer frame) = layer.box.within outer := by
  obtain ⟨wide, left⟩ := along_placeAxis layer.x layer.width frame.width constraints.horizontal
  obtain ⟨high, top⟩ := along_placeAxis layer.y layer.height frame.height constraints.vertical
  simp only [Rect.part, free, ← width, ← height, wide, high, left, top, Layer.box]

/-- A node under a parent that is no flow takes up its rectangle, also if a rule stretches it. -/
theorem part_place (rules : RuleSet) (layer : Layer Rat) {frame : ParentFrame Rat} {outer : Rect Rat}
    (noFlow : frame.flow = false) (width : frame.width = outer.width)
    (height : frame.height = outer.height) :
    outer.part (place rules layer frame false).1 = layer.box.within outer := by
  rw [place, noFlow]
  exact part_free (constraintsOf rules layer) layer width height

theorem part_root (rules : RuleSet) (layer : Layer Rat) (frame : ParentFrame Rat) (screen : Rect Rat) :
    screen.part (place rules layer frame true).1 = layer.centered screen := by
  have half : (Scalar.half : Rat) = 1 / 2 := rfl
  rw [place]
  simp only [Bool.not_true, Bool.and_false, Bool.false_eq_true, if_false, if_true, Rect.part,
    Layer.centered, UDim2.shares, UDim2.pixels, UDim.share, UDim.pixels, UDim.along, half]
  congr 2 <;> ring

theorem part_full (outer : Rect Rat) : outer.part full = outer := by
  simp [Rect.part, Rect.within, full, UDim2.zero, UDim2.shares, UDim.pixels, UDim.share, UDim.along, Point.zero]

theorem part_pixels (bounds outer : Rect Rat) :
    outer.part ⟨.pixels bounds.x bounds.y, .pixels bounds.width bounds.height, .zero⟩ =
      bounds.within outer := by
  simp [Rect.part, Rect.within, UDim2.pixels, UDim.pixels, UDim.along, Point.zero]

end Geometry

end DesignCompiler
