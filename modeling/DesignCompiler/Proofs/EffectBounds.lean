import DesignCompiler.Design.Node
import DesignCompiler.Scalar.Rational
import Mathlib.Data.List.Perm.Basic
import Mathlib.Tactic.Linarith

/-!
How far the effects of a node reach. Every visible shadow and blur takes up a box of its own; the render bounds
are the tight hull of these boxes and the box of the node, and there are none if nothing sticks out of that box.
-/
namespace DesignCompiler

namespace Scalar

theorem least_eq_min (x y : Rat) : least x y = min x y := by
  show (if y < x then y else if (x == x) = true then x else y) = min x y
  rcases lt_or_ge y x with less | more
  · rw [if_pos less, min_eq_right less.le]
  · rw [if_neg (not_lt.mpr more), if_pos (beq_self_eq_true x), min_eq_left more]

theorem greatest_eq_max (x y : Rat) : greatest x y = max x y := by
  show (if x < y then y else if (x == x) = true then x else y) = max x y
  rcases lt_or_ge x y with less | more
  · rw [if_pos less, max_eq_right less.le]
  · rw [if_neg (not_lt.mpr more), if_pos (beq_self_eq_true x), max_eq_left more]

end Scalar

namespace Rect

variable {hull other box : Rect Rat} {boxes boxes' : List (Rect Rat)}

def right (rect : Rect Rat) : Rat := rect.x + rect.width

def bottom (rect : Rect Rat) : Rat := rect.y + rect.height

/-- The rectangle at another place. -/
def movedBy (rect : Rect Rat) (offset : Point Rat) : Rect Rat :=
  ⟨rect.x + offset.x, rect.y + offset.y, rect.width, rect.height⟩

/-- The rectangle with each side farther out, or farther in if the amount is below zero. -/
def grown (rect : Rect Rat) (amount : Rat) : Rect Rat :=
  ⟨rect.x - amount, rect.y - amount, rect.width + 2 * amount, rect.height + 2 * amount⟩

/-- A rectangle reaches at least as far as another one on all four sides. -/
structure Covers (outer inner : Rect Rat) : Prop where
  left : outer.x ≤ inner.x
  top : outer.y ≤ inner.y
  right : inner.right ≤ outer.right
  bottom : inner.bottom ≤ outer.bottom

/-- Each side of a rectangle is the outermost one of some boxes. -/
structure IsHull (hull : Rect Rat) (boxes : List (Rect Rat)) : Prop where
  covers : ∀ box ∈ boxes, hull.Covers box
  left : ∃ box ∈ boxes, box.x = hull.x
  top : ∃ box ∈ boxes, box.y = hull.y
  right : ∃ box ∈ boxes, box.right = hull.right
  bottom : ∃ box ∈ boxes, box.bottom = hull.bottom

theorem ext_sides (left : hull.x = other.x) (top : hull.y = other.y) (right : hull.right = other.right)
    (bottom : hull.bottom = other.bottom) : hull = other := by
  obtain ⟨x, y, width, height⟩ := hull
  obtain ⟨x', y', width', height'⟩ := other
  obtain rfl : x = x' := left
  obtain rfl : y = y' := top
  obtain rfl : width = width' := add_left_cancel right
  obtain rfl : height = height' := add_left_cancel bottom
  rfl

theorem Covers.antisymm (one : hull.Covers other) (two : other.Covers hull) : hull = other :=
  ext_sides (le_antisymm one.left two.left) (le_antisymm one.top two.top)
    (le_antisymm two.right one.right) (le_antisymm two.bottom one.bottom)

/-- What covers all boxes covers their hull. -/
theorem IsHull.covered (tight : hull.IsHull boxes) (covers : ∀ box ∈ boxes, other.Covers box) :
    other.Covers hull := by
  obtain ⟨left, own, sameLeft⟩ := tight.left
  obtain ⟨top, own', sameTop⟩ := tight.top
  obtain ⟨right, own'', sameRight⟩ := tight.right
  obtain ⟨bottom, own''', sameBottom⟩ := tight.bottom
  exact ⟨sameLeft ▸ (covers left own).left, sameTop ▸ (covers top own').top,
    sameRight ▸ (covers right own'').right, sameBottom ▸ (covers bottom own''').bottom⟩

/-- Boxes have one hull, in whatever order they come. -/
theorem IsHull.unique (tight : hull.IsHull boxes) (tight' : other.IsHull boxes')
    (same : ∀ box, box ∈ boxes ↔ box ∈ boxes') : hull = other :=
  (tight'.covered fun box member => tight.covers box ((same box).mpr member)).antisymm
    (tight.covered fun box member => tight'.covers box ((same box).mp member))

theorem Covers.trans {outer inner : Rect Rat} (one : outer.Covers box) (two : box.Covers inner) :
    outer.Covers inner :=
  ⟨one.left.trans two.left, one.top.trans two.top, two.right.trans one.right, two.bottom.trans one.bottom⟩

theorem isHull_single (box : Rect Rat) : box.IsHull [box] where
  covers other member := by
    rw [List.mem_singleton.mp member]
    exact ⟨le_rfl, le_rfl, le_rfl, le_rfl⟩
  left := ⟨box, List.mem_singleton_self box, rfl⟩
  top := ⟨box, List.mem_singleton_self box, rfl⟩
  right := ⟨box, List.mem_singleton_self box, rfl⟩
  bottom := ⟨box, List.mem_singleton_self box, rfl⟩

/-- The rectangle that reaches as far as either of two. -/
def join (rect other : Rect Rat) : Rect Rat :=
  ⟨min rect.x other.x, min rect.y other.y, max rect.right other.right - min rect.x other.x,
    max rect.bottom other.bottom - min rect.y other.y⟩

theorem right_join (rect other : Rect Rat) : (rect.join other).right = max rect.right other.right :=
  add_sub_cancel _ _

theorem bottom_join (rect other : Rect Rat) : (rect.join other).bottom = max rect.bottom other.bottom :=
  add_sub_cancel _ _

/-- With one more box, the outermost side is still one of the boxes. -/
theorem exists_side {side : Rect Rat → Rat} {old new : Rat} (held : ∃ box ∈ boxes, side box = old)
    (either : new = old ∨ new = side other) : ∃ box ∈ boxes ++ [other], side box = new := by
  rcases either with rfl | rfl
  · obtain ⟨box, member, same⟩ := held
    exact ⟨box, List.mem_append_left _ member, same⟩
  · exact ⟨other, List.mem_append_right _ (List.mem_singleton_self other), rfl⟩

theorem IsHull.join (tight : hull.IsHull boxes) (box : Rect Rat) :
    (hull.join box).IsHull (boxes ++ [box]) where
  covers := by
    have outer : (hull.join box).Covers hull :=
      ⟨min_le_left _ _, min_le_left _ _, right_join hull box ▸ le_max_left _ _,
        bottom_join hull box ▸ le_max_left _ _⟩
    have outer' : (hull.join box).Covers box :=
      ⟨min_le_right _ _, min_le_right _ _, right_join hull box ▸ le_max_right _ _,
        bottom_join hull box ▸ le_max_right _ _⟩
    refine List.forall_mem_append.mpr ⟨fun other member => outer.trans (tight.covers other member), ?_⟩
    exact List.forall_mem_singleton.mpr outer'
  left := exists_side tight.left (min_choice _ _)
  top := exists_side tight.top (min_choice _ _)
  right := exists_side tight.right (right_join hull box ▸ max_choice _ _)
  bottom := exists_side tight.bottom (bottom_join hull box ▸ max_choice _ _)

end Rect

/-- The box that an effect takes up around the box of its node. A visible shadow takes up that box, moved by
its offset and grown by its radius and its spread; a visible blur takes up the box grown by its radius; what is
hidden, within the node or behind it takes up nothing. -/
def Effect.box? (own : Rect Rat) : Effect Rat → Option (Rect Rat)
  | dropShadow shadow =>
    if shadow.visible then some ((own.movedBy shadow.offset).grown (shadow.radius + shadow.spread)) else none
  | layerBlur blur => if blur.visible then some (own.grown blur.radius) else none
  | innerShadow _ | backgroundBlur _ | unsupported => none

/-- The effects that can reach beyond a node: drop shadows and layer blurs, if they are visible. -/
def Effect.reaches : Effect Rat → Bool
  | dropShadow shadow => shadow.visible
  | layerBlur blur => blur.visible
  | innerShadow _ | backgroundBlur _ | unsupported => false

theorem Effect.box?_eq_none {own : Rect Rat} {effect : Effect Rat} (stays : ¬effect.reaches = true) :
    effect.box? own = none := by
  cases effect with
  | dropShadow | layerBlur => exact if_neg stays
  | innerShadow | backgroundBlur | unsupported => rfl

namespace Layer

/-- The box of a node, counted from its own corner. -/
def ownBox (layer : Layer Rat) : Rect Rat := ⟨0, 0, layer.width, layer.height⟩

/-- The boxes of the effects of a node. -/
def effectBoxes (layer : Layer Rat) : List (Rect Rat) := layer.effects.filterMap (Effect.box? layer.ownBox)

def Sides.rect (sides : Sides Rat) : Rect Rat :=
  ⟨sides.left, sides.top, sides.right - sides.left, sides.bottom - sides.top⟩

theorem Sides.right_rect (sides : Sides Rat) : sides.rect.right = sides.right := add_sub_cancel _ _

theorem Sides.bottom_rect (sides : Sides Rat) : sides.rect.bottom = sides.bottom := add_sub_cancel _ _

/-- The sides with a box joined to them. -/
theorem Sides.rect_joined (sides : Sides Rat) (box : Rect Rat) : sides.rect.join box =
    rect ⟨min sides.left box.x, min sides.top box.y, max sides.right box.right,
      max sides.bottom box.bottom⟩ := by
  rw [Rect.join, right_rect, bottom_rect]
  rfl

/-- One more effect joins its box to the sides. -/
theorem Sides.rect_reach (layer : Layer Rat) (sides : Sides Rat) {effect : Effect Rat}
    (visible : effect.isVisible = true) : (sides.reach layer.width layer.height effect).rect =
      (effect.box? layer.ownBox).elim sides.rect sides.rect.join := by
  cases effect with
  | dropShadow shadow =>
    have shown : shadow.visible = true := visible
    have right : layer.width + shadow.offset.x + (shadow.radius + shadow.spread) =
        ((layer.ownBox.movedBy shadow.offset).grown (shadow.radius + shadow.spread)).right := by
      simp only [ownBox, Rect.movedBy, Rect.grown, Rect.right]
      ring
    have bottom : layer.height + shadow.offset.y + (shadow.radius + shadow.spread) =
        ((layer.ownBox.movedBy shadow.offset).grown (shadow.radius + shadow.spread)).bottom := by
      simp only [ownBox, Rect.movedBy, Rect.grown, Rect.bottom]
      ring
    simp only [Effect.box?, shown, if_true, Option.elim_some, rect_joined, reach, Scalar.least_eq_min,
      Scalar.greatest_eq_max]
    rw [← right, ← bottom]
    simp only [ownBox, Rect.movedBy, Rect.grown, zero_add]
  | layerBlur blur =>
    have shown : blur.visible = true := visible
    have right : layer.width + blur.radius = (layer.ownBox.grown blur.radius).right := by
      simp only [ownBox, Rect.grown, Rect.right]
      ring
    have bottom : layer.height + blur.radius = (layer.ownBox.grown blur.radius).bottom := by
      simp only [ownBox, Rect.grown, Rect.bottom]
      ring
    simp only [Effect.box?, shown, if_true, Option.elim_some, rect_joined, reach, Scalar.least_eq_min,
      Scalar.greatest_eq_max]
    rw [← right, ← bottom]
    simp only [ownBox, Rect.grown, zero_sub]
  | innerShadow | backgroundBlur | unsupported => rfl

/-- The sides after some effects are those of the hull of all boxes so far. -/
theorem Sides.isHull_foldl (layer : Layer Rat) {boxes : List (Rect Rat)} (effects : List (Effect Rat))
    {sides : Sides Rat} (tight : sides.rect.IsHull boxes) :
    ((effects.filter Effect.isVisible).foldl (reach layer.width layer.height) sides).rect.IsHull
      (boxes ++ effects.filterMap (Effect.box? layer.ownBox)) := by
  induction effects generalizing sides boxes with
  | nil => simpa using tight
  | cons effect rest ih =>
    by_cases visible : effect.isVisible = true
    · rw [List.filter_cons_of_pos visible, List.foldl_cons]
      have joined := rect_reach layer sides visible
      cases box : effect.box? layer.ownBox with
      | none =>
        rw [box, Option.elim_none] at joined
        rw [List.filterMap_cons_none box]
        exact ih (joined ▸ tight)
      | some other =>
        rw [box, Option.elim_some] at joined
        rw [List.filterMap_cons_some box, List.append_cons]
        exact ih (joined ▸ tight.join other)
    · have stays : ¬effect.reaches = true := by
        cases effect with
        | dropShadow | layerBlur => exact visible
        | innerShadow | backgroundBlur | unsupported => exact Bool.false_ne_true
      rw [List.filter_cons_of_neg visible, List.filterMap_cons_none (Effect.box?_eq_none stays)]
      exact ih tight

theorem Sides.covers_rect (layer : Layer Rat) (sides : Sides Rat) : layer.ownBox.Covers sides.rect ↔
    ¬(sides.left < 0 ∨ sides.top < 0 ∨ layer.width < sides.right ∨ layer.height < sides.bottom) := by
  have right : layer.ownBox.right = layer.width := zero_add _
  have bottom : layer.ownBox.bottom = layer.height := zero_add _
  simp only [not_or, not_lt]
  constructor
  · rintro ⟨outerLeft, outerTop, outerRight, outerBottom⟩
    rw [right_rect, right] at outerRight
    rw [bottom_rect, bottom] at outerBottom
    exact ⟨outerLeft, outerTop, outerRight, outerBottom⟩
  · rintro ⟨outerLeft, outerTop, outerRight, outerBottom⟩
    rw [← right_rect, ← right] at outerRight
    rw [← bottom_rect, ← bottom] at outerBottom
    exact ⟨outerLeft, outerTop, outerRight, outerBottom⟩

/-- A node has render bounds if some effect sticks out of its box, and then they are the hull of that box and
those of its effects. -/
theorem effectBounds_cases (layer : Layer Rat) :
    (∀ box ∈ layer.effectBoxes, layer.ownBox.Covers box) ∧ layer.effectBounds = none ∨
      (¬∀ box ∈ layer.effectBoxes, layer.ownBox.Covers box) ∧
        ∃ hull, layer.effectBounds = some hull ∧ hull.IsHull (layer.ownBox :: layer.effectBoxes) := by
  let sides := (layer.effects.filter Effect.isVisible).foldl (Sides.reach layer.width layer.height)
    ⟨0, 0, layer.width, layer.height⟩
  have start : (Sides.rect ⟨0, 0, layer.width, layer.height⟩).IsHull [layer.ownBox] := by
    have same : Sides.rect ⟨0, 0, layer.width, layer.height⟩ = layer.ownBox := by
      simp only [Sides.rect, ownBox, sub_zero]
    rw [same]
    exact Rect.isHull_single layer.ownBox
  have tight : sides.rect.IsHull (layer.ownBox :: layer.effectBoxes) :=
    Sides.isHull_foldl layer layer.effects start
  have bounds : layer.effectBounds =
      if sides.left < 0 ∨ sides.top < 0 ∨ layer.width < sides.right ∨ layer.height < sides.bottom then
        some sides.rect else none := rfl
  have own : layer.ownBox.Covers layer.ownBox := ⟨le_rfl, le_rfl, le_rfl, le_rfl⟩
  have within : layer.ownBox.Covers sides.rect ↔ ∀ box ∈ layer.effectBoxes, layer.ownBox.Covers box :=
    ⟨fun outer box member => outer.trans (tight.covers box (List.mem_cons_of_mem _ member)),
      fun all => tight.covered (List.forall_mem_cons.mpr ⟨own, all⟩)⟩
  rw [Sides.covers_rect] at within
  rw [bounds, ← within]
  by_cases out : sides.left < 0 ∨ sides.top < 0 ∨ layer.width < sides.right ∨ layer.height < sides.bottom
  · exact .inr ⟨not_not.mpr out, _, if_pos out, tight⟩
  · exact .inl ⟨out, if_neg out⟩

/-- The render bounds depend on the box of the node and on which boxes its effects take up, and on nothing
else. -/
theorem effectBounds_congr {layer other : Layer Rat} (own : other.ownBox = layer.ownBox)
    (same : ∀ box, box ∈ other.effectBoxes ↔ box ∈ layer.effectBoxes) :
    other.effectBounds = layer.effectBounds := by
  have alike : (∀ box ∈ other.effectBoxes, other.ownBox.Covers box) ↔
      ∀ box ∈ layer.effectBoxes, layer.ownBox.Covers box := by
    simp only [own, same]
  rcases effectBounds_cases layer with ⟨covers, none⟩ | ⟨sticks, hull, bounds, tight⟩
  · rcases effectBounds_cases other with ⟨_, none'⟩ | ⟨sticks, _⟩
    · rw [none, none']
    · exact absurd (alike.mpr covers) sticks
  · rcases effectBounds_cases other with ⟨covers, _⟩ | ⟨_, hull', bounds', tight'⟩
    · exact absurd (alike.mp covers) sticks
    · rw [bounds, bounds', tight'.unique tight fun box => by simp only [List.mem_cons, own, same]]

theorem filterMap_reaches (own : Rect Rat) (effects : List (Effect Rat)) :
    (effects.filter Effect.reaches).filterMap (Effect.box? own) = effects.filterMap (Effect.box? own) := by
  induction effects with
  | nil => rfl
  | cons effect rest ih =>
    by_cases reaches : effect.reaches = true
    · rw [List.filter_cons_of_pos reaches, List.filterMap_cons, List.filterMap_cons, ih]
    · rw [List.filter_cons_of_neg reaches, List.filterMap_cons_none (Effect.box?_eq_none reaches), ih]

/-- The render bounds of a node are the tight hull of its box and those of its effects. The order of the effects
does not matter, and neither do those that are hidden, within the node or behind it; there are no bounds just if
the box of the node reaches at least as far as all others. -/
theorem effectBounds_tight (layer : Layer Rat) :
    (∀ effects : List (Effect Rat), effects.Perm layer.effects →
      { layer with effects }.effectBounds = layer.effectBounds) ∧
    (∀ effects : List (Effect Rat),
      effects.filter Effect.reaches = layer.effects.filter Effect.reaches →
        { layer with effects }.effectBounds = layer.effectBounds) ∧
    (layer.effectBounds = none ↔ ∀ box ∈ layer.effectBoxes, layer.ownBox.Covers box) ∧
    ∀ bounds, layer.effectBounds = some bounds ↔
      (¬∀ box ∈ layer.effectBoxes, layer.ownBox.Covers box) ∧
        bounds.IsHull (layer.ownBox :: layer.effectBoxes) := by
  refine ⟨fun effects perm => ?_, fun effects alike => ?_, ?_, fun bounds => ?_⟩
  · exact effectBounds_congr rfl fun box => (perm.filterMap (Effect.box? layer.ownBox)).mem_iff
  · refine effectBounds_congr rfl fun box => ?_
    have boxes := congrArg (List.filterMap (Effect.box? layer.ownBox)) alike
    rw [filterMap_reaches, filterMap_reaches] at boxes
    exact (congrArg (box ∈ ·) boxes).to_iff
  · rcases effectBounds_cases layer with ⟨covers, none⟩ | ⟨sticks, hull, held, _⟩
    · exact ⟨fun _ => covers, fun _ => none⟩
    · exact ⟨fun none => absurd (held.symm.trans none) (by simp), fun covers => absurd covers sticks⟩
  · rcases effectBounds_cases layer with ⟨covers, none⟩ | ⟨sticks, hull, held, tight⟩
    · exact ⟨fun some => absurd (none.symm.trans some) (by simp), fun ⟨sticks, _⟩ => absurd covers sticks⟩
    · constructor
      · intro some
        obtain rfl := Option.some.inj (held.symm.trans some)
        exact ⟨sticks, tight⟩
      · rintro ⟨_, tight'⟩
        rw [held, tight.unique tight' fun _ => Iff.rfl]

/-- A shadow that is drawn in by its spread but moved to the right sticks out on that side only. -/
example : (effectBounds { Layer.plain "1" "card" (⟨5, 5, 100, 50⟩ : Rect Rat) with
    effects := [.dropShadow ⟨true, .black, ⟨20, 0⟩, 2, -10⟩, .layerBlur ⟨false, 4⟩] }).map
      (fun bounds : Rect Rat => (bounds.x, bounds.y, bounds.width, bounds.height)) =
        some (0, 0, 112, 50) := by
  decide +kernel

end Layer

end DesignCompiler
