import DesignCompiler.Proofs.FingerprintFacts
import DesignCompiler.Proofs.FlattenedHashes
import DesignCompiler.Proofs.Reordering
import DesignCompiler.Proofs.StrokeGroups
import Mathlib.Data.List.Sort

/-!
What noise in the measures of a design does to hashes. Measures are rounded to the hundredth before they are
hashed, so that noise does not show, but a zero keeps the sign of what was rounded to it.
-/
namespace DesignCompiler

namespace Binary64

/-- The nearest integer to a finite double, a half away from zero. -/
def nearest? (x : Float) : Option Int :=
  match ofFloat x with
  | .finite negative mantissa exponent =>
    let size := wholeNear .away mantissa exponent
    some (if negative then -(size : Int) else size)
  | _ => none

/-- The sign of a double, also of a zero. -/
def isNegative (x : Float) : Bool :=
  match ofFloat x with
  | .finite negative _ _ => negative
  | .infinite negative => negative
  | .undefined => false

theorem nearest?_eq_some {x : Float} {n : Int} (near : nearest? x = some n) :
    ∃ negative mantissa exponent, ofFloat x = .finite negative mantissa exponent ∧
      isNegative x = negative ∧ n.natAbs = wholeNear .away mantissa exponent ∧
      (n ≠ 0 → negative = decide (n < 0)) := by
  rw [nearest?] at near
  split at near
  · rename_i negative mantissa exponent form
    refine ⟨negative, mantissa, exponent, form, by rw [isNegative, form], ?_⟩
    simp only [Option.some.injEq] at near
    subst near
    cases negative with
    | true => simp; omega
    | false => simp
  · cases near

/-- A fraction is rounded to a whole number that is less than those that have no fraction, or the least of
them. -/
theorem round_of_fraction {x : Float} {negative : Bool} {mantissa power : Nat}
    (form : ofFloat x = .finite negative mantissa (.negSucc power)) :
    round x = signed negative (wholeNear .away mantissa (.negSucc power)) ∧
      wholeNear .away mantissa (.negSucc power) ≤ 2 ^ 52 := by
  refine ⟨by rw [round, form]; rfl, ?_⟩
  have width := (stored_of_ofFloat form).width
  have unit : 2 ≤ 1 <<< (power + 1) := by
    rw [Nat.shiftLeft_eq, one_mul, pow_succ]
    have := Nat.one_le_two_pow (n := power)
    omega
  have half : mantissa / (1 <<< (power + 1)) ≤ mantissa / 2 := Nat.div_le_div_left unit (by decide)
  have next : divideNear .away mantissa (1 <<< (power + 1)) ≤ mantissa / (1 <<< (power + 1)) + 1 := by
    simp only [divideNear]
    split
    · omega
    · split <;> omega
  exact next.trans (by omega)

theorem round_of_whole {x : Float} {negative : Bool} {mantissa power : Nat}
    (form : ofFloat x = .finite negative mantissa (.ofNat power)) :
    round x = x ∧ 2 ^ 52 ≤ mantissa ∧ mantissa < 2 ^ 53 := by
  have stored := stored_of_ofFloat form
  refine ⟨by rw [round, form], stored.full ?_, stored.width⟩
  exact lt_of_lt_of_le (by decide) (Int.natCast_nonneg power)

/-- Doubles without a fraction are the same if they have the same size. -/
theorem whole_inj {mantissa mantissa' power power' : Nat} (full : 2 ^ 52 ≤ mantissa)
    (width : mantissa < 2 ^ 53) (full' : 2 ^ 52 ≤ mantissa') (width' : mantissa' < 2 ^ 53)
    (same : mantissa <<< power = mantissa' <<< power') : mantissa = mantissa' ∧ power = power' := by
  have less : ∀ {mantissa mantissa' power power' : Nat}, mantissa < 2 ^ 53 → 2 ^ 52 ≤ mantissa' →
      power < power' → mantissa <<< power < mantissa' <<< power' := by
    intro mantissa mantissa' power power' width full coarser
    rw [Nat.shiftLeft_eq, Nat.shiftLeft_eq]
    calc mantissa * 2 ^ power < 2 ^ 53 * 2 ^ power := Nat.mul_lt_mul_of_pos_right width (by positivity)
      _ = 2 ^ 52 * 2 ^ (power + 1) := by ring
      _ ≤ mantissa' * 2 ^ power' := Nat.mul_le_mul full (Nat.pow_le_pow_right (by decide) coarser)
  rcases Nat.lt_trichotomy power power' with finer | rfl | coarser
  · exact absurd same (less width full' finer).ne
  · rw [Nat.shiftLeft_eq, Nat.shiftLeft_eq] at same
    exact ⟨Nat.eq_of_mul_eq_mul_right (by positivity) same, rfl⟩
  · exact absurd same (less width' full coarser).ne'

theorem eq_of_ofFloat {x y : Float} {negative : Bool} {mantissa : Nat} {exponent : Int}
    (form : ofFloat x = .finite negative mantissa exponent)
    (form' : ofFloat y = .finite negative mantissa exponent) : x = y :=
  toBits_injective (toBits_of_ofFloat form form')

/-- Where a fraction is rounded to the size of a double without one, it is rounded to that double. -/
theorem round_eq_of_whole {x y : Float} {negative : Bool} {mantissa mantissa' power power' : Nat}
    (form : ofFloat x = .finite negative mantissa (.negSucc power))
    (form' : ofFloat y = .finite negative mantissa' (.ofNat power'))
    (same : wholeNear .away mantissa (.negSucc power) = mantissa' <<< power') : round x = round y := by
  have least : ∀ negative, ofFloat (signed negative (2 ^ 52)) = .finite negative (2 ^ 52) 0 := by
    decide +kernel
  obtain ⟨rounded, most⟩ := round_of_fraction form
  obtain ⟨stays, full, width⟩ := round_of_whole form'
  have size : mantissa' <<< power' = 2 ^ 52 := by
    have grows : mantissa' ≤ mantissa' <<< power' := by
      rw [Nat.shiftLeft_eq]
      exact Nat.le_mul_of_pos_right _ (by positivity)
    omega
  have least_size : mantissa' <<< power' = 2 ^ 52 <<< 0 := size
  obtain ⟨rfl, rfl⟩ := whole_inj full width (Nat.le_refl _) (by decide) least_size
  rw [rounded, stays, same, size]
  exact eq_of_ofFloat (least negative) form'

/-- Doubles with the same nearest integer and of the same sign are rounded to the same double. -/
theorem round_eq_of_nearest? {x y : Float} {n : Int} (near : nearest? x = some n)
    (near' : nearest? y = some n) (signs : isNegative x = isNegative y) : round x = round y := by
  obtain ⟨negative, mantissa, exponent, form, rfl, size, -⟩ := nearest?_eq_some near
  obtain ⟨negative', mantissa', exponent', form', rfl, size', -⟩ := nearest?_eq_some near'
  rw [← signs] at form'
  have sizes := size.symm.trans size'
  cases exponent with
  | ofNat power =>
    cases exponent' with
    | ofNat power' =>
      obtain ⟨-, full, width⟩ := round_of_whole form
      obtain ⟨-, full', width'⟩ := round_of_whole form'
      obtain ⟨rfl, rfl⟩ := whole_inj full width full' width' sizes
      rw [eq_of_ofFloat form form']
    | negSucc power' => exact (round_eq_of_whole form' form sizes.symm).symm
  | negSucc power =>
    cases exponent' with
    | ofNat power' => exact round_eq_of_whole form form' sizes
    | negSucc power' => rw [(round_of_fraction form).1, (round_of_fraction form').1, sizes]

/-- What is rounded to zero becomes a zero of its sign. -/
theorem round_of_zero {x : Float} (near : nearest? x = some 0) : round x = signed (isNegative x) 0 := by
  obtain ⟨negative, mantissa, exponent, form, rfl, size, -⟩ := nearest?_eq_some near
  cases exponent with
  | ofNat power =>
    obtain ⟨-, full, -⟩ := round_of_whole form
    have none : mantissa * 2 ^ power = 0 := by rw [← Nat.shiftLeft_eq]; exact size.symm
    have := Nat.pow_pos (n := power) (by decide : 0 < 2)
    rcases Nat.mul_eq_zero.mp none with zero | zero <;> omega
  | negSucc power =>
    rw [(round_of_fraction form).1, ← size]
    rfl

end Binary64

namespace Scalar

open Binary64 (nearest? isNegative)

/-- Two doubles are nearest to the same whole number of hundredths. -/
def SameHundredth (v w : Float) : Prop := ∃ n, nearest? (v * 100) = some n ∧ nearest? (w * 100) = some n

/-- Two doubles that are less than half a hundredth have the same sign. -/
def SameZero (v w : Float) : Prop :=
  nearest? (v * 100) = some 0 → isNegative (v * 100) = isNegative (w * 100)

instance (v w : Float) : Decidable (SameHundredth v w) :=
  decidable_of_iff ((nearest? (v * 100)).isSome = true ∧ nearest? (w * 100) = nearest? (v * 100)) <| by
    rw [SameHundredth, Option.isSome_iff_exists]
    exact ⟨fun ⟨⟨n, near⟩, same⟩ => ⟨n, near, same.trans near⟩,
      fun ⟨n, near, near'⟩ => ⟨⟨n, near⟩, near'.trans near.symm⟩⟩

instance (v w : Float) : Decidable (SameZero v w) := inferInstanceAs (Decidable (_ → _))

theorem hundredths_eq {v w : Float} (near : SameHundredth v w) (zero : SameZero v w) :
    hundredths v = hundredths w := by
  obtain ⟨n, first, second⟩ := near
  -- both sides of a nearest integer other than zero have its sign
  have signs : isNegative (v * 100) = isNegative (w * 100) := by
    by_cases none : n = 0
    · exact zero (none ▸ first)
    · obtain ⟨_, _, _, -, sign, -, side⟩ := Binary64.nearest?_eq_some first
      obtain ⟨_, _, _, -, sign', -, side'⟩ := Binary64.nearest?_eq_some second
      rw [sign, sign', side none, side' none]
  exact congrArg (· / 100) (Binary64.round_eq_of_nearest? first second signs)

/-- Numbers of the same hundredth are written alike just if no zero keeps a sign that the other one has not. -/
theorem written_hundredths_iff {v w : Float} (near : SameHundredth v w) :
    written (hundredths v) = written (hundredths w) ↔ SameZero v w := by
  refine ⟨fun same none => ?_, fun zero => congrArg written (hundredths_eq near zero)⟩
  obtain ⟨n, first, second⟩ := near
  obtain rfl : n = 0 := Option.some.inj (first.symm.trans none)
  have zeros : ∀ {x : Float}, nearest? (x * 100) = some 0 →
      hundredths x = Binary64.signed (isNegative (x * 100)) 0 / 100 := fun near =>
    congrArg (· / 100) (Binary64.round_of_zero near)
  have apart : ∀ one other, written (Binary64.signed one 0 / 100 : Float) =
      written (Binary64.signed other 0 / 100 : Float) → one = other := by decide +kernel
  rw [zeros first, zeros second] at same
  exact apart _ _ same

end Scalar

section Trees

variable {α : Type}

/-- The layers are equal apart from their measures, and each measure is close to its counterpart. -/
structure Layer.Jitters (close : α → α → Prop) (layer other : Layer α) : Prop where
  rest : other = { layer with
    x := other.x, y := other.y, width := other.width, height := other.height
    rotation := other.rotation, strokeWeight := other.strokeWeight, opacity := other.opacity }
  x : close layer.x other.x
  y : close layer.y other.y
  width : close layer.width other.width
  height : close layer.height other.height
  rotation : close layer.rotation other.rotation
  strokeWeight : close layer.strokeWeight other.strokeWeight
  opacity : close layer.opacity other.opacity

theorem Layer.Jitters.of_close {close : α → α → Prop} {layer other : Layer α}
    (rest : other = { layer with
      x := other.x, y := other.y, width := other.width, height := other.height
      rotation := other.rotation, strokeWeight := other.strokeWeight, opacity := other.opacity })
    (near : close layer.x other.x ∧ close layer.y other.y ∧ close layer.width other.width ∧
      close layer.height other.height ∧ close layer.rotation other.rotation ∧
      close layer.strokeWeight other.strokeWeight ∧ close layer.opacity other.opacity) :
    layer.Jitters close other :=
  have ⟨x, y, width, height, rotation, strokeWeight, opacity⟩ := near
  ⟨rest, x, y, width, height, rotation, strokeWeight, opacity⟩

namespace Node

mutual

/-- The trees are equal apart from the measures of their nodes, and each measure is close to its
counterpart. -/
def Jitters (close : α → α → Prop) : Node α → Node α → Prop
  | .text layer content, .text layer' content' => layer.Jitters close layer' ∧ content = content'
  | .container layer props children, .container layer' props' children' =>
    layer.Jitters close layer' ∧ props = props' ∧ JittersAll close children children'
  | .shape layer kind, .shape layer' kind' => layer.Jitters close layer' ∧ kind = kind'
  | _, _ => False

def JittersAll (close : α → α → Prop) : List (Node α) → List (Node α) → Prop
  | [], [] => True
  | node :: rest, other :: others => node.Jitters close other ∧ JittersAll close rest others
  | _, _ => False

end

/-- A node without its children. -/
def childless : Node α → Node α
  | .container layer props _ => .container layer props []
  | node => node

variable {close : α → α → Prop} {node other : Node α}

/-- What has no measures is the same. -/
structure Likeness (node other : Node α) : Prop where
  tag : other.tag = node.tag
  content : other.content? = node.content?
  leaf : other.children.isEmpty = node.children.isEmpty

theorem Jitters.layers (near : node.Jitters close other) : node.layer.Jitters close other.layer := by
  cases node <;> cases other <;> first | exact near.1 | exact near.elim

theorem Jitters.likeness (near : node.Jitters close other) : Likeness node other := by
  cases node with
  | text layer content =>
    cases other with
    | text => exact ⟨rfl, congrArg some near.2.symm, rfl⟩
    | _ => exact near.elim
  | container layer props children =>
    cases other with
    | container _ _ children' =>
      obtain ⟨-, rfl, below⟩ := near
      refine ⟨rfl, rfl, ?_⟩
      cases children <;> cases children' <;> first | rfl | exact below.elim
    | _ => exact near.elim
  | shape layer kind =>
    cases other with
    | shape =>
      obtain ⟨-, rfl⟩ := near
      exact ⟨rfl, rfl, rfl⟩
    | _ => exact near.elim

theorem Jitters.children (near : node.Jitters close other) :
    JittersAll close node.children other.children := by
  cases node <;> cases other <;> first | exact near.2.2 | exact trivial | exact near.elim

theorem children_of_leaf (near : node.Jitters close other) (leaf : node.children = []) :
    other.children = [] := by
  have empty := near.likeness.leaf
  rw [leaf] at empty
  exact List.isEmpty_iff.mp empty

theorem Jitters.isLive (near : node.Jitters close other) : other.isLive = node.isLive := by
  rw [Node.isLive, Node.isLive, near.layers.rest]
  rfl

theorem Jitters.childless (near : node.Jitters close other) :
    node.childless.Jitters close other.childless := by
  cases node <;> cases other <;> first | exact ⟨near.1, near.2.1, trivial⟩ | exact near

theorem names_of_jitters {children others : List (Node α)} (near : JittersAll close children others) :
    (others.filter Node.isLive).map (·.layer.name) = (children.filter Node.isLive).map (·.layer.name) := by
  induction children generalizing others with
  | nil =>
    cases others with
    | nil => rfl
    | cons => exact near.elim
  | cons child rest ih =>
    cases others with
    | nil => exact near.elim
    | cons other others =>
      have name : other.layer.name = child.layer.name := by rw [near.1.layers.rest]
      rw [List.filter_cons, List.filter_cons, near.1.isLive]
      split
      · rw [List.map_cons, List.map_cons, name, ih near.2]
      · exact ih near.2

end Node

end Trees

open Scalar (SameHundredth SameZero written written_hundredths_iff hundredths_eq)

/-- No measure of a node itself is rounded to zeros of different signs. -/
structure Layer.Steady (layer other : Layer Float) : Prop where
  width : SameZero layer.width other.width
  height : SameZero layer.height other.height
  rotation : SameZero layer.rotation other.rotation
  strokeWeight : SameZero layer.strokeWeight other.strokeWeight
  opacity : SameZero layer.opacity other.opacity

namespace Node

mutual

/-- No measure of a node and of the live nodes below it is rounded to zeros of different signs, and neither
are their places. -/
def Steady : Node Float → Node Float → Prop
  | .container layer _ children, other => layer.Steady other.layer ∧ SteadyAll children other.children
  | .text layer _, other => layer.Steady other.layer
  | .shape layer _, other => layer.Steady other.layer

def SteadyAll : List (Node Float) → List (Node Float) → Prop
  | child :: rest, other :: others =>
    (child.isLive = true → SameZero child.layer.x other.layer.x ∧
      SameZero child.layer.y other.layer.y ∧ child.Steady other) ∧ SteadyAll rest others
  | _, _ => True

end

variable {node other : Node Float} {aspect : Aspect} {offset offset' : Option (Point Float)}

/-- The same place to the hundredth. -/
def SamePlace (offset offset' : Option (Point Float)) : Prop :=
  offset.map (Point.map Scalar.hundredths) = offset'.map (Point.map Scalar.hundredths)

theorem ownSignature_of_jitters (near : node.Jitters SameHundredth other)
    (steady : node.layer.Steady other.layer) (place : SamePlace offset offset') :
    node.ownSignature aspect offset = other.ownSignature aspect offset' := by
  have layers := near.layers
  have alike := near.likeness
  have corners : other.layer.corners = node.layer.corners := by rw [layers.rest]
  have fills : other.layer.fills = node.layer.fills := by rw [layers.rest]
  have strokes : other.layer.strokes = node.layer.strokes := by rw [layers.rest]
  have effects : other.layer.effects = node.layer.effects := by rw [layers.rest]
  have places : ∀ offset : Option (Point Float), (offset.map fun point => Json.array
      [Scalar.json (Scalar.hundredths point.x), Scalar.json (Scalar.hundredths point.y)]) =
        (offset.map (Point.map Scalar.hundredths)).map fun point =>
          Json.array [Scalar.json point.x, Scalar.json point.y] := by
    intro offset
    cases offset <;> rfl
  simp only [ownSignature, alike.tag, alike.content, corners, fills, strokes, effects, places,
    show offset.map _ = offset'.map _ from place,
    hundredths_eq layers.width steady.width, hundredths_eq layers.height steady.height,
    hundredths_eq layers.rotation steady.rotation,
    hundredths_eq layers.strokeWeight steady.strokeWeight,
    hundredths_eq layers.opacity steady.opacity]

theorem samePlace_children {child other : Node Float} (near : child.Jitters SameHundredth other)
    (x : SameZero child.layer.x other.layer.x) (y : SameZero child.layer.y other.layer.y) :
    SamePlace child.place other.place := by
  simp only [SamePlace, place, Option.map_some, Point.map, hundredths_eq near.layers.x x,
    hundredths_eq near.layers.y y]

theorem deepSignature_congr (near : node.Jitters SameHundredth other)
    (steady : node.layer.Steady other.layer) (place : SamePlace offset offset')
    (below : childSignatures node.children = childSignatures other.children) :
    node.deepSignature aspect offset = other.deepSignature aspect offset' := by
  rw [deepSignature_eq, deepSignature_eq, ownSignature_of_jitters near steady place, below]

mutual

/-- Steady noise does not show in a signature. -/
theorem deepSignature_of_steady : {aspect : Aspect} → {offset offset' : Option (Point Float)} →
    (node other : Node Float) → node.Jitters SameHundredth other → node.Steady other →
    SamePlace offset offset' → node.deepSignature aspect offset = other.deepSignature aspect offset'
  | _, _, _, .container _ _ children, other, near, steady, place =>
    deepSignature_congr near steady.1 place
      (childSignatures_of_steady children other.children near.children steady.2)
  | _, _, _, .text _ _, _, near, steady, place =>
    deepSignature_congr near steady place (congrArg childSignatures (children_of_leaf near rfl).symm)
  | _, _, _, .shape _ _, _, near, steady, place =>
    deepSignature_congr near steady place (congrArg childSignatures (children_of_leaf near rfl).symm)

theorem childSignatures_of_steady : (children others : List (Node Float)) →
    JittersAll SameHundredth children others → SteadyAll children others →
    childSignatures children = childSignatures others
  | [], [], _, _ => rfl
  | [], _ :: _, near, _ | _ :: _, [], near, _ => near.elim
  | child :: rest, other :: others, near, steady => by
    have later := childSignatures_of_steady rest others near.2 steady.2
    rw [childSignatures, childSignatures, near.1.isLive, later]
    by_cases live : child.isLive = true
    · obtain ⟨x, y, inner⟩ := steady.1 live
      rw [if_pos live, if_pos live]
      exact congrArg (· :: _)
        (deepSignature_of_steady child other near.1 inner (samePlace_children near.1 x y))
    · rw [if_neg live, if_neg live]

end

theorem steady_of_look (near : node.layer.Jitters SameHundredth other.layer)
    (same : node.look written offset = other.look written offset') :
    node.layer.Steady other.layer where
  width := (written_hundredths_iff near.width).mp (congrArg Look.width same)
  height := (written_hundredths_iff near.height).mp (congrArg Look.height same)
  rotation := (written_hundredths_iff near.rotation).mp (congrArg Look.rotation same)
  strokeWeight := (written_hundredths_iff near.strokeWeight).mp (congrArg Look.strokeWeight same)
  opacity := (written_hundredths_iff near.opacity).mp (congrArg Look.opacity same)

theorem look_of_deepSignature {aspect' : Aspect}
    (same : (node.deepSignature aspect offset).canonical =
      (other.deepSignature aspect' offset').canonical) :
    node.look written offset = other.look written offset' ∧
      (childSignatures node.children).map Json.canonical =
        (childSignatures other.children).map Json.canonical :=
  look_of_canonical (fun _ _ same => same) same

mutual

/-- Noise that does not show in a signature is steady. -/
theorem steady_of_deepSignature : {aspect : Aspect} → {offset offset' : Option (Point Float)} →
    (node other : Node Float) → node.Jitters SameHundredth other →
    (node.deepSignature aspect offset).canonical = (other.deepSignature aspect offset').canonical →
    node.Steady other
  | _, _, _, .container _ _ children, other, near, same =>
    ⟨steady_of_look near.layers (look_of_deepSignature same).1,
      steadyAll_of_childSignatures children other.children near.children (look_of_deepSignature same).2⟩
  | _, _, _, .text _ _, _, near, same => steady_of_look near.layers (look_of_deepSignature same).1
  | _, _, _, .shape _ _, _, near, same => steady_of_look near.layers (look_of_deepSignature same).1

theorem steadyAll_of_childSignatures : (children others : List (Node Float)) →
    JittersAll SameHundredth children others →
    (childSignatures children).map Json.canonical = (childSignatures others).map Json.canonical →
    SteadyAll children others
  | [], _, _, _ => trivial
  | _ :: _, [], near, _ => near.elim
  | child :: rest, other :: others, near, same => by
    rw [childSignatures, childSignatures, near.1.isLive] at same
    by_cases live : child.isLive = true
    · rw [if_pos live, if_pos live] at same
      obtain ⟨here, later⟩ := List.cons.inj same
      have places := congrArg Look.offset (look_of_deepSignature here).1
      simp only [look, Option.map_some, Point.map, Option.some.injEq, Point.mk.injEq] at places
      obtain ⟨x, y⟩ := places
      refine ⟨fun _ => ⟨(written_hundredths_iff near.1.layers.x).mp x,
        (written_hundredths_iff near.1.layers.y).mp y, ?_⟩, ?_⟩
      · exact steady_of_deepSignature child other near.1 here
      · exact steadyAll_of_childSignatures rest others near.2 later
    · rw [if_neg live, if_neg live] at same
      exact ⟨fun alive => absurd alive live, steadyAll_of_childSignatures rest others near.2 same⟩

end

/-- Noise does not show in the signature of a tree just if it is steady. -/
theorem canonical_deepSignature_iff (near : node.Jitters SameHundredth other) :
    (node.deepSignature aspect none).canonical = (other.deepSignature aspect none).canonical ↔
      node.Steady other :=
  ⟨steady_of_deepSignature node other near,
    fun steady => congrArg Json.canonical (deepSignature_of_steady node other near steady rfl)⟩

/-- The signature of a node itself is that of the tree without its children. -/
theorem deepSignature_childless (node : Node Float) :
    node.childless.deepSignature aspect offset = .object (node.ownSignature aspect offset) := by
  cases node with
  | container => exact congrArg Json.object (List.append_nil _)
  | text => rfl
  | shape => rfl

theorem steady_childless_iff : node.childless.Steady other.childless ↔ node.layer.Steady other.layer := by
  cases node <;> cases other <;> simp [childless, Steady, SteadyAll, Node.layer]

theorem canonical_ownSignature_iff (near : node.Jitters SameHundredth other) :
    (Json.object (node.ownSignature aspect none)).canonical =
      (Json.object (other.ownSignature aspect none)).canonical ↔ node.layer.Steady other.layer := by
  rw [← deepSignature_childless, ← deepSignature_childless, canonical_deepSignature_iff near.childless,
    steady_childless_iff]

/-- Noise does not show in the facts of a node just if the measures among them are steady. -/
theorem canonical_facts_iff (near : node.Jitters SameHundredth other) :
    node.facts.canonical = other.facts.canonical ↔
      SameZero node.layer.width other.layer.width ∧ SameZero node.layer.height other.layer.height ∧
        SameZero node.layer.strokeWeight other.layer.strokeWeight ∧
          SameZero node.layer.opacity other.layer.opacity := by
  have layers := near.layers
  have fills : other.layer.visibleFills = node.layer.visibleFills := by rw [layers.rest]; rfl
  have strokes : other.layer.strokes = node.layer.strokes := by rw [layers.rest]
  have effects : other.layer.effects = node.layer.effects := by rw [layers.rest]
  have corners : other.layer.corners = node.layer.corners := by rw [layers.rest]
  have annotations : other.layer.annotations = node.layer.annotations := by rw [layers.rest]
  have name : other.layer.name = node.layer.name := by rw [layers.rest]
  have names : other.liveChildren.map (·.layer.name) = node.liveChildren.map (·.layer.name) :=
    names_of_jitters near.children
  have gists : node.gist written = other.gist written ↔
      written (Scalar.hundredths node.layer.width) = written (Scalar.hundredths other.layer.width) ∧
        written (Scalar.hundredths node.layer.height) = written (Scalar.hundredths other.layer.height) ∧
          written (Scalar.hundredths node.layer.strokeWeight) =
            written (Scalar.hundredths other.layer.strokeWeight) ∧
            written (Scalar.hundredths node.layer.opacity) =
              written (Scalar.hundredths other.layer.opacity) := by
    simp only [gist, Gist.mk.injEq, fills, strokes, effects, corners, annotations, name, names,
      near.likeness.content, true_and, and_true]
  rw [← written_hundredths_iff layers.width, ← written_hundredths_iff layers.height,
    ← written_hundredths_iff layers.strokeWeight, ← written_hundredths_iff layers.opacity, ← gists]
  exact ⟨gist_of_canonical, canonical_of_gist⟩

/-- Whether a node is one image alone depends on the noise only through the stroke. -/
theorem loneImageHash_of_jitters (near : node.Jitters SameHundredth other)
    (strokes : node.layer.hasVisibleStroke = other.layer.hasVisibleStroke) (flattened : Bool) :
    node.loneImageHash flattened = other.loneImageHash flattened := by
  have effects : other.layer.hasVisibleEffect = node.layer.hasVisibleEffect := by
    rw [near.layers.rest]
    rfl
  have fills : other.layer.visibleFills = node.layer.visibleFills := by rw [near.layers.rest]; rfl
  rw [loneImageHash, loneImageHash, near.likeness.leaf, strokes, effects, fills]

end Node

/-- The digest keeps two values apart. -/
def Json.ToldApart (value other : Json) : Prop :=
  value.digest = other.digest → value.canonical = other.canonical

theorem Json.ToldApart.digest_iff {value other : Json} (apart : value.ToldApart other) :
    value.digest = other.digest ↔ value.canonical = other.canonical :=
  ⟨apart, congrArg Sha256.hexOfText⟩

/-- The digest keeps apart what is hashed of two nodes. -/
structure Node.ToldApart (node other : Node Float) : Prop where
  facts : node.facts.ToldApart other.facts
  own : ∀ aspect, (Json.object (node.ownSignature aspect none)).ToldApart
    (.object (other.ownSignature aspect none))
  deep : (node.deepSignature .node none).ToldApart (other.deepSignature .node none)

/-- Noise below the hundredth changes no hash just if it turns no zero around, as far as the hash is one of
measures; whether it is one depends on the noise only through the stroke. -/
theorem Node.hashes_of_jitters {node other : Node Float} (near : node.Jitters SameHundredth other)
    (apart : node.ToldApart other) :
    (node.fingerprint = other.fingerprint ↔
      SameZero node.layer.width other.layer.width ∧ SameZero node.layer.height other.layer.height ∧
        SameZero node.layer.strokeWeight other.layer.strokeWeight ∧
          SameZero node.layer.opacity other.layer.opacity) ∧
    (node.backgroundHash = other.backgroundHash ↔ node.layer.Steady other.layer) ∧
    ∀ flattened,
      (node.layer.hasVisibleStroke = other.layer.hasVisibleStroke →
        node.loneImageHash flattened = other.loneImageHash flattened) ∧
      (node.loneImageHash flattened = other.loneImageHash flattened →
        (node.contentHash flattened = other.contentHash flattened ↔
          givenHash? node.layer.contentHash ≠ none ∨ node.loneImageHash flattened ≠ none ∨
            if flattened then node.Steady other else node.layer.Steady other.layer)) := by
  refine ⟨apart.facts.digest_iff.trans (canonical_facts_iff near),
    (apart.own _).digest_iff.trans (canonical_ownSignature_iff near), fun flattened =>
      ⟨fun strokes => loneImageHash_of_jitters near strokes flattened, fun images => ?_⟩⟩
  have declared : other.layer.contentHash = node.layer.contentHash := by rw [near.layers.rest]
  -- a hash that was given comes first, then that of a lone image, and only then one of measures
  rw [contentHash, contentHash, declared, ← images]
  cases given : givenHash? node.layer.contentHash with
  | some hash => simp
  | none =>
    cases lone : node.loneImageHash flattened with
    | some hash => simp
    | none =>
      cases flattened with
      | true => simpa using apart.deep.digest_iff.trans (canonical_deepSignature_iff near)
      | false => simpa using (apart.own _).digest_iff.trans (canonical_ownSignature_iff near)

/-! Rules on a board and a picture in a frame, drawn with noise. -/

def hairline (height : Float) : Node Float := .shape (Layer.plain "1" "rule" ⟨0, 0, 40, height⟩) .line

def ruled (noise : Float) : Node Float :=
  .container (Layer.plain "0" "board" ⟨noise, 0, 40 + noise, 20⟩) ⟨.frame, none, false⟩
    [hairline (3 - noise)]

def rimmed (weight : Float) : Node Float :=
  .shape { Layer.plain "1" "rose" ⟨0, 0, 40, 40⟩ with
    fills := [.image ⟨true, 1, some "rose", none⟩]
    strokes := [.solid ⟨true, 1, .black⟩]
    strokeWeight := weight } .rectangle

theorem ruled_jitters : (ruled 0.001).Jitters SameHundredth (ruled 0.002) :=
  ⟨.of_close rfl (by decide +kernel), rfl, ⟨.of_close rfl (by decide +kernel), rfl⟩, trivial⟩

theorem ruled_steady : (ruled 0.001).Steady (ruled 0.002) := by
  have own : (ruled 0.001).layer.Steady (ruled 0.002).layer :=
    ⟨by decide +kernel, by decide +kernel, by decide +kernel, by decide +kernel, by decide +kernel⟩
  have inner : (hairline (3 - 0.001)).layer.Steady (hairline (3 - 0.002)).layer :=
    ⟨by decide +kernel, by decide +kernel, by decide +kernel, by decide +kernel, by decide +kernel⟩
  exact ⟨own, fun _ => ⟨by decide +kernel, by decide +kernel, inner⟩, trivial⟩

theorem ruled_apart : (ruled 0.001).ToldApart (ruled 0.002) where
  facts _ := (Node.canonical_facts_iff ruled_jitters).mpr ⟨ruled_steady.1.width, ruled_steady.1.height,
    ruled_steady.1.strokeWeight, ruled_steady.1.opacity⟩
  own _ _ := (Node.canonical_ownSignature_iff ruled_jitters).mpr ruled_steady.1
  deep _ := (Node.canonical_deepSignature_iff ruled_jitters).mpr ruled_steady

/-- The board of 0.001 and that of 0.002 have the same hashes. -/
theorem ruled_hashes :
    (ruled 0.001).Jitters SameHundredth (ruled 0.002) ∧ (ruled 0.001).ToldApart (ruled 0.002) ∧
    (ruled 0.001).fingerprint = (ruled 0.002).fingerprint ∧
    (ruled 0.001).backgroundHash = (ruled 0.002).backgroundHash ∧
    ∀ flattened, (ruled 0.001).contentHash flattened = (ruled 0.002).contentHash flattened := by
  have own := ruled_steady.1
  obtain ⟨prints, grounds, contents⟩ := Node.hashes_of_jitters ruled_jitters ruled_apart
  refine ⟨ruled_jitters, ruled_apart,
    prints.mpr ⟨own.width, own.height, own.strokeWeight, own.opacity⟩,
    grounds.mpr own, fun flattened => ((contents flattened).2 ((contents flattened).1 ?_)).mpr ?_⟩
  · decide +kernel
  · cases flattened with
    | true => exact .inr (.inr ruled_steady)
    | false => exact .inr (.inr own)

/-- Where no key is repeated, sorting by insertion comes to the same, and the kernel sees through it. -/
theorem Json.digest_object {members : List (String × Json)} (distinct : (members.map (·.1)).Nodup) :
    (object members).digest = Sha256.hexOfText (object
      ((sortedMembers members).insertionSort fun a b => a.1 ≤ b.1)).compact := by
  have total : Std.Total fun a b : String × Json => a.1 ≤ b.1 := ⟨fun a b => le_total a.1 b.1⟩
  have trans : IsTrans (String × Json) fun a b => a.1 ≤ b.1 := ⟨fun _ _ _ => le_trans⟩
  generalize inserted : ((sortedMembers members).insertionSort fun a b => a.1 ≤ b.1) = list
  have perm : list.Perm (sortedMembers members) := inserted ▸ List.perm_insertionSort _ _
  have keys : (list.map (·.1)).Nodup := by
    rw [(perm.map _).nodup_iff, sortedMembers_eq]
    simpa [List.map_map, Function.comp_def] using distinct
  have inOrder : sortMembers list = list := by
    refine List.mergeSort_of_pairwise ?_
    simpa [← inserted] using List.pairwise_insertionSort (fun a b : String × Json => a.1 ≤ b.1) _
  rw [digest, canonical, sorted, ← sortMembers_perm perm keys, inOrder]

theorem Sha256.length_hexOfText (text : String) : (hexOfText text).length = 64 := by
  simp [hexOfText, hex, hexText, Sha256.digest, bytes]

/-- Noise shows in hashes: where it turns a rounded zero around, and where it makes a stroke visible that
covers a picture. -/
theorem noise_shows :
    ((hairline 0.001).Jitters SameHundredth (hairline (-0.001)) ∧
      (hairline 0.001).fingerprint ≠ (hairline (-0.001)).fingerprint) ∧
    (rimmed 0).Jitters SameHundredth (rimmed 0.001) ∧
      ∀ flattened, (rimmed 0).contentHash flattened ≠ (rimmed 0.001).contentHash flattened := by
  refine ⟨⟨⟨.of_close rfl (by decide +kernel), rfl⟩, ?_⟩,
    ⟨.of_close rfl (by decide +kernel), rfl⟩, fun flattened same => ?_⟩
  · rw [Node.fingerprint, Node.fingerprint, Node.facts_eq, Node.facts_eq,
      Json.digest_object (Node.nodup_factMembers _), Json.digest_object (Node.nodup_factMembers _)]
    decide +kernel
  · have picture : (rimmed 0).contentHash flattened = "rose" := by
      cases flattened <;> decide +kernel
    have covered : (rimmed 0.001).loneImageHash flattened = none := by
      cases flattened <;> decide +kernel
    rw [picture, Node.contentHash, covered] at same
    -- no digest is as short as the name of the picture
    have length := congrArg String.length same
    rw [show givenHash? (rimmed 0.001).layer.contentHash = none from rfl] at length
    exact absurd (length.trans (Sha256.length_hexOfText _)) (by decide)

end DesignCompiler
