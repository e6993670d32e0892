import DesignCompiler.Scalar
import Mathlib.Data.Rat.Floor

/-!
Rationals as the numbers of a design. All that doubles round is exact with them, apart from angles.
-/
namespace DesignCompiler.Scalar

/-- To the nearest integer, a half away from zero. -/
def nearestInt (x : Rat) : Int := if x < 0 then -⌊-x + 1 / 2⌋ else ⌊x + 1 / 2⌋

/-- The digits of a rational that has finitely many of them. -/
def digitsOf? (x : Rat) : Option Decimal :=
  ((List.range (x.den.log2 + 1)).find? fun (places : Nat) => 10 ^ places % x.den == 0).map fun (places : Nat) =>
    ⟨decide (x < 0), x.num.natAbs * (10 ^ places / x.den), -(places : Int)⟩

def ofDigits (decimal : Decimal) : Rat :=
  let size : Rat := decimal.digits * (10 : Rat) ^ decimal.exponent
  if decimal.negative then -size else size

instance : Scalar Rat where
  decLt := inferInstance
  decLe := inferInstance
  ofNat n := n
  round x := nearestInt x
  ceil x := ⌈x⌉
  toInt low high x := max low (min high (nearestInt x))
  order x y := compare x y
  isFinite _ := true
  -- exact along the axes and the diagonals only, which is as far as rational angles go
  degrees x y :=
    if y = 0 then if x < 0 then 180 else 0
    else if x = 0 then if y < 0 then -90 else 90
    else if 0 < x then if y < 0 then -45 else 45
    else if y < 0 then -135 else 135
  channel x := UInt8.ofNat (max 0 (min 255 (nearestInt (x * 255)))).toNat
  plainText x := ((digitsOf? x).map Decimal.plainText).getD ""
  number? x := (digitsOf? x).map .decimal
  ofNumber
    | .integer value => value
    | .decimal value => ofDigits value

end DesignCompiler.Scalar
