import DesignCompiler.Binary64
import DesignCompiler.Scalar

/-!
Doubles as the numbers of a design.
-/
namespace DesignCompiler.Scalar

def degreesPerRadian : Float := 180.0 / 3.14159265358979323846264338327950288

/-- The double nearest to a number of a data file. -/
def doubleOfNumber : Json.Number → Float
  | .integer value => Float.ofInt value
  | .decimal value => Binary64.ofDecimal value

instance : Scalar Float where
  decLt := inferInstance
  decLe := inferInstance
  ofNat := Float.ofNat
  round := Binary64.round
  ceil := Binary64.ceil
  toInt := Binary64.toInt
  order x y := compare (Binary64.orderKey x) (Binary64.orderKey y)
  isFinite := Binary64.isFinite
  degrees x y := Float.atan2 y x * degreesPerRadian
  channel := Binary64.channel
  plainText := Binary64.plainText
  number? x := (Binary64.shortest .even x).map .decimal
  ofNumber := doubleOfNumber

end DesignCompiler.Scalar
