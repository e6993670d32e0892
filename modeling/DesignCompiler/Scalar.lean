import DesignCompiler.Json

/-!
The numbers a design is measured in. The compiler only uses what this class offers, so a design can
be compiled with doubles, as the program does, and reasoned about with exact rationals.
-/
namespace DesignCompiler

class Scalar (α : Type) extends Add α, Sub α, Mul α, Div α, Neg α, LT α, LE α, BEq α where
  decLt : DecidableLT α
  decLe : DecidableLE α
  ofNat : Nat → α
  /-- To the nearest whole number, a half away from zero. -/
  round : α → α
  /-- The least whole number not below. -/
  ceil : α → α
  /-- The nearest integer, a half away from zero, held within two bounds. -/
  toInt : Int → Int → α → Int
  /-- Compares any two numbers, also those that `<` leaves apart. -/
  order : α → α → Ordering
  isFinite : α → Bool
  /-- The angle of a direction in degrees, from its horizontal and its vertical part. -/
  degrees : α → α → α
  /-- A share of 255 as a byte. -/
  channel : α → UInt8
  /-- The number in prose and markup. -/
  plainText : α → String
  /-- The number in a data file, if it is finite. -/
  number? : α → Option Json.Number
  ofNumber : Json.Number → α

namespace Scalar

attribute [reducible, instance] Scalar.decLt Scalar.decLe

variable {α : Type} [Scalar α]

instance (priority := low) instOfNatScalar (n : Nat) : OfNat α n := ⟨Scalar.ofNat n⟩

def half : α := 1 / 2

def abs (x : α) : α := if x < 0 then -x else x

/-- The lesser of two; an undefined number gives way. -/
def least (x y : α) : α := if y < x then y else if x == x then x else y

/-- The greater of two; an undefined number gives way. -/
def greatest (x y : α) : α := if x < y then y else if x == x then x else y

/-- Holds a number within zero and one. -/
def unit (x : α) : α := if x < 0 then 0 else if 1 < x then 1 else x

/-- The nearest hundredth. -/
def hundredths (x : α) : α := round (x * 100) / 100

/-- The number two apart by less than the spacing of doubles at one are told apart from. -/
def epsilon : α := 1 / ofNat 0x10000000000000

/-- The same number in every respect, also where `==` is blind to a difference. -/
def identical (x y : α) : Bool := order x y == .eq

/-- A finite number, or null. -/
def json (x : α) : Json :=
  match number? x with
  | some value => .number value
  | none => .null

def ofJson? : Json → Option α
  | .number value => some (ofNumber value)
  | _ => none

end Scalar
end DesignCompiler
