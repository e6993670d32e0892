import DesignCompiler.Decimal

/-!
Double precision numbers taken apart into sign, mantissa and power of two, and the exact roundings
that need this view: to a whole number, to single precision, and to the fewest decimal digits that
read back as the same double.
-/
namespace DesignCompiler

/-- What a double stands for; a finite one is `mantissa * 2 ^ exponent` up to sign. -/
inductive Binary64 where
  | undefined
  | infinite (negative : Bool)
  | finite (negative : Bool) (mantissa : Nat) (exponent : Int)
deriving DecidableEq, Repr

namespace Binary64

/-- The leading digit of a mantissa, which the stored form leaves out. -/
def hiddenUnit : Nat := 1 <<< 52

def ofFloat (x : Float) : Binary64 :=
  let bits := x.toBits.toNat
  let negative := bits >>> 63 = 1
  let power : Nat := (bits >>> 52) % 2048
  let fraction := bits % hiddenUnit
  if power = 2047 then
    if fraction = 0 then .infinite negative else .undefined
  else if power = 0 then .finite negative fraction (-1074)
  else .finite negative (hiddenUnit + fraction) ((power : Int) - 1075)

/-- How to settle a value halfway between two neighbours. -/
inductive Tie where
  | away
  | even
deriving DecidableEq, Repr

def divideNear (tie : Tie) (n d : Nat) : Nat :=
  let quotient := n / d
  let twice := 2 * (n % d)
  if twice < d then quotient
  else if twice > d then quotient + 1
  else match tie with
    | .away => quotient + 1
    | .even => if quotient % 2 = 0 then quotient else quotient + 1

def wholeNear (tie : Tie) (mantissa : Nat) : Int → Nat
  | .ofNat power => mantissa <<< power
  | .negSucc power => divideNear tie mantissa (1 <<< (power + 1))

def wholeUp (mantissa : Nat) : Int → Nat
  | .ofNat power => mantissa <<< power
  | .negSucc power => (mantissa + (1 <<< (power + 1)) - 1) >>> (power + 1)

def signed (negative : Bool) (size : Nat) : Float :=
  if negative then -(Float.ofNat size) else Float.ofNat size

/-- The nearest whole number, a half away from zero. Zero keeps the sign of the value. -/
def round (x : Float) : Float :=
  match ofFloat x with
  | .finite negative mantissa (.negSucc power) =>
    signed negative (divideNear .away mantissa (1 <<< (power + 1)))
  | _ => x

def ceil (x : Float) : Float :=
  match ofFloat x with
  | .finite negative mantissa (.negSucc power) =>
    if negative then signed true (mantissa >>> (power + 1))
    else signed false (wholeUp mantissa (.negSucc power))
  | _ => x

/-- The nearest integer, a half away from zero, held within `low` and `high`; zero if undefined. -/
def toInt (low high : Int) (x : Float) : Int :=
  match ofFloat x with
  | .undefined => 0
  | .infinite negative => if negative then low else high
  | .finite negative mantissa exponent =>
    let size := wholeNear .away mantissa exponent
    max low (min high (if negative then -(size : Int) else size))

/-- A mantissa cut to `width` binary digits, to the nearest and then to even. -/
def toWidth (width : Nat) (mantissa : Nat) (exponent : Int) : Nat × Int :=
  let excess := mantissa.log2 + 1 - width
  (divideNear .even mantissa (1 <<< excess), exponent + excess)

/-- A share of 255 as a byte, computed in single precision: the share is first cut to 24 binary
digits, and so is the product. -/
def channel (x : Float) : UInt8 :=
  match ofFloat x with
  | .undefined => 255
  | .infinite negative => if negative then 0 else 255
  | .finite true _ _ => 0
  | .finite false mantissa exponent =>
    if wholeUp mantissa exponent > 1 then 255
    else
      let share := toWidth 24 mantissa exponent
      let product := toWidth 24 (share.1 * 255) share.2
      (min 255 (wholeNear .even product.1 product.2)).toUInt8

/-- The candidate on the grid of `10 ^ power` that lies between `low` and `high` and is nearest to
`value`; all three are counted in units of `1 / scale`. -/
def onGrid (tie : Tie) (closed : Bool) (low value high scale : Nat) (power : Int) :
    Option Nat :=
  let up := scale * Nat.pow 10 power.toNat
  let grow := Nat.pow 10 (-power).toNat
  let low := low * grow
  let value := value * grow
  let high := high * grow
  let near := divideNear tie value up
  let below := value / up
  let fits (candidate : Nat) : Bool :=
    let place := candidate * up
    if closed then low ≤ place && place ≤ high else low < place && place < high
  if fits near then some near
  else if fits below then some below
  else if fits (below + 1) then some (below + 1)
  else none

def shortestFrom (tie : Tie) (closed : Bool) (low value high scale : Nat) (leading : Int) :
    Nat → Nat → Option (Nat × Int)
  | 0, _ => none
  | fuel + 1, count =>
    let power := leading - count
    match onGrid tie closed low value high scale power with
    | some digits => some (digits, power)
    | none => shortestFrom tie closed low value high scale leading fuel (count + 1)

def leadingPower (n d : Nat) : Int :=
  if n ≥ d then (Decimal.length (n / d) : Int) - 1
  else -(Decimal.length ((d + n - 1) / n - 1) : Int)

/-- The fewest decimal digits that read back as the double, and of these the nearest to it; `none`
for a value that is not finite. -/
def shortest (tie : Tie) (x : Float) : Option Decimal :=
  match ofFloat x with
  | .finite negative mantissa exponent =>
    if mantissa = 0 then some ⟨negative, 0, 0⟩
    else
      let grow := 1 <<< exponent.toNat
      let scale := 4 <<< (-exponent).toNat
      let value := 4 * mantissa * grow
      let high := (4 * mantissa + 2) * grow
      let low :=
        if mantissa = hiddenUnit ∧ exponent > -1074 then (4 * mantissa - 1) * grow
        else (4 * mantissa - 2) * grow
      let closed := mantissa % 2 = 0
      match shortestFrom tie closed low value high scale (leadingPower value scale) 18 0 with
      | some (digits, power) => some (Decimal.normalize ⟨negative, digits, power⟩)
      | none => none
  | _ => none

/-- The double nearest to a decimal; beyond the largest one it is infinite. -/
def ofDecimal (d : Decimal) : Float :=
  let size :=
    if d.digits = 0 then 0.0
    else if d.leading > 400 then Float.ofScientific 1 false 400
    else if d.leading < -400 then 0.0
    else match d.exponent with
      | .ofNat power => Float.ofScientific d.digits false power
      | .negSucc power => Float.ofScientific d.digits true (power + 1)
  if d.negative then -size else size

def isFinite (x : Float) : Bool :=
  match ofFloat x with
  | .finite .. => true
  | _ => false

/-- The double in full decimal digits; the halfway digit goes up. -/
def plainText (x : Float) : String :=
  match ofFloat x with
  | .undefined => "NaN"
  | .infinite negative => if negative then "-inf" else "inf"
  | .finite .. => ((shortest .away x).getD default).plainText

/-- The double with a fixed number of places after the point, a half going to the even neighbour. -/
def fixedText (places : Nat) (x : Float) : String :=
  match ofFloat x with
  | .undefined => "NaN"
  | .infinite negative => if negative then "-inf" else "inf"
  | .finite negative mantissa exponent =>
    let digits := wholeNear .even (mantissa * Nat.pow 10 places) exponent
    let shown := Decimal.natText digits
    let padded := Decimal.zeros (places + 1 - shown.length) ++ shown
    (if negative then "-" else "") ++ (padded.take (padded.length - places)).toString ++
      (if places = 0 then "" else "." ++ (padded.drop (padded.length - places)).toString)

/-- The stored form as an integer that orders all doubles: negative ones in reverse below the
positive ones. -/
def orderKey (x : Float) : Int :=
  let bits := x.toBits.toNat
  if bits ≥ 0x8000000000000000 then -((bits - 0x8000000000000000 : Nat) : Int) - 1 else bits

end Binary64
end DesignCompiler
