/-!
Numbers in decimal digits, and the two ways of writing them: with a power of ten once the number is
long, or always in full. Writing never rounds; the digits are chosen before.
-/
namespace DesignCompiler

/-- The number `digits * 10 ^ exponent`, below zero when `negative`. -/
structure Decimal where
  negative : Bool
  digits : Nat
  exponent : Int
deriving DecidableEq, Repr, Inhabited

namespace Decimal

def length (n : Nat) : Nat := (Nat.toDigits 10 n).length

def natText (n : Nat) : String := String.ofList (Nat.toDigits 10 n)

/-- Decimal digits of an integer, after a minus sign if it is below zero. -/
def intText : Int → String
  | .ofNat n => natText n
  | .negSucc n => "-" ++ natText (n + 1)

def zeros (n : Nat) : String := String.ofList (List.replicate n '0')

/-- Drops trailing zeros from the digits; at most `fuel` of them. -/
def stripZeros : Nat → Nat → Int → Nat × Int
  | 0, digits, exponent => (digits, exponent)
  | fuel + 1, digits, exponent =>
    if digits % 10 = 0 then stripZeros fuel (digits / 10) (exponent + 1) else (digits, exponent)

/-- The same number without trailing zeros in its digits; zero has exponent zero. -/
def normalize (d : Decimal) : Decimal :=
  if d.digits = 0 then { d with exponent := 0 }
  else
    let stripped := stripZeros (length d.digits) d.digits d.exponent
    { d with digits := stripped.1, exponent := stripped.2 }

def leading (d : Decimal) : Int := d.exponent + (length d.digits - 1 : Nat)

def sign (d : Decimal) : String := if d.negative then "-" else ""

def positional (d : Decimal) : String :=
  let text := natText d.digits
  if d.exponent ≥ 0 then text ++ zeros d.exponent.toNat
  else
    let places := (-d.exponent).toNat
    let shown := Nat.toDigits 10 d.digits
    if places < shown.length then
      String.ofList (shown.take (shown.length - places)) ++ "." ++
        String.ofList (shown.drop (shown.length - places))
    else "0." ++ zeros (places - shown.length) ++ text

/-- One digit before the point, and the power of ten with its sign. -/
def scientific (d : Decimal) : String :=
  let fraction :=
    match Nat.toDigits 10 d.digits with
    | [] => "0"
    | [digit] => String.ofList [digit]
    | digit :: rest => String.ofList (digit :: '.' :: rest)
  let power := d.leading
  fraction ++ (if power < 0 then "e-" else "e+") ++ natText power.natAbs

/-- The form in data files: in full for leading powers from -5 to 15, and then never without a
point. -/
def dataText (d : Decimal) : String :=
  let d := d.normalize
  d.sign ++
    if -5 ≤ d.leading ∧ d.leading ≤ 15 then
      d.positional ++ (if d.exponent ≥ 0 then ".0" else "")
    else d.scientific

/-- The form in prose and markup: always in full, a whole number without a point. -/
def plainText (d : Decimal) : String :=
  let d := d.normalize
  d.sign ++ d.positional

end Decimal
end DesignCompiler
