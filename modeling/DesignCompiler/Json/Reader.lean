import DesignCompiler.Binary64
import DesignCompiler.Json

/-!
Reading JSON. A text is read against a shape that tells which members the caller will look at: the
others must be well formed but need not stand for a value, so a number too large for a double or half
of a surrogate pair is no fault there, and neither is deep nesting.
-/
namespace DesignCompiler.Json

/-- What a caller will look at. -/
inductive Shape where
  /-- The whole value. -/
  | whole
  /-- Nothing. -/
  | ignored
  /-- Each item of an array, or each member of an object, in the same way. -/
  | each (item : Shape)
  /-- Named members of an object in their own way, and the others in one way. An array is looked at
  as the values of the named members in this order. -/
  | record (fields : List (String × Shape)) (others : Shape)
deriving Repr, Inhabited

namespace Shape

def isIgnored : Shape → Bool
  | ignored => true
  | _ => false

/-- Looks only at the named members, and there at everything. -/
def only (keys : List String) : Shape := record (keys.map (·, whole)) ignored

def field (key : String) : Shape → Shape
  | record fields others => ((fields.find? (·.1 == key)).map (·.2)).getD others
  | each item => item
  | shape => shape

def item (position : Nat) : Shape → Shape
  | record fields _ => (fields[position]?.map (·.2)).getD whole
  | each item => item
  | shape => shape

end Shape

def tenTo (power : Nat) : Float := Binary64.ofDecimal ⟨false, 1, power⟩

/-- The greatest power of ten that a double can hold. -/
def powerLimit : Nat := 308

/-- The leading digits of a number that 64 bits have room for, and how many digits are left out. The first
argument bounds the digits. -/
def leadingDigits : Nat → Nat → Nat × Nat
  | 0, size => (size, 0)
  | fuel + 1, size =>
    if size < UInt64.size then (size, 0)
    else
      let (held, lost) := leadingDigits fuel (size / 10)
      (held, lost + 1)

/-- Takes in digits behind a point, the last `left` ones of a value, as long as 64 bits have room for them. -/
def takeDigits (value : Nat) : Nat → Nat → Int → Nat × Int
  | 0, held, exponent => (held, exponent)
  | left + 1, held, exponent =>
    let next := held * 10 + value / Nat.pow 10 left % 10
    if next < UInt64.size then takeDigits value left next (exponent - 1) else (held, exponent)

/-- A number times a power of ten; `none` if it is beyond all doubles. The number is rounded first, and then the
product or the quotient, so that the double need not be the nearest one. -/
def scaled (held : Nat) : Int → Option Float
  | .ofNat power =>
    if power ≤ powerLimit then some (Binary64.ofDecimal ⟨false, held, 0⟩ * tenTo power)
    else if held = 0 then some 0 else none
  | .negSucc power =>
    let power := power + 1
    let size := Binary64.ofDecimal ⟨false, held, 0⟩
    if power ≤ powerLimit then some (size / tenTo power)
    else if power ≤ 2 * powerLimit then some (size / tenTo powerLimit / tenTo (power - powerLimit))
    else some 0

/-- The double of a number by its digits, how many of them are behind the point, and its power of ten. -/
def Number.ofDigits? (negative : Bool) (value places : Nat) (power : Int) : Option Number := do
  let whole := value / Nat.pow 10 places
  let (held, lost) := leadingDigits (Decimal.length whole) whole
  let (held, exponent) := takeDigits value places held lost
  let size ← scaled held (exponent + power)
  return .decimal (← Binary64.shortest .even (if negative then -size else size))

/-- An integer within 64 bits stays one; any other becomes a double, and so does minus zero. -/
def Number.ofInteger? (negative : Bool) (size : Nat) : Option Number :=
  if negative then
    if size = 0 ∨ size > 0x8000000000000000 then Number.ofDigits? true size 0 0
    else some (.integer (-(size : Int)))
  else if size < UInt64.size then some (.integer size)
  else Number.ofDigits? false size 0 0

namespace Reader

/-- The deepest nesting of a value that is looked at. -/
def depthLimit : Nat := 127

def skipBlank : List Char → List Char
  | ' ' :: rest => skipBlank rest
  | '\n' :: rest => skipBlank rest
  | '\t' :: rest => skipBlank rest
  | '\r' :: rest => skipBlank rest
  | rest => rest

def digit? (c : Char) : Option Nat :=
  if '0' ≤ c ∧ c ≤ '9' then some (c.toNat - '0'.toNat) else none

def hexDigit? (c : Char) : Option Nat :=
  if '0' ≤ c ∧ c ≤ '9' then some (c.toNat - '0'.toNat)
  else if 'a' ≤ c ∧ c ≤ 'f' then some (c.toNat - 'a'.toNat + 10)
  else if 'A' ≤ c ∧ c ≤ 'F' then some (c.toNat - 'A'.toNat + 10)
  else none

def hexQuad? (a b c d : Char) : Option Nat := do
  return (((← hexDigit? a) * 16 + (← hexDigit? b)) * 16 + (← hexDigit? c)) * 16 + (← hexDigit? d)

def isHighSurrogate (code : Nat) : Bool := 0xd800 ≤ code && code < 0xdc00

def isLowSurrogate (code : Nat) : Bool := 0xdc00 ≤ code && code < 0xe000

def escape? : Char → Option Char
  | '"' => some '"'
  | '\\' => some '\\'
  | '/' => some '/'
  | 'b' => some '\x08'
  | 'f' => some '\x0c'
  | 'n' => some '\n'
  | 'r' => some '\r'
  | 't' => some '\t'
  | _ => none

/-- The rest of a string after its opening quote, and the text after the closing one. Where the
value is looked at, the first half of a surrogate pair waits in `pending` for the second. -/
def stringBody (strict : Bool) (pending : Option Nat) (taken : List Char) :
    List Char → Option (String × List Char)
  | [] => none
  | '"' :: rest => if pending.isSome then none else some (String.ofList taken.reverse, rest)
  | '\\' :: 'u' :: a :: b :: c :: d :: rest =>
    match hexQuad? a b c d, pending with
    | none, _ => none
    | some code, some high =>
      if isLowSurrogate code then
        let pair := 0x10000 + (high - 0xd800) * 0x400 + (code - 0xdc00)
        stringBody strict none (Char.ofNat pair :: taken) rest
      else none
    | some code, none =>
      if strict && isHighSurrogate code then stringBody strict (some code) taken rest
      else if strict && isLowSurrogate code then none
      else stringBody strict none (Char.ofNat code :: taken) rest
  | '\\' :: c :: rest =>
    match escape? c, pending with
    | some plain, none => stringBody strict none (plain :: taken) rest
    | _, _ => none
  | c :: rest =>
    if c.toNat < 0x20 || pending.isSome then none else stringBody strict none (c :: taken) rest

/-- The digits at the front, as a number put behind `value`, how many there are, and the rest. -/
def digits (value count : Nat) : List Char → Nat × Nat × List Char
  | [] => (value, count, [])
  | c :: rest =>
    match digit? c with
    | some d => digits (value * 10 + d) (count + 1) rest
    | none => (value, count, c :: rest)

/-- A sign and digits after the letter of a power of ten. -/
def power (text : List Char) : Option (Int × List Char) :=
  let (negative, text) :=
    match text with
    | '-' :: rest => (true, rest)
    | '+' :: rest => (false, rest)
    | rest => (false, rest)
  let (value, count, rest) := digits 0 0 text
  if count = 0 then none else some (if negative then -(value : Int) else value, rest)

/-- A number at the front of the text, and the rest. -/
def number (strict : Bool) (text : List Char) : Option (Number × List Char) :=
  let (negative, text) :=
    match text with
    | '-' :: rest => (true, rest)
    | rest => (false, rest)
  let (whole, count, rest) := digits 0 0 text
  if count = 0 ∨ (count > 1 ∧ text.head? = some '0') then none
  else
    let fraction : Option (Nat × Nat × Bool × List Char) :=
      match rest with
      | '.' :: rest =>
        let (value, places, rest) := digits whole 0 rest
        if places = 0 then none else some (value, places, true, rest)
      | rest => some (whole, 0, false, rest)
    match fraction with
    | none => none
    | some (value, places, pointed, rest) =>
      let scaled : Option (Int × Bool × List Char) :=
        match rest with
        | 'e' :: rest => (power rest).map fun (n, rest) => (n, true, rest)
        | 'E' :: rest => (power rest).map fun (n, rest) => (n, true, rest)
        | rest => some (0, false, rest)
      match scaled with
      | none => none
      | some (exponent, raised, rest) =>
        let read :=
          if pointed || raised then Number.ofDigits? negative value places exponent
          else Number.ofInteger? negative value
        match read with
        | some value => some (value, rest)
        | none => if strict then none else some (.integer 0, rest)

mutual

/-- A value at the front of the text, and the rest. The first argument bounds the steps, the second
the nesting. -/
def value : Nat → Nat → Shape → List Char → Option (Json × List Char)
  | 0, _, _, _ => none
  | fuel + 1, depth, shape, text =>
    let strict := !shape.isIgnored
    match skipBlank text with
    | 'n' :: 'u' :: 'l' :: 'l' :: rest => some (.null, rest)
    | 't' :: 'r' :: 'u' :: 'e' :: rest => some (.bool true, rest)
    | 'f' :: 'a' :: 'l' :: 's' :: 'e' :: rest => some (.bool false, rest)
    | '"' :: rest => (stringBody strict none [] rest).map fun (text, rest) => (.string text, rest)
    | '[' :: rest =>
      if strict && depth = 0 then none
      else
        match skipBlank rest with
        | ']' :: rest => some (.array [], rest)
        | rest => (items fuel (depth - 1) shape 0 [] rest).map fun (read, rest) =>
            (.array read, rest)
    | '\x7b' :: rest =>
      if strict && depth = 0 then none
      else
        match skipBlank rest with
        | '\x7d' :: rest => some (.object [], rest)
        | rest => (members fuel (depth - 1) shape [] rest).map fun (read, rest) =>
            (.object read, rest)
    | rest => (number strict rest).map fun (read, rest) => (.number read, rest)

/-- The items of an array up to its closing bracket. -/
def items : Nat → Nat → Shape → Nat → List Json → List Char → Option (List Json × List Char)
  | 0, _, _, _, _, _ => none
  | fuel + 1, depth, shape, position, taken, text =>
    match value fuel depth (shape.item position) text with
    | none => none
    | some (read, rest) =>
      match skipBlank rest with
      | ',' :: rest => items fuel depth shape (position + 1) (read :: taken) rest
      | ']' :: rest => some ((read :: taken).reverse, rest)
      | _ => none

/-- The members of an object up to its closing brace; those that are not looked at are dropped. -/
def members : Nat → Nat → Shape → List (String × Json) → List Char →
    Option (List (String × Json) × List Char)
  | 0, _, _, _, _ => none
  | fuel + 1, depth, shape, taken, text =>
    match skipBlank text with
    | '"' :: rest =>
      match stringBody (!shape.isIgnored) none [] rest with
      | none => none
      | some (key, rest) =>
        match skipBlank rest with
        | ':' :: rest =>
          let inner := shape.field key
          match value fuel depth inner rest with
          | none => none
          | some (read, rest) =>
            let taken := if inner.isIgnored then taken else (key, read) :: taken
            match skipBlank rest with
            | ',' :: rest => members fuel depth shape taken rest
            | '\x7d' :: rest => some (taken.reverse, rest)
            | _ => none
        | _ => none
    | _ => none

end

/-- Reads a text that holds one value and nothing else, nested no deeper than a limit. -/
def readWithin (limit : Nat) (shape : Shape) (text : String) : Option Json :=
  let chars := text.toList
  match value (2 * chars.length + 2) limit shape chars with
  | some (read, rest) => if (skipBlank rest).isEmpty then some read else none
  | none => none

def read (shape : Shape) (text : String) : Option Json := readWithin depthLimit shape text

end Reader

def parse (text : String) : Option Json := Reader.read .whole text

/-- Reads a text of any depth. No value is nested deeper than its text is long. -/
def parseDeep (text : String) : Option Json := Reader.readWithin text.length .whole text

end DesignCompiler.Json
