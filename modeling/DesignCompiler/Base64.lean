import DesignCompiler.Decimal

/-!
Bytes as text of 64 symbols, each for six bits. The text is padded to whole groups of four, and the
bits that the last symbol does not need are zero; nothing else is accepted.
-/
namespace DesignCompiler.Base64

inductive Fault where
  | symbol (value : UInt8) (position : Nat)
  /-- One symbol too many to be part of any byte. -/
  | length
  /-- The last symbol has bits that belong to no byte. -/
  | lastSymbol (value : UInt8) (position : Nat)
  | padding
deriving DecidableEq, Repr

def Fault.message : Fault → String
  | symbol value position =>
    "Invalid byte " ++ Decimal.natText value.toNat ++ ", offset " ++
      Decimal.natText position ++ "."
  | length => "Encoded text cannot have a 6-bit remainder."
  | lastSymbol value position =>
    "Invalid last symbol " ++ Decimal.natText value.toNat ++ ", offset " ++
      Decimal.natText position ++ "."
  | padding => "Invalid padding"

def pad : UInt8 := 61

def bits? (symbol : UInt8) : Option Nat :=
  let code := symbol.toNat
  if 65 ≤ code ∧ code ≤ 90 then some (code - 65)
  else if 97 ≤ code ∧ code ≤ 122 then some (code - 71)
  else if 48 ≤ code ∧ code ≤ 57 then some (code + 4)
  else if code = 43 then some 62
  else if code = 47 then some 63
  else none

/-- The symbols before the last group of eight, where there is no padding. -/
def body (position : Nat) (taken : List Nat) : List UInt8 → Except Fault (List Nat)
  | [] => .ok taken.reverse
  | symbol :: rest =>
    match bits? symbol with
    | some bits => body (position + 1) (bits :: taken) rest
    | none => .error (.symbol symbol position)

/-- The symbols of the last group of eight and where its padding begins. -/
def tail (position : Nat) (padding : Option Nat) (taken : List Nat) :
    List UInt8 → Except Fault (List Nat × Option Nat)
  | [] => .ok (taken.reverse, padding)
  | symbol :: rest =>
    if symbol = pad then
      if position % 4 < 2 then .error (.symbol symbol position)
      else tail (position + 1) (some (padding.getD position)) taken rest
    else match padding with
      | some first => .error (.symbol pad first)
      | none =>
        match bits? symbol with
        | some bits => tail (position + 1) none (bits :: taken) rest
        | none => .error (.symbol symbol position)

/-- The bytes of symbols; with two symbols left there is one more byte, with three there are two. -/
def bytes : List Nat → List UInt8
  | a :: b :: c :: d :: rest =>
    let group := ((a * 64 + b) * 64 + c) * 64 + d
    (group / 65536).toUInt8 :: (group / 256 % 256).toUInt8 :: (group % 256).toUInt8 :: bytes rest
  | [a, b, c] =>
    let group := ((a * 64 + b) * 64 + c) / 4
    [(group / 256).toUInt8, (group % 256).toUInt8]
  | [a, b] => [((a * 64 + b) / 16).toUInt8]
  | _ => []

/-- The bits of the last symbol that belong to no byte. -/
def spare (symbols : List Nat) : Nat :=
  match symbols.length % 4, symbols.getLast? with
  | 2, some last => last % 16
  | 3, some last => last % 4
  | _, _ => 0

/-- The bytes that a text stands for. -/
def decode (encoded : String) : Except Fault (List UInt8) :=
  let input := encoded.toUTF8.toList
  let count := input.length
  match count % 4, input.getLast? with
  | 1, some last =>
    if last ≠ pad ∧ (bits? last).isNone then .error (.symbol last (count - 1))
    else .error .length
  | _, last => do
    let start := (count - 1) / 8 * 8
    let front ← body 0 [] (input.take start)
    let (back, _) ← tail start none [] (input.drop start)
    let symbols := front ++ back
    if count % 4 ≠ 0 then .error .padding
    else if spare symbols ≠ 0 then
      .error (.lastSymbol ((input[symbols.length - 1]?).getD (last.getD 0)) (symbols.length - 1))
    else .ok (bytes symbols)

end DesignCompiler.Base64
