import DesignCompiler.Url.Domain
import DesignCompiler.Url.Escape

/-!
Hosts of URLs: names, and addresses of the two kinds.
-/
namespace DesignCompiler.Url

inductive Host where
  /-- A name, which is empty where there is no host. -/
  | name (text : String)
  | ipv4 (address : Nat)
  | ipv6 (groups : List Nat)
deriving DecidableEq, Repr

namespace Ipv4

/-- What a part of an address says: no number, a number, or one that is out of bounds. -/
inductive Part where
  | malformed
  | number (value : Nat)
  | tooLarge
deriving DecidableEq, Repr

def digitsOf : List Char → Nat × List Char
  | '0' :: 'x' :: rest | '0' :: 'X' :: rest => (16, rest)
  | '0' :: c :: rest => (8, c :: rest)
  | digits => (10, digits)

/-- Reads a part, which is decimal, octal after a zero, or hexadecimal. -/
def part (text : String) : Part :=
  if text.isEmpty then .malformed
  else
    let (base, digits) := digitsOf text.toList
    match digits.mapM fun c => (hexValue? c).filter (· < base) with
    | none => .malformed
    | some values =>
      let value := values.foldl (fun sum value => sum * base + value) 0
      if value < 4294967296 then .number value else .tooLarge

/-- The parts of a name, without an empty one at its end. -/
def parts (name : String) : List String :=
  let parts := name.splitOn "."
  if 1 < parts.length ∧ parts.getLast? = some "" then parts.dropLast else parts

/-- A name is an address if its last part is a number. -/
def isAddress (name : String) : Bool :=
  match (parts name).getLast? with
  | none => false
  | some last =>
    (!last.isEmpty && last.toList.all fun c => '0' ≤ c && c ≤ '9') || part last != .malformed

/-- The address of numbers; the last one fills what the others leave. -/
def ofNumbers : List Nat → Nat → Option Nat
  | [], _ => none
  | [last], room => if last < room then some last else none
  | number :: rest, room =>
    if number < 256 then (ofNumbers rest (room / 256)).map (number * (room / 256) + ·) else none

def parse (name : String) : Except Fault Nat :=
  let parts := parts name
  if 4 < parts.length then .error .ipv4Address
  else
    let numbers := parts.mapM fun text =>
      match part text with
      | .number value => some value
      | _ => none
    match numbers.bind (ofNumbers · 4294967296) with
    | some address => .ok address
    | none => .error .ipv4Address

end Ipv4

namespace Ipv6

def group? (text : String) : Option Nat := do
  let values ← text.toList.mapM hexValue?
  if 1 ≤ values.length ∧ values.length ≤ 4 then
    some (values.foldl (fun sum value => sum * 16 + value) 0)
  else none

/-- A decimal number below 256 without a needless zero. -/
def octet? (text : String) : Option Nat := do
  let values ← text.toList.mapM fun c => (hexValue? c).filter (· < 10)
  let value := values.foldl (fun sum value => sum * 10 + value) 0
  if values.isEmpty ∨ (values.head? = some 0 ∧ 1 < values.length) ∨ 256 ≤ value then none
  else some value

def dotted? (text : String) : Option (List Nat) := do
  match ← (text.splitOn ".").mapM octet? with
  | [a, b, c, d] => some [a * 256 + b, c * 256 + d]
  | _ => none

/-- Groups between colons. Where an address ends, the last group may be dotted. -/
def groups? (atEnd : Bool) : List String → Option (List Nat)
  | [] => some []
  | [last] => if atEnd ∧ last.contains '.' then dotted? last else (group? last).map ([·])
  | text :: rest => do
    let value ← group? text
    let values ← groups? atEnd rest
    return value :: values

def side? (atEnd : Bool) (text : String) : Option (List Nat) :=
  if text.isEmpty then some [] else groups? atEnd (text.splitOn ":")

/-- Eight groups, of which a row of zeros may be left out between two colons. -/
def parse? (text : String) : Option (List Nat) :=
  match text.splitOn "::" with
  | [] => none
  | [whole] => do
    let groups ← side? true whole
    if groups.length = 8 then some groups else none
  | first :: rest => do
    let front ← side? false first
    let back ← side? true ("::".intercalate rest)
    let length := front.length + back.length
    if length < 8 then some (front ++ List.replicate (8 - length) 0 ++ back) else none

end Ipv6

namespace Host

def bracketed (chars : List Char) : Except Fault Host :=
  if chars.getLast? = some ']' then
    match Ipv6.parse? (String.ofList chars.tail.dropLast) with
    | some groups => .ok (.ipv6 groups)
    | none => .error .ipv6Address
  else .error .ipv6Address

def parse (chars : List Char) : Except Fault Host :=
  if chars.head? = some '[' then bracketed chars
  else
    match String.fromUTF8? ⟨(unescape chars).toArray⟩ with
    | none => .error .internationalName
    | some decoded => do
      let name ← Domain.ascii decoded.toList
      if name.isEmpty then .error .emptyHost
      else if Ipv4.isAddress name then (Ipv4.parse name).map .ipv4
      else .ok (.name name)

/-- Characters that no host has where the scheme is not known. -/
def isForbidden (c : Char) : Bool := c = '\x00' || " #/:<>?@[\\]^|".contains c

/-- The host of a URL with a scheme that is not known. -/
def parseForeign (chars : List Char) : Except Fault Host :=
  if chars.head? = some '[' then bracketed chars
  else if chars.any isForbidden then .error .domainCharacter
  else .ok (.name (escape "" chars))

end Host
end DesignCompiler.Url
