/-!
Bytes of a URL written as a percent sign and two hexadecimal digits.
-/
namespace DesignCompiler.Url

/-- The hexadecimal digit of a value below sixteen, in upper case. -/
def upperHexDigit (value : Nat) : Char := Char.ofNat (if value < 10 then 48 + value else 55 + value)

def hexValue? (c : Char) : Option Nat :=
  if '0' ≤ c ∧ c ≤ '9' then some (c.toNat - 48)
  else if 'a' ≤ c ∧ c ≤ 'f' then some (c.toNat - 87)
  else if 'A' ≤ c ∧ c ≤ 'F' then some (c.toNat - 55)
  else none

def escapeByte (byte : UInt8) : List Char :=
  ['%', upperHexDigit (byte.toNat / 16), upperHexDigit (byte.toNat % 16)]

/-- Escapes the characters of a set, and all that are not printable ASCII. -/
def escape (reserved : String) (chars : List Char) : String :=
  String.ofList (chars.flatMap fun c =>
    if ' ' ≤ c ∧ c ≤ '~' ∧ !reserved.contains c then [c]
    else (String.singleton c).toUTF8.toList.flatMap escapeByte)

/-- The bytes of a text whose escapes are resolved; a percent sign without digits is kept. -/
def unescape : List Char → List UInt8
  | [] => []
  | '%' :: high :: low :: rest =>
    match hexValue? high, hexValue? low with
    | some high, some low => (high * 16 + low).toUInt8 :: unescape rest
    | _, _ => 37 :: unescape (high :: low :: rest)
  | c :: rest => (String.singleton c).toUTF8.toList ++ unescape rest

def fragmentReserved : String := " \"<>`"

def pathReserved : String := " \"<>`#?\x7b\x7d"

/-- What is escaped in a query. Quotes are so only where the scheme is a known one. -/
def queryReserved (special : Bool) : String := if special then " \"<>#'" else " \"<>#"

/-- What is escaped in the name and the password of a user. -/
def userReserved : String := " \"<>`#?\x7b\x7d/:;=@[\\]^|"

end DesignCompiler.Url
