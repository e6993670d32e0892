import DesignCompiler.Json

/-!
Writing JSON: one line without blanks, one line with members sorted by key, or indented by two
blanks a level.
-/
namespace DesignCompiler.Json

def Number.text : Number → String
  | .integer value => Decimal.intText value
  | .decimal value => value.dataText

def hexDigit (n : Nat) : Char := (Nat.digitChar n)

/-- A character as it stands between quotes. -/
def escapeChar (c : Char) : List Char :=
  match c with
  | '"' => ['\\', '"']
  | '\\' => ['\\', '\\']
  | '\n' => ['\\', 'n']
  | '\r' => ['\\', 'r']
  | '\t' => ['\\', 't']
  | '\x08' => ['\\', 'b']
  | '\x0c' => ['\\', 'f']
  | c =>
    if c.toNat < 0x20 then
      ['\\', 'u', '0', '0', hexDigit (c.toNat / 16), hexDigit (c.toNat % 16)]
    else [c]

/-- A text between quotes. -/
def quote (text : String) : String :=
  "\"" ++ String.ofList (text.toList.flatMap escapeChar) ++ "\""

mutual

/-- The text on one line without blanks. -/
def compact : Json → String
  | .null => "null"
  | .bool true => "true"
  | .bool false => "false"
  | .number value => value.text
  | .string value => quote value
  | .array items => "[" ++ compactItems items ++ "]"
  | .object members => "\x7b" ++ compactMembers members ++ "\x7d"

def compactItems : List Json → String
  | [] => ""
  | [item] => item.compact
  | item :: rest => item.compact ++ "," ++ compactItems rest

def compactMembers : List (String × Json) → String
  | [] => ""
  | [(key, value)] => quote key ++ ":" ++ value.compact
  | (key, value) :: rest => quote key ++ ":" ++ value.compact ++ "," ++ compactMembers rest

end

/-- The one text of all values that differ only in the order of members. -/
def canonical (value : Json) : String := value.sorted.compact

def indent (level : Nat) : String := String.ofList (List.replicate (2 * level) ' ')

mutual

/-- The indented text of a value whose first line stands at `level`. -/
def prettyAt (level : Nat) : Json → String
  | .array [] => "[]"
  | .array (item :: rest) =>
    "[\n" ++ prettyItems (level + 1) (item :: rest) ++ "\n" ++ indent level ++ "]"
  | .object [] => "\x7b\x7d"
  | .object (entry :: rest) =>
    "\x7b\n" ++ prettyMembers (level + 1) (entry :: rest) ++ "\n" ++ indent level ++ "\x7d"
  | other => other.compact

def prettyItems (level : Nat) : List Json → String
  | [] => ""
  | [item] => indent level ++ item.prettyAt level
  | item :: rest => indent level ++ item.prettyAt level ++ ",\n" ++ prettyItems level rest

def prettyMembers (level : Nat) : List (String × Json) → String
  | [] => ""
  | [(key, value)] => indent level ++ quote key ++ ": " ++ value.prettyAt level
  | (key, value) :: rest =>
    indent level ++ quote key ++ ": " ++ value.prettyAt level ++ ",\n" ++ prettyMembers level rest

end

def pretty (value : Json) : String := value.prettyAt 0

end DesignCompiler.Json
