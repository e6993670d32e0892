import DesignCompiler.Decimal

/-!
JSON values. Whole numbers and numbers with a point are different values, and an object keeps its
members in the order they were written, repeated keys included, until a reader decides about them.
-/
namespace DesignCompiler

/-- A number of a JSON text: `3` is an integer, `3.0` is a decimal. -/
inductive Json.Number where
  | integer (value : Int)
  | decimal (value : Decimal)
deriving DecidableEq, Repr, Inhabited

inductive Json where
  | null
  | bool (value : Bool)
  | number (value : Json.Number)
  | string (value : String)
  | array (items : List Json)
  | object (members : List (String × Json))
deriving Repr, Inhabited

namespace Json

def int (value : Int) : Json := .number (.integer value)

def nat (value : Nat) : Json := .number (.integer value)

/-- The text, or null if there is none. -/
def ofText? : Option String → Json
  | some text => .string text
  | none => .null

/-- The value, or null if there is none. -/
def orNull {α : Type} (json : α → Json) : Option α → Json
  | some value => json value
  | none => .null

/-- A member that is left out when there is no value. -/
def member? (key : String) : Option Json → List (String × Json)
  | some value => [(key, value)]
  | none => []

def texts (items : List String) : Json := .array (items.map .string)

/-- The last member of a key. -/
def get? (key : String) : Json → Option Json
  | .object members => (members.reverse.find? (·.1 == key)).map (·.2)
  | _ => none

/-- Keeps the last member of each key. -/
def lastOfEach (members : List (String × Json)) : List (String × Json) :=
  members.foldr (fun entry kept => if kept.any (·.1 == entry.1) then kept else entry :: kept) []

/-- Puts members in the order of their keys. -/
def sortMembers (members : List (String × Json)) : List (String × Json) :=
  members.mergeSort fun a b => decide (a.1 ≤ b.1)

mutual

/-- Members sorted by key at every level. -/
def sorted : Json → Json
  | .array items => .array (sortedItems items)
  | .object members => .object (sortMembers (sortedMembers members))
  | other => other

def sortedItems : List Json → List Json
  | [] => []
  | item :: rest => item.sorted :: sortedItems rest

def sortedMembers : List (String × Json) → List (String × Json)
  | [] => []
  | (key, value) :: rest => (key, value.sorted) :: sortedMembers rest

end

mutual

/-- Keeps the last member of each key at every level, in the order of the keys. -/
def settled : Json → Json
  | .array items => .array (settledItems items)
  | .object members => .object (sortMembers (lastOfEach (settledMembers members)))
  | other => other

def settledItems : List Json → List Json
  | [] => []
  | item :: rest => item.settled :: settledItems rest

def settledMembers : List (String × Json) → List (String × Json)
  | [] => []
  | (key, value) :: rest => (key, value.settled) :: settledMembers rest

end

end Json
end DesignCompiler
