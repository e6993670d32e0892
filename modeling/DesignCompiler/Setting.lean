import DesignCompiler.Decimal

/-!
Settings as a tree of values, before it is known what they mean, and reading typed values from them. A
record is a table of its fields, or a list of them in order.
-/
namespace DesignCompiler

inductive Setting where
  | null
  | bool (value : Bool)
  | integer (value : Int)
  | real (value : Float)
  | text (value : String)
  /-- A date, a time of day, or both, as written. -/
  | moment (value : String)
  | list (items : List Setting)
  | table (entries : List (String × Setting))
deriving Repr, Inhabited

namespace Setting

/-- The key of a moment where a table is wanted. -/
def momentKey : String := "$__toml_private_datetime"

/-- The entries of a table. A moment counts as a table with a key of its own. -/
def entries? : Setting → Option (List (String × Setting))
  | table entries => some entries
  | moment value => some [(momentKey, text value)]
  | _ => none

/-- The fields of a record in either of its forms. -/
def record? (keys : List String) : Setting → Option (List (String × Setting))
  | list items => some (keys.zip items)
  | setting => setting.entries?

variable {α : Type}

def required (fields : List (String × Setting)) (key : String) (read : Setting → Option α) :
    Option α :=
  (fields.lookup key).bind read

/-- A field with a value to fall back on when it is missing. -/
def orElse (fields : List (String × Setting)) (key : String) (fallback : α)
    (read : Setting → Option α) : Option α :=
  match fields.lookup key with
  | some setting => read setting
  | none => some fallback

/-- A section of which anything may be missing. -/
def orSection (fields : List (String × Setting)) (key : String) (keys : List String)
    (read : List (String × Setting) → Option α) : Option α :=
  match fields.lookup key with
  | some setting => (setting.record? keys).bind read
  | none => read []

def text? : Setting → Option String
  | text value => some value
  | _ => none

def real? : Setting → Option Float
  | real value => some value
  | integer value => some (Float.ofInt value)
  | _ => none

/-- A whole number from zero up to a bound. -/
def natBelow? (bound : Nat) : Setting → Option Nat
  | integer value => if 0 ≤ value ∧ value < bound then some value.toNat else none
  | _ => none

def list? (read : Setting → Option α) : Setting → Option (List α)
  | list items => items.mapM read
  | _ => none

def dictionary? (read : Setting → Option α) (setting : Setting) : Option (List (String × α)) := do
  (← setting.entries?).mapM fun (key, value) => (read value).map (key, ·)

/-- A name from a list of names, alone or as the key of an empty table. -/
def oneOf? (names : List (String × α)) : Setting → Option α
  | text name => names.lookup name
  | table [(name, null)] => names.lookup name
  | table [(name, table [])] => names.lookup name
  | _ => none

end Setting
end DesignCompiler
