import DesignCompiler.Json

/-!
Reading typed values from JSON. A record is written as an object, or as an array of its fields in
order; a choice is written as its name, or as an object with this name and null.
-/
namespace DesignCompiler.Json

/-- Some fields of a record with what was written for them. -/
abbrev Record := List (String × Json)

/-- The fields of an object that are known; none of them may be repeated. -/
def knownMembers? (known : List String) (members : List (String × Json)) : Option Record :=
  let kept := members.filter fun entry => known.contains entry.1
  if (kept.map (·.1)).eraseDups.length = kept.length then some kept else none

/-- The fields of a record in either of its forms. -/
def record? (known : List String) : Json → Option Record
  | .object members => knownMembers? known members
  | .array items => if items.length ≤ known.length then some (known.zip items) else none
  | _ => none

namespace Record

variable {α : Type}

def required (fields : Record) (key : String) (read : Json → Option α) : Option α :=
  (fields.lookup key).bind read

/-- A field with a value to fall back on when it is missing. -/
def orElse (fields : Record) (key : String) (fallback : α) (read : Json → Option α) : Option α :=
  match fields.lookup key with
  | some value => read value
  | none => some fallback

end Record

variable {α : Type}

def bool? : Json → Option Bool
  | .bool value => some value
  | _ => none

def text? : Json → Option String
  | .string value => some value
  | _ => none

/-- A whole number that is not negative and fits 64 bits. -/
def word? : Json → Option Nat
  | .number (.integer value) => if 0 ≤ value ∧ value < UInt64.size then some value.toNat else none
  | _ => none

def optional? (read : Json → Option α) : Json → Option (Option α)
  | .null => some none
  | value => (read value).map some

def list? (read : Json → Option α) : Json → Option (List α)
  | .array items => items.mapM read
  | _ => none

/-- The members of an object by key; of a repeated key the last counts. -/
def dictionary? (read : Json → Option α) : Json → Option (List (String × α))
  | .object members => do
    let entries ← members.mapM fun (key, value) => (read value).map (key, ·)
    return entries.foldl (fun kept entry => kept.filter (·.1 != entry.1) ++ [entry]) []
  | _ => none

def choice? : Json → Option String
  | .string name => some name
  | .object [(name, .null)] => some name
  | _ => none

def oneOf? (table : List (String × α)) (value : Json) : Option α :=
  (choice? value).bind fun name => table.lookup name

/-- A choice from a table of names, any other name standing for `other`. -/
def oneOfOr? (table : List (String × α)) (other : α) (value : Json) : Option α :=
  (choice? value).map fun name => (table.lookup name).getD other

/-- The first name of a choice in its table. -/
def nameIn [BEq α] (table : List (String × α)) (value : α) : String :=
  ((table.find? (·.2 == value)).map (·.1)).getD ""

/-- The tag of a union and the rest of its value. The tag may be a name or a position among the
tags; an unknown one is read as `none`. -/
def tagged? (tags : List String) : Json → Option (Option String × Json)
  | .object members =>
    match members.filter (·.1 == "type") with
    | [(_, tag)] => (tag? tag).map (·, .object (members.filter (·.1 != "type")))
    | _ => none
  | .array (tag :: items) => (tag? tag).map (·, .array items)
  | _ => none
where
  tag? : Json → Option (Option String)
    | .string name => some (if tags.contains name then some name else none)
    | .number (.integer position) => if 0 ≤ position then some tags[position.toNat]? else none
    | _ => none

/-- A value of a union's case that holds nothing: any object, or an empty array. -/
def nothing? : Json → Option Unit
  | .object _ => some ()
  | .array [] => some ()
  | _ => none

end DesignCompiler.Json
