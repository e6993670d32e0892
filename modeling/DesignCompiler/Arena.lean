import DesignCompiler.Geometry

/-!
Instances of the engine. They are kept in one table in the order of insertion; an instance is known by
its position there, and its children stand behind it.
-/
namespace DesignCompiler

variable {α : Type} [Scalar α]

/-- A value of a property. -/
inductive Property (α : Type) where
  | string (text : String)
  | bool (value : Bool)
  | int (value : Int)
  | float (value : α)
  | token (value : Nat)
  | udim (value : UDim α)
  | udim2 (value : UDim2 α)
  | vector2 (value : Point α)
  | color3 (value : Color α)
  | content (url : String)
  | font (family : String) (weight : Nat) (italic : Bool)
  | colorSequence (stops : List (α × Color α))
  | numberSequence (points : List (α × α))

/-- The properties of an instance, each key once, in the order first set. -/
abbrev Properties (α : Type) := List (String × Property α)

/-- Sets a property, in place of an earlier value. -/
def Properties.set (key : String) (value : Property α) : Properties α → Properties α
  | [] => [(key, value)]
  | (other, held) :: rest =>
    if other = key then (key, value) :: rest else (other, held) :: Properties.set key value rest

/-- Sets properties one after the other. -/
def Properties.setAll (properties : Properties α) (changes : List (String × Property α)) :
    Properties α :=
  changes.foldl (fun properties change => Properties.set change.1 change.2 properties) properties

/-- An instance with all below it, before it has a place in a table. -/
inductive Item (α : Type) where
  | mk (className name : String) (properties : Properties α) (children : List (Item α))

structure Instance (α : Type) where
  className : String
  name : String
  properties : Properties α
  parent : Option Nat

def Instance.property? (inst : Instance α) (key : String) : Option (Property α) :=
  inst.properties.lookup key

/-- All instances by position. A parent counts only for instances behind it. -/
structure Arena (α : Type) where
  instances : List (Instance α)

namespace Arena

def empty : Arena α := ⟨[]⟩

def size (arena : Arena α) : Nat := arena.instances.length

/-- Adds an instance behind all others; its position is the old size. A parent has to be there before its
children: another position is a mistake of the caller that would stop a program, and here it counts as none. -/
def insert (arena : Arena α) (className name : String) (parent : Option Nat) : Arena α :=
  let parent := parent.filter fun position => decide (position < arena.size)
  ⟨arena.instances ++ [⟨className, name, [], parent⟩]⟩

/-- Sets a property of an instance. -/
def set (arena : Arena α) (referent : Nat) (key : String) (value : Property α) : Arena α :=
  ⟨arena.instances.modify referent fun inst =>
    { inst with properties := Properties.set key value inst.properties }⟩

def get? (arena : Arena α) (referent : Nat) : Option (Instance α) := arena.instances[referent]?

def isEmpty (arena : Arena α) : Bool := arena.instances.isEmpty

/-- The positions of instances with a given parent, from a position on. -/
def withParent (parent : Option Nat) (position : Nat) : List (Instance α) → List Nat
  | [] => []
  | inst :: rest =>
    if inst.parent = parent then position :: withParent parent (position + 1) rest
    else withParent parent (position + 1) rest

/-- Instances without a parent, in the order of insertion. -/
def roots (arena : Arena α) : List Nat := withParent none 0 arena.instances

/-- The children of an instance, in the order of insertion. -/
def children (arena : Arena α) (referent : Nat) : List Nat :=
  withParent (some referent) (referent + 1) (arena.instances.drop (referent + 1))

def findChild (arena : Arena α) (referent : Nat) (name : String) : Option Nat :=
  (arena.children referent).find? fun child =>
    (arena.get? child).any fun inst => inst.name == name

mutual

/-- Adds an item and all below it. -/
def plant (arena : Arena α) (parent : Option Nat) : Item α → Arena α
  | .mk className name properties children =>
    let own := arena.size
    let arena := (arena.insert className name parent)
    let arena := properties.foldl (fun arena change => arena.set own change.1 change.2) arena
    plantAll arena (some own) children

def plantAll (arena : Arena α) (parent : Option Nat) : List (Item α) → Arena α
  | [] => arena
  | item :: rest => plantAll (arena.plant parent item) parent rest

end

end Arena
end DesignCompiler
