import DesignCompiler.Design.Node
import DesignCompiler.Digest.Sha256
import DesignCompiler.Json.Printer

/-!
Hashes of what a node looks like. A picture is known by the hash that the export declares for it, or
by the hash of the one image that fills it, or else by a digest of everything visible about it.
-/
namespace DesignCompiler

variable {α : Type} [Scalar α]

/-- The digest of a value, whatever the order of its members. -/
def Json.digest (value : Json) : String := Sha256.hexOfText value.canonical

def givenHash? : Option String → Option String
  | some hash => if hash.isEmpty then none else some hash
  | none => none

/-- What a picture is of. -/
inductive Aspect where
  | node
  | child
  | background
deriving DecidableEq, Repr

def Aspect.name : Aspect → String
  | node => "node"
  | child => "child"
  | background => "background"

namespace Node

/-- The part of a signature that a node contributes apart from its children. -/
def ownSignature (node : Node α) (aspect : Aspect) (offset : Option (Point α)) :
    List (String × Json) :=
  let layer := node.layer
  let rounded (x : α) : Json := Scalar.json (Scalar.hundredths x)
  [("variant", .string aspect.name), ("kind", .string node.tag)] ++
  Json.member? "offset" (offset.map fun p => .array [rounded p.x, rounded p.y]) ++
  [("width", rounded layer.width), ("height", rounded layer.height),
    ("rotation", rounded layer.rotation), ("cornerRadius", layer.corners.json),
    ("fills", .array (layer.fills.map Paint.json)),
    ("strokes", .array (layer.strokes.map Paint.json)),
    ("strokeWeight", rounded layer.strokeWeight),
    ("effects", .array (layer.effects.map Effect.json)), ("opacity", rounded layer.opacity)] ++
  Json.member? "text" (node.content?.map fun content => .object content.members)

def childMember : List Json → List (String × Json)
  | [] => []
  | children => [("children", .array children)]

mutual

def deepSignature (aspect : Aspect) (offset : Option (Point α)) : Node α → Json
  | .container layer props children =>
    .object (ownSignature (.container layer props children) aspect offset ++
      childMember (childSignatures children))
  | node => .object (ownSignature node aspect offset)

def childSignatures : List (Node α) → List Json
  | [] => []
  | child :: rest =>
    if child.isLive then
      child.deepSignature .child (some ⟨child.layer.x, child.layer.y⟩) :: childSignatures rest
    else childSignatures rest

end

/-- The hash of the one image that is all there is to see of a node. -/
def loneImageHash (node : Node α) (flattened : Bool) : Option String :=
  if (flattened && !node.children.isEmpty) || node.layer.hasVisibleStroke ||
      node.layer.hasVisibleEffect then none
  else match node.layer.visibleFills with
    | [.image paint] => givenHash? paint.imageHash
    | _ => none

/-- The hash of the picture of a node; a flattened one takes in its descendants. -/
def contentHash (node : Node α) (flattened : Bool) : String :=
  match givenHash? node.layer.contentHash with
  | some hash => hash
  | none =>
    match node.loneImageHash flattened with
    | some hash => hash
    | none =>
      Json.digest
        (if flattened then node.deepSignature .node none
          else .object (node.ownSignature .node none))

/-- The hash of the picture under the children of a container. -/
def backgroundHash (node : Node α) : String :=
  Json.digest (.object (node.ownSignature .background none))

end Node
end DesignCompiler
