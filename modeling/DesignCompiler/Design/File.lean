import DesignCompiler.Design.Node
import DesignCompiler.Json.Reader

/-!
Nodes in files: a node is an object whose tag tells its kind, and the fields of the kind stand beside
those of the layer.
-/
namespace DesignCompiler

variable {α : Type} [Scalar α]

namespace Layer

def keys : List String :=
  ["id", "name", "visible", "x", "y", "width", "height", "rotation", "cornerRadius", "fills",
    "strokes", "strokeWeight", "effects", "opacity", "constraints", "layoutSizingHorizontal",
    "layoutSizingVertical", "reactions", "contentHash", "shadowContentHash"]

def ofMembers? (members : List (String × Json)) : Option (Layer α) := do
  let fields ← Json.knownMembers? keys members
  let number (key : String) : Option α := fields.orElse key 0 Scalar.ofJson?
  return {
    id := ← fields.required "id" Json.text?
    name := ← fields.orElse "name" "" Json.text?
    visible := ← fields.orElse "visible" true Json.bool?
    x := ← number "x"
    y := ← number "y"
    width := ← number "width"
    height := ← number "height"
    rotation := ← number "rotation"
    corners := ← fields.orElse "cornerRadius" (.uniform 0) Corners.ofJson?
    fills := ← fields.orElse "fills" [] (Json.list? Paint.ofJson?)
    strokes := ← fields.orElse "strokes" [] (Json.list? Paint.ofJson?)
    strokeWeight := ← number "strokeWeight"
    effects := ← fields.orElse "effects" [] (Json.list? Effect.ofJson?)
    opacity := ← fields.orElse "opacity" 1 Scalar.ofJson?
    constraints := ← fields.orElse "constraints" .default Constraints.ofJson?
    sizingHorizontal := ← fields.orElse "layoutSizingHorizontal" .fixed
      (Json.oneOf? Sizing.names)
    sizingVertical := ← fields.orElse "layoutSizingVertical" .fixed (Json.oneOf? Sizing.names)
    reactions := ← fields.orElse "reactions" [] (Json.list? Reaction.ofJson?)
    contentHash := ← fields.orElse "contentHash" none (Json.optional? Json.text?)
    shadowHash := ← fields.orElse "shadowContentHash" none (Json.optional? Json.text?)
    annotations := .none }

def members (layer : Layer α) : List (String × Json) :=
  [("id", .string layer.id), ("name", .string layer.name), ("visible", .bool layer.visible),
    ("x", Scalar.json layer.x), ("y", Scalar.json layer.y), ("width", Scalar.json layer.width),
    ("height", Scalar.json layer.height), ("rotation", Scalar.json layer.rotation),
    ("cornerRadius", layer.corners.json), ("fills", .array (layer.fills.map Paint.json)),
    ("strokes", .array (layer.strokes.map Paint.json)),
    ("strokeWeight", Scalar.json layer.strokeWeight),
    ("effects", .array (layer.effects.map Effect.json)), ("opacity", Scalar.json layer.opacity),
    ("constraints", layer.constraints.json),
    ("layoutSizingHorizontal", .string (Json.nameIn Sizing.names layer.sizingHorizontal)),
    ("layoutSizingVertical", .string (Json.nameIn Sizing.names layer.sizingVertical))] ++
  (if layer.reactions.isEmpty then []
    else [("reactions", .array (layer.reactions.map Reaction.json))]) ++
  Json.member? "contentHash" (layer.contentHash.map .string) ++
  Json.member? "shadowContentHash" (layer.shadowHash.map .string)

end Layer

namespace ContainerProps

/-- Reads a container of a kind; the children are read elsewhere. -/
def ofMembers? (kind : ContainerKind) (members : List (String × Json)) :
    Option (ContainerProps α) := do
  let fields ← Json.knownMembers? ["children", "layout", "clipsContent"] members
  return {
    kind
    layout := ← fields.orElse "layout" none (Json.optional? FlowLayout.ofJson?)
    clips := ← fields.orElse "clipsContent" false Json.bool? }

end ContainerProps

namespace Node

def tags : List String :=
  ["TEXT"] ++ ContainerKind.names.map (·.1) ++ ShapeKind.names.map (·.1)

/-- Reads a node whose children have been read, or could not be. -/
def ofMembers? (members : List (String × Json)) (children : Option (List (Node α))) :
    Option (Node α) := do
  let layer ← Layer.ofMembers? members
  let (tag, _) ← Json.tagged? tags (.object members)
  let tag ← tag
  if tag = "TEXT" then return text layer (← TextContent.ofMembers? members)
  match ShapeKind.names.lookup tag with
  | some kind => return shape layer kind
  | none => do
    let kind ← ContainerKind.names.lookup tag
    return container layer (← ContainerProps.ofMembers? kind members) (← children)

mutual

def ofJson? : Json → Option (Node α)
  | .object members => ofMembers? members (childrenOf? members)
  | _ => none

/-- The children among the members of a node; without such a member there are none. -/
def childrenOf? : List (String × Json) → Option (List (Node α))
  | [] => some []
  | (key, value) :: rest =>
    if key = "children" then
      match value with
      | .array items => listOf? items
      | _ => none
    else childrenOf? rest

def listOf? : List Json → Option (List (Node α))
  | [] => some []
  | item :: rest =>
    match ofJson? item, listOf? rest with
    | some node, some nodes => some (node :: nodes)
    | _, _ => none

end

mutual

def json : Node α → Json
  | text layer content =>
    .object (layer.members ++ [("type", .string "TEXT")] ++ content.members)
  | container layer props children =>
    .object (layer.members ++
      [("type", .string (Json.nameIn ContainerKind.names props.kind)),
        ("children", .array (jsons children))] ++
      Json.member? "layout" (props.layout.map FlowLayout.json) ++
      [("clipsContent", .bool props.clips)])
  | shape layer kind =>
    .object (layer.members ++ [("type", .string (Json.nameIn ShapeKind.names kind))])

def jsons : List (Node α) → List Json
  | [] => []
  | node :: rest => node.json :: jsons rest

end

/-- What is looked at in the text of a node. Fields of unknown name may belong to its kind. -/
def fileShape : Json.Shape :=
  .record [("constraints", .only Constraints.keys),
    ("reactions", .each (.record [("trigger", .whole), ("destinationId", .whole),
      ("transition", .only Transition.keys)] .ignored))] .whole

/-- Reads the text of a node. -/
def parse (contents : String) : Option (Node α) :=
  (Json.Reader.read fileShape contents).bind ofJson?

end Node
end DesignCompiler
