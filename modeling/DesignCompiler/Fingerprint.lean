import DesignCompiler.Signature

/-!
The fingerprint of a planned node: a digest of what makes it the same node for the next run. Where it
stands, its id and everything hidden are left out.
-/
namespace DesignCompiler

variable {α : Type} [Scalar α]

namespace Paint

def summary : Paint α → Json
  | .solid paint =>
    .object [("type", .string "solid"), ("color", .string paint.color.hex),
      ("alpha", Scalar.json (Scalar.hundredths (paint.color.a * paint.opacity)))]
  | .gradient _ paint =>
    .object [("type", .string "gradient"),
      ("stops", .array (paint.stops.map fun stop =>
        .array [Scalar.json (Scalar.hundredths stop.position), .string stop.color.hex,
          Scalar.json (Scalar.hundredths stop.color.a)]))]
  | .image paint =>
    .object [("type", .string "image"), ("hash", Json.ofText? paint.imageHash)]
  | .unsupported => .object [("type", .string "other")]

end Paint

namespace Node

/-- The facts that a fingerprint is the digest of. -/
def facts (node : Node α) : Json :=
  let layer := node.layer
  let rounded (x : α) : Json := Scalar.json (Scalar.hundredths x)
  let children := node.liveChildren
  .object ([("name", .string layer.name), ("width", rounded layer.width),
      ("height", rounded layer.height),
      ("fills", .array (layer.visibleFills.map Paint.summary)),
      ("strokes", .array ((layer.strokes.filter Paint.isVisible).map Paint.summary)),
      ("strokeWeight", rounded layer.strokeWeight),
      ("effects", .array ((layer.effects.filter Effect.isVisible).map Effect.json)),
      ("opacity", rounded layer.opacity), ("cornerRadius", layer.corners.json)] ++
    Json.member? "text" (node.content?.map fun content => .string content.characters) ++
    Json.member? "raster" (layer.annotations.raster.map fun picture => .string picture.hash) ++
    Json.member? "background"
      (layer.annotations.background.map fun picture => .string picture.hash) ++
    [("childCount", Json.nat children.length),
      ("childNames", Json.texts (children.map (·.layer.name)))])

def fingerprint (node : Node α) : String := node.facts.digest

end Node
end DesignCompiler
