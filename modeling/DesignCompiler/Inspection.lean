import DesignCompiler.Classification
import DesignCompiler.Fingerprint

/-!
What the compiler decides about a node, as data: for a look at a design without compiling it.
-/
namespace DesignCompiler

variable {α : Type} [Scalar α]

/-- What the rules say about a layer. -/
def RuleSet.verdicts (rules : RuleSet) (layer : Layer α) : List (String × Json) :=
  [("flattened", .bool (rules.isFlattened layer)),
    ("interactive", .bool (rules.isInteractive layer)),
    ("stretch", .bool (rules.forcesStretch layer)),
    ("centersText", .bool (rules.centersText layer)),
    ("dedupesText", .bool (rules.dedupesText layer))]

namespace Classification

def json (classification : Classification α) : Json :=
  .object [("strategy", .string classification.strategy.label),
    ("nativeFill", Json.orNull Color.json classification.nativeFill),
    ("paintless", .bool classification.paintless),
    ("needsRaster", .bool classification.needsRaster)]

end Classification

namespace Layer

/-- What is to see of a layer. -/
def appearance (layer : Layer α) : List (String × Json) :=
  [("cornerMax", Scalar.json layer.corners.largest),
    ("cornerUniform", .bool layer.corners.isUniform),
    ("visibleStroke", .bool layer.hasVisibleStroke),
    ("visibleEffect", .bool layer.hasVisibleEffect),
    ("gradientFill", .bool layer.hasGradientFill),
    ("visibleFills", Json.nat layer.visibleFills.length),
    ("firstSolid", Json.orNull Color.json layer.firstSolid),
    ("hex", Json.texts ((layer.fills.filterMap Paint.solid?).map (·.color.hex))),
    ("effectBounds", Json.orNull Rect.json layer.effectBounds)]

end Layer

namespace Node

/-- The hashes that a node is known by. -/
def hashes (node : Node α) (flattened : Bool) : List (String × Json) :=
  [("contentHash", .string (node.contentHash flattened)),
    ("backgroundHash", .string node.backgroundHash), ("fingerprint", .string node.fingerprint)]

def inspection (rules : RuleSet) (node : Node α) : Json :=
  let layer := node.layer
  let classification := node.classify rules
  .object ([("id", .string layer.id), ("tag", .string node.tag), ("live", .bool node.isLive),
      ("liveChildren", Json.nat node.liveChildren.length), ("class", classification.json),
      ("underlay", .bool (classification.needsUnderlay layer)),
      ("flow", .bool node.layout?.isSome),
      ("padding", Json.orNull (fun layout => .bool layout.hasPadding) node.layout?),
      ("clips", .bool node.clips)] ++
    rules.verdicts layer ++ layer.appearance ++ node.hashes (rules.isFlattened layer))

end Node
end DesignCompiler
