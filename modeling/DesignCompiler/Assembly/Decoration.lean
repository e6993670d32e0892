import DesignCompiler.Arena
import DesignCompiler.Diagnostics
import DesignCompiler.Json.Printer

/-!
Decorations: small instances below the instance of a node that round its corners, outline or shade
its text, list its children, tell what it reacts to, or take its clicks.
-/
namespace DesignCompiler.Decoration

variable {α : Type} [Scalar α]

/-- An instance without children, from properties set in order. -/
def leaf (className name : String) (changes : List (String × Property α)) : Item α :=
  .mk className name (Properties.setAll [] changes) []

def placement (geometry : Geometry α) : List (String × Property α) :=
  [("Position", .udim2 geometry.position), ("Size", .udim2 geometry.size),
    ("AnchorPoint", .vector2 geometry.anchor)]

def fillParent : List (String × Property α) :=
  placement Geometry.full ++ [("BackgroundTransparency", .float 1), ("BorderSizePixel", .int 0)]

/-- The rounding of the corners of a box; four different radii become the largest of them. -/
def corner (layer : Layer α) : List (Item α) × List Warning :=
  let radius := layer.corners.largest
  if radius ≤ 0 then ([], [])
  else
    ([leaf "UICorner" "UICorner" [("CornerRadius", .udim (.pixels radius))]],
      if layer.corners.isUniform then []
      else [.about .nonUniformCorner layer.id
        ("per-corner radii approximated by the largest (" ++ Scalar.plainText radius ++ "px)")])

def textStroke (stroke : InferredStroke α) : Item α :=
  leaf "UIStroke" "UIStroke"
    ([("Thickness", .float stroke.thickness), ("Color", .color3 (stroke.color.getD Color.black)),
      ("ApplyStrokeMode", .token 0)] ++
    match stroke.color with
    | some color =>
      if color.a < 1 then [("Transparency", .float (1 - color.a))] else []
    | none => [])

/-- The stops of a gradient within zero and one, in order, with a stop at either end. -/
def keypoints (stops : List (ColorStop α)) : List (α × Color α) :=
  let held := stops.map fun stop => (Scalar.unit stop.position, stop.color)
  let sorted := held.mergeSort fun a b => Scalar.order a.1 b.1 != .gt
  let fromStart :=
    match sorted with
    | [] => []
    | (time, color) :: rest =>
      if 0 < time then (0, color) :: (time, color) :: rest else (time, color) :: rest
  match fromStart.getLast? with
  | some (time, color) => if time < 1 then fromStart ++ [(1, color)] else fromStart
  | none => fromStart

def transparency (alpha opacity : α) : α := 1 - Scalar.unit (alpha * opacity)

/-- The angle that a gradient runs at, if it does not run straight to the right. -/
def gradientAngle (handles : List (Point α)) : Option α :=
  match handles with
  | start :: stop :: _ =>
    let angle := Scalar.degrees (stop.x - start.x) (stop.y - start.y)
    if Scalar.epsilon < Scalar.abs angle then some angle else none
  | _ => none

/-- A gradient over a text. Other shapes than a linear one become linear. -/
def gradient (id : String) (shape : GradientShape) (paint : GradientPaint α) :
    List (Item α) × List Warning :=
  let stops := keypoints paint.stops
  let warnings :=
    if shape = .linear then []
    else [.about .unsupportedGradient id (shape.label ++ " gradient approximated as linear")]
  if stops.isEmpty then ([], warnings)
  else
    let seeThrough :=
      if stops.any (fun stop => decide (stop.2.a < 1)) || decide (paint.opacity < 1) then
        [("Transparency", Property.numberSequence
          (stops.map fun stop => (stop.1, transparency stop.2.a paint.opacity)))]
      else []
    let rotation :=
      match gradientAngle paint.handles with
      | some angle => [("Rotation", Property.float angle)]
      | none => []
    ([leaf "UIGradient" "UIGradient"
      ([("Color", .colorSequence stops)] ++ seeThrough ++ rotation)], warnings)

/-- The engine's number of an alignment; one that it lacks becomes centered. -/
def alignment (id : String) : AxisAlign → Nat × List Warning
  | .min => (1, [])
  | .center => (0, [])
  | .max => (2, [])
  | .spaceBetween =>
    (0, [.about .unsupportedAlignment id "SpaceBetween alignment approximated as center"])
  | .baseline =>
    (0, [.about .unsupportedAlignment id "Baseline alignment approximated as center"])

/-- The list that runs through the children of a flow, and its padding. -/
def listLayout (id : String) (layout : FlowLayout α) : List (Item α) × List Warning :=
  let (direction, across, down) :=
    match layout.mode with
    | .horizontal => (0, layout.primaryAlign, layout.counterAlign)
    | .vertical => (1, layout.counterAlign, layout.primaryAlign)
  let (horizontal, first) := alignment id across
  let (vertical, second) := alignment id down
  let list := leaf "UIListLayout" "UIListLayout"
    ([("FillDirection", .token direction), ("HorizontalAlignment", .token horizontal),
      ("VerticalAlignment", .token vertical), ("SortOrder", .token 2),
      ("Padding", .udim (.pixels layout.itemSpacing))] ++
    if layout.wrap then [("Wraps", .bool true)] else [])
  let padding := leaf "UIPadding" "UIPadding"
    [("PaddingLeft", .udim (.pixels layout.paddingLeft)),
      ("PaddingRight", .udim (.pixels layout.paddingRight)),
      ("PaddingTop", .udim (.pixels layout.paddingTop)),
      ("PaddingBottom", .udim (.pixels layout.paddingBottom))]
  (list :: (if layout.hasPadding then [padding] else []), first ++ second)

/-- The engine's style and direction of an easing, and whether they only come near it. -/
def tween : Easing → String × String × Bool
  | .linear => ("Linear", "In", false)
  | .easeIn => ("Quad", "In", false)
  | .easeOut => ("Quad", "Out", false)
  | .easeInAndOut => ("Quad", "InOut", false)
  | .easeInBack => ("Back", "In", false)
  | .easeOutBack => ("Back", "Out", false)
  | .easeInAndOutBack => ("Back", "InOut", false)
  | .gentle => ("Sine", "InOut", false)
  | .slow => ("Sine", "InOut", false)
  | .quick => ("Quad", "Out", false)
  | .bouncy => ("Bounce", "Out", false)
  | .customCubicBezier => ("Cubic", "InOut", true)
  | .customSpring => ("Elastic", "Out", true)
  | .other => ("Linear", "In", true)

def transitionRecord (transition : Transition α) : Json :=
  let (style, direction, _) := tween transition.easing
  .object [("kind", .string transition.kind), ("duration", Scalar.json transition.duration),
    ("easingStyle", .string style), ("easingDirection", .string direction)]

def reactionRecord (reaction : Reaction α) : Json :=
  .object ([("trigger", .string (Json.nameIn Trigger.names reaction.trigger))] ++
    Json.member? "destinationId" (reaction.destination.map .string) ++
    Json.member? "transition" (reaction.transition.map transitionRecord))

def easingWarning (id : String) (reaction : Reaction α) : List Warning :=
  match reaction.transition with
  | none => []
  | some transition =>
    let (style, direction, near) := tween transition.easing
    if near then
      [.about .customEasing id (transition.easing.label ++ " easing approximated as " ++ style ++
        " " ++ direction)]
    else []

/-- One record for each reaction of a node. -/
def interactions (layer : Layer α) : List (Item α) × List Warning :=
  (layer.reactions.map fun reaction =>
      leaf "StringValue" "Interaction" [("Value", .string (reactionRecord reaction).compact)],
    layer.reactions.flatMap (easingWarning layer.id))

/-- An invisible button over the whole of its parent. -/
def clickTarget (zIndex : Int) : Item α :=
  leaf "TextButton" "ClickTarget"
    (fillParent ++ [("Text", .string ""), ("AutoButtonColor", .bool false),
      ("ZIndex", .int zIndex)])

end DesignCompiler.Decoration
