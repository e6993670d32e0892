import DesignCompiler.Json.Record
import DesignCompiler.Scalar

/-!
What a node answers to the pointer: a trigger, the node to go to, and the transition there.
-/
namespace DesignCompiler

variable {α : Type} [Scalar α]

inductive Trigger where
  | onClick
  | onPress
  | onHover
  | onDrag
  | mouseEnter
  | mouseLeave
  | afterTimeout
  | other
deriving DecidableEq, Repr, Inhabited

def Trigger.names : List (String × Trigger) :=
  [("ON_CLICK", .onClick), ("ON_PRESS", .onPress), ("ON_HOVER", .onHover), ("ON_DRAG", .onDrag),
    ("MOUSE_ENTER", .mouseEnter), ("MOUSE_LEAVE", .mouseLeave), ("AFTER_TIMEOUT", .afterTimeout),
    ("OTHER", .other)]

inductive Easing where
  | linear
  | easeIn
  | easeOut
  | easeInAndOut
  | easeInBack
  | easeOutBack
  | easeInAndOutBack
  | customCubicBezier
  | customSpring
  | gentle
  | quick
  | bouncy
  | slow
  | other
deriving DecidableEq, Repr, Inhabited

namespace Easing

def names : List (String × Easing) :=
  [("LINEAR", .linear), ("EASE_IN", .easeIn), ("EASE_OUT", .easeOut),
    ("EASE_IN_AND_OUT", .easeInAndOut), ("EASE_IN_BACK", .easeInBack),
    ("EASE_OUT_BACK", .easeOutBack), ("EASE_IN_AND_OUT_BACK", .easeInAndOutBack),
    ("CUSTOM_CUBIC_BEZIER", .customCubicBezier), ("CUSTOM_SPRING", .customSpring),
    ("GENTLE", .gentle), ("QUICK", .quick), ("BOUNCY", .bouncy), ("SLOW", .slow),
    ("OTHER", .other)]

/-- The easing as warnings spell it. -/
def label : Easing → String
  | linear => "Linear"
  | easeIn => "EaseIn"
  | easeOut => "EaseOut"
  | easeInAndOut => "EaseInAndOut"
  | easeInBack => "EaseInBack"
  | easeOutBack => "EaseOutBack"
  | easeInAndOutBack => "EaseInAndOutBack"
  | customCubicBezier => "CustomCubicBezier"
  | customSpring => "CustomSpring"
  | gentle => "Gentle"
  | quick => "Quick"
  | bouncy => "Bouncy"
  | slow => "Slow"
  | other => "Other"

end Easing

structure Transition (α : Type) where
  kind : String
  duration : α
  easing : Easing

structure Reaction (α : Type) where
  trigger : Trigger
  destination : Option String
  transition : Option (Transition α)

namespace Transition

def keys : List String := ["type", "duration", "easing"]

def ofJson? (value : Json) : Option (Transition α) := do
  let fields ← Json.record? keys value
  return {
    kind := ← fields.required "type" Json.text?
    duration := ← fields.orElse "duration" 0 Scalar.ofJson?
    easing := ← fields.orElse "easing" .linear (Json.oneOfOr? Easing.names .other) }

def json (transition : Transition α) : Json :=
  .object [("type", .string transition.kind), ("duration", Scalar.json transition.duration),
    ("easing", .string (Json.nameIn Easing.names transition.easing))]

end Transition

namespace Reaction

def keys : List String := ["trigger", "destinationId", "transition"]

def ofJson? (value : Json) : Option (Reaction α) := do
  let fields ← Json.record? keys value
  return {
    trigger := ← fields.required "trigger" (Json.oneOfOr? Trigger.names .other)
    destination := ← fields.orElse "destinationId" none (Json.optional? Json.text?)
    transition := ← fields.orElse "transition" none (Json.optional? Transition.ofJson?) }

def json (reaction : Reaction α) : Json :=
  .object [("trigger", .string (Json.nameIn Trigger.names reaction.trigger)),
    ("destinationId", Json.ofText? reaction.destination),
    ("transition", (reaction.transition.map Transition.json).getD .null)]

end Reaction
end DesignCompiler
