import DesignCompiler.Config
import DesignCompiler.Design.Node
import DesignCompiler.Failure

/-!
Rules about nodes by name: which are drawn as one picture, which are click targets, which are
stretched, and which change their text children before anything else happens.
-/
namespace DesignCompiler

variable {α : Type} [Scalar α]

/-- A test of names. -/
inductive NameMatcher where
  | exact (name : String)
  | contains (part : String)
  | pattern (expr : Pattern.Expr)

def NameMatcher.holds (name : String) : NameMatcher → Bool
  | exact whole => name == whole
  | contains part => textHolds name part
  | pattern expr => expr.isIn name

structure Rule where
  matcher : NameMatcher
  action : RuleAction

/-- The rules of a run. -/
structure RuleSet where
  flattenMarker : String
  interactive : List Pattern.Expr
  rules : List Rule

namespace RuleSet

/-- Reads the patterns of click targets; together they may not be too large either. -/
def interactivePatterns (patterns : List String) : Except RuleFault (List Pattern.Expr) :=
  match patterns.mapM Pattern.Expr.parse with
  | .error fault => .error (.interactive fault)
  | .ok exprs =>
    if exprs.foldl (fun total expr => total + expr.weight) 0 > Pattern.sizeLimit then
      .error (.interactive .tooLarge)
    else .ok exprs

def rule (config : RuleConfig) : Except RuleFault Rule :=
  match config.kind with
  | .exact => .ok ⟨.exact config.name, config.action⟩
  | .contains => .ok ⟨.contains config.name, config.action⟩
  | .regex =>
    match Pattern.Expr.parse config.name with
    | .ok expr => .ok ⟨.pattern expr, config.action⟩
    | .error fault => .error (.named config.name fault)

/-- Reads all patterns of the settings, those of click targets first. -/
def ofConfig (classification : ClassificationConfig) (overrides : List RuleConfig) :
    Except RuleFault RuleSet := do
  return {
    flattenMarker := classification.flattenMarker
    interactive := ← interactivePatterns classification.interactivePatterns
    rules := ← overrides.mapM rule }

def hasAction (set : RuleSet) (action : RuleAction) (name : String) : Bool :=
  set.rules.any fun rule => rule.action == action && rule.matcher.holds name

/-- The node and all below it is one picture. -/
def isFlattened (set : RuleSet) (layer : Layer α) : Bool :=
  (!set.flattenMarker.isEmpty && textHolds layer.name set.flattenMarker) ||
    set.hasAction .flatten layer.name

/-- The node is a click target: by its name, by a rule, or because it reacts to being pressed. -/
def isInteractive (set : RuleSet) (layer : Layer α) : Bool :=
  set.interactive.any (·.isIn layer.name) || set.hasAction .interactive layer.name ||
    layer.reactions.any fun reaction =>
      reaction.trigger == .onClick || reaction.trigger == .onPress

def forcesStretch (set : RuleSet) (layer : Layer α) : Bool :=
  set.hasAction .stretch layer.name

def centersText (set : RuleSet) (layer : Layer α) : Bool :=
  set.hasAction .centerText layer.name

def dedupesText (set : RuleSet) (layer : Layer α) : Bool :=
  set.hasAction .dedupeTextChildren layer.name

/-- Drops each text child whose characters an earlier one has. -/
def dedupe (seen : List String) : List (Node α) → List (Node α)
  | [] => []
  | child :: rest =>
    match child.content? with
    | none => child :: dedupe seen rest
    | some content =>
      if seen.contains content.characters then dedupe seen rest
      else child :: dedupe (content.characters :: seen) rest

/-- The node with its text, if it is one, in the middle of its box. -/
def centered : Node α → Node α
  | .text layer content =>
    .text layer { content with style :=
      { content.style with alignHorizontal := .center, alignVertical := .center } }
  | node => node

mutual

/-- Changes the text children of every node that a rule tells to. -/
def applyTextRules (set : RuleSet) : Node α → Node α
  | .container layer props children =>
    let changed := applyTextRulesAll set children
    let kept := if set.dedupesText layer then dedupe [] changed else changed
    .container layer props (if set.centersText layer then kept.map centered else kept)
  | node => node

def applyTextRulesAll (set : RuleSet) : List (Node α) → List (Node α)
  | [] => []
  | node :: rest => set.applyTextRules node :: set.applyTextRulesAll rest

end

/-- The changes that come before all other passes. -/
def applyStructural (set : RuleSet) (node : Node α) : Node α :=
  if set.rules.isEmpty then node else set.applyTextRules node

end RuleSet
end DesignCompiler
