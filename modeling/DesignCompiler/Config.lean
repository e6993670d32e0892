import DesignCompiler.Duration
import DesignCompiler.Scalar

/-!
The settings of a run and their defaults.
-/
namespace DesignCompiler

variable {α : Type} [Scalar α]

/-- How the name of a rule is compared with the name of a node. -/
inductive MatchKind where
  | exact
  | contains
  | regex
deriving DecidableEq, Repr, Inhabited

def MatchKind.names : List (String × MatchKind) :=
  [("exact", .exact), ("contains", .contains), ("regex", .regex)]

/-- What a rule does with the nodes it names. -/
inductive RuleAction where
  /-- Stretches the node on both axes, whatever its constraints. -/
  | stretch
  /-- Centers the text children of the node. -/
  | centerText
  /-- Keeps only the first of text children with the same characters. -/
  | dedupeTextChildren
  /-- Draws the node and all below it as one picture. -/
  | flatten
  /-- Always gives the node a click target. -/
  | interactive
deriving DecidableEq, Repr, Inhabited

def RuleAction.names : List (String × RuleAction) :=
  [("stretch", .stretch), ("center-text", .centerText),
    ("dedupe-text-children", .dedupeTextChildren), ("flatten", .flatten),
    ("interactive", .interactive)]

structure RuleConfig where
  kind : MatchKind
  name : String
  action : RuleAction
deriving DecidableEq, Repr

structure ClassificationConfig where
  /-- A part of a name that has the node drawn as one picture. -/
  flattenMarker : String
  /-- Patterns of names of nodes that are click targets. -/
  interactivePatterns : List String
deriving DecidableEq, Repr

/-- When texts count as copies that imitate an outline, in pixels. -/
structure StrokeThresholds (α : Type) where
  clusterRadius : α
  maxSpread : α
  minGroup : Nat

/-- On whose behalf assets are stored. -/
inductive Creator where
  | user (id : String)
  | group (id : String)
deriving DecidableEq, Repr

structure UploadConfig where
  baseUrl : String
  assetType : String
  creator : Option Creator
  pollInterval : Duration
  maxPollAttempts : Nat
  interUploadDelay : Duration
  timeout : Duration
deriving DecidableEq, Repr

inductive TextMode where
  /-- Decorations are dropped. -/
  | plain
  /-- Decorations become markup within the text. -/
  | rich
deriving DecidableEq, Repr, Inhabited

def TextMode.names : List (String × TextMode) := [("plain", .plain), ("rich", .rich)]

structure TextConfig where
  mode : TextMode
  /-- The family of a font that has no counterpart in the engine. -/
  defaultFont : String
  /-- Families of the engine for families of the design, looked at before the built-in ones. -/
  fonts : List (String × String)
deriving DecidableEq, Repr

structure Config (α : Type) where
  classification : ClassificationConfig
  overrides : List RuleConfig
  stroke : StrokeThresholds α
  upload : UploadConfig
  text : TextConfig

def ClassificationConfig.default : ClassificationConfig where
  flattenMarker := "[flatten]"
  interactivePatterns :=
    ["(?i)button", "(?i)\\bbtn\\b", "(?i)toggle", "(?i)checkbox", "(?i)\\btab\\b", "(?i)close"]

def StrokeThresholds.default : StrokeThresholds α := ⟨6, 8, 5⟩

def UploadConfig.default : UploadConfig where
  baseUrl := "https://apis.roblox.com"
  assetType := "Decal"
  creator := none
  pollInterval := .ofSeconds 2
  maxPollAttempts := 30
  interUploadDelay := .ofMillis 500
  timeout := .ofSeconds 30

def TextConfig.default : TextConfig where
  mode := .plain
  defaultFont := "BuilderSans"
  fonts := []

def Config.default : Config α where
  classification := .default
  overrides := []
  stroke := .default
  upload := .default
  text := .default

end DesignCompiler
