import DesignCompiler.Rules
import DesignCompiler.Text.Class

/-!
Which settings a run accepts. Each limit is tested as it stands, so a number that compares with
nothing passes all of them.
-/
namespace DesignCompiler.Config

variable {α : Type} [Scalar α]

def rules (config : Config α) : Except RuleFault RuleSet :=
  RuleSet.ofConfig config.classification config.overrides

def isBlankText (text : String) : Bool := (Text.trim text).isEmpty

/-- The first defect of the settings, if there is one. -/
def defect? (config : Config α) : Option SettingsDefect :=
  if config.stroke.clusterRadius ≤ 0 then some .clusterRadius
  else if config.stroke.maxSpread < 0 then some .maxSpread
  else if config.stroke.minGroup < 2 then some .minGroup
  else if config.upload.maxPollAttempts = 0 then some .pollAttempts
  else if isBlankText config.upload.assetType then some .assetType
  else if isBlankText config.text.defaultFont then some .defaultFont
  else
    match config.rules with
    | .ok _ => none
    | .error fault => some (.rule fault)

end DesignCompiler.Config
