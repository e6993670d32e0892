import DesignCompiler.Config
import DesignCompiler.Json.Record
import DesignCompiler.Scalar.Double
import DesignCompiler.Setting

/-!
The settings of a run read from a tree of settings, and shown as data. Whatever is missing keeps its
default, and keys that mean nothing are passed over.
-/
namespace DesignCompiler

namespace Setting

mutual

/-- Settings written as JSON. -/
def ofJson : Json → Setting
  | .null => .null
  | .bool value => .bool value
  | .number (.integer value) => .integer value
  | .number value => .real (Scalar.ofNumber value)
  | .string value => .text value
  | .array items => .list (ofItems items)
  | .object members => .table (ofMembers members)

def ofItems : List Json → List Setting
  | [] => []
  | item :: rest => ofJson item :: ofItems rest

def ofMembers : List (String × Json) → List (String × Setting)
  | [] => []
  | (key, value) :: rest => (key, ofJson value) :: ofMembers rest

end

end Setting

open Setting (orElse required)

namespace RuleConfig

def ofSetting? (setting : Setting) : Option RuleConfig := do
  let fields ← setting.record? ["match", "name", "action"]
  return {
    kind := ← required fields "match" (Setting.oneOf? MatchKind.names)
    name := ← required fields "name" Setting.text?
    action := ← required fields "action" (Setting.oneOf? RuleAction.names) }

def json (rule : RuleConfig) : Json :=
  .object [("match", .string (Json.nameIn MatchKind.names rule.kind)),
    ("name", .string rule.name),
    ("action", .string (Json.nameIn RuleAction.names rule.action))]

end RuleConfig

namespace ClassificationConfig

def keys : List String := ["flatten_marker", "interactive_patterns"]

def ofFields? (fields : List (String × Setting)) : Option ClassificationConfig := do
  return {
    flattenMarker := ← orElse fields "flatten_marker" default.flattenMarker Setting.text?
    interactivePatterns := ← orElse fields "interactive_patterns" default.interactivePatterns
      (Setting.list? Setting.text?) }

def json (config : ClassificationConfig) : Json :=
  .object [("flatten_marker", .string config.flattenMarker),
    ("interactive_patterns", Json.texts config.interactivePatterns)]

end ClassificationConfig

namespace StrokeThresholds

def keys : List String := ["cluster_radius", "max_spread", "min_group"]

def ofFields? (fields : List (String × Setting)) : Option (StrokeThresholds Float) := do
  let plain : StrokeThresholds Float := default
  return {
    clusterRadius := ← orElse fields "cluster_radius" plain.clusterRadius Setting.real?
    maxSpread := ← orElse fields "max_spread" plain.maxSpread Setting.real?
    minGroup := ← orElse fields "min_group" plain.minGroup (Setting.natBelow? UInt64.size) }

def json (thresholds : StrokeThresholds Float) : Json :=
  .object [("cluster_radius", Scalar.json thresholds.clusterRadius),
    ("max_spread", Scalar.json thresholds.maxSpread),
    ("min_group", Json.nat thresholds.minGroup)]

end StrokeThresholds

namespace Creator

/-- A creator is a table of one entry, the kind of creator and the id. -/
def ofSetting? : Setting → Option Creator
  | .table [("user_id", .text id)] => some (.user id)
  | .table [("group_id", .text id)] => some (.group id)
  | _ => none

def json : Creator → Json
  | .user id => .object [("user_id", .string id)]
  | .group id => .object [("group_id", .string id)]

end Creator

/-- A span of time, as text. -/
def Duration.ofSetting? (setting : Setting) : Option Duration :=
  setting.text?.bind Duration.parse

namespace UploadConfig

def keys : List String :=
  ["base_url", "asset_type", "creator", "poll_interval", "max_poll_attempts",
    "inter_upload_delay", "timeout"]

/-- The creator, which may be null. -/
def creator? : Setting → Option (Option Creator)
  | .null => some none
  | setting => (Creator.ofSetting? setting).map some

def ofFields? (fields : List (String × Setting)) : Option UploadConfig := do
  return {
    baseUrl := ← orElse fields "base_url" default.baseUrl Setting.text?
    assetType := ← orElse fields "asset_type" default.assetType Setting.text?
    creator := ← orElse fields "creator" none creator?
    pollInterval := ← orElse fields "poll_interval" default.pollInterval Duration.ofSetting?
    maxPollAttempts := ← orElse fields "max_poll_attempts" default.maxPollAttempts
      (Setting.natBelow? UInt32.size)
    interUploadDelay := ← orElse fields "inter_upload_delay" default.interUploadDelay
      Duration.ofSetting?
    timeout := ← orElse fields "timeout" default.timeout Duration.ofSetting? }

def json (config : UploadConfig) : Json :=
  .object [("base_url", .string config.baseUrl), ("asset_type", .string config.assetType),
    ("creator", (config.creator.map Creator.json).getD .null),
    ("poll_interval", .string config.pollInterval.text),
    ("max_poll_attempts", Json.nat config.maxPollAttempts),
    ("inter_upload_delay", .string config.interUploadDelay.text),
    ("timeout", .string config.timeout.text)]

end UploadConfig

namespace TextConfig

def keys : List String := ["mode", "default_font", "fonts"]

def ofFields? (fields : List (String × Setting)) : Option TextConfig := do
  return {
    mode := ← orElse fields "mode" default.mode (Setting.oneOf? TextMode.names)
    defaultFont := ← orElse fields "default_font" default.defaultFont Setting.text?
    fonts := ← orElse fields "fonts" default.fonts (Setting.dictionary? Setting.text?) }

def json (config : TextConfig) : Json :=
  .object [("mode", .string (Json.nameIn TextMode.names config.mode)),
    ("default_font", .string config.defaultFont),
    ("fonts", .object (config.fonts.map fun (family, font) => (family, .string font)))]

end TextConfig

namespace Config

def keys : List String := ["classification", "overrides", "stroke", "upload", "text"]

def ofSetting? (setting : Setting) : Option (Config Float) := do
  let fields ← setting.record? keys
  return {
    classification := ← Setting.orSection fields "classification" ClassificationConfig.keys
      ClassificationConfig.ofFields?
    overrides := ← orElse fields "overrides" [] (Setting.list? RuleConfig.ofSetting?)
    stroke := ← Setting.orSection fields "stroke" StrokeThresholds.keys
      StrokeThresholds.ofFields?
    upload := ← Setting.orSection fields "upload" UploadConfig.keys UploadConfig.ofFields?
    text := ← Setting.orSection fields "text" TextConfig.keys TextConfig.ofFields? }

def json (config : Config Float) : Json :=
  .object [("classification", config.classification.json),
    ("overrides", .array (config.overrides.map RuleConfig.json)),
    ("stroke", config.stroke.json), ("upload", config.upload.json), ("text", config.text.json)]

end Config
end DesignCompiler
