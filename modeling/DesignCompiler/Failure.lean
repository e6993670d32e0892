import DesignCompiler.Decimal
import DesignCompiler.Pattern.Reader
import DesignCompiler.RawText
import DesignCompiler.Url.Fault

/-!
Everything a run can fail with: the cause as a value, and the wording, the category and the advice
that follow from it.
-/
namespace DesignCompiler

/-- Why an operation on a file failed. -/
inductive FileFault where
  | notFound
  | permission
  | alreadyThere
  | notDirectory
  | isDirectory
  | nameTooLong
  | notText
  | other (message : String)
deriving DecidableEq, Repr

namespace FileFault

def message : FileFault → String
  | notFound => "No such file or directory (os error 2)"
  | permission => "Permission denied (os error 13)"
  | alreadyThere => "File exists (os error 17)"
  | notDirectory => "Not a directory (os error 20)"
  | isDirectory => "Is a directory (os error 21)"
  | nameTooLong => "File name too long (os error 36)"
  | notText => "stream did not contain valid UTF-8"
  | other message => message

end FileFault

/-- Why a file of settings cannot be used. -/
inductive SettingsFault where
  | unreadable (fault : FileFault)
  | malformed
deriving DecidableEq, Repr

def SettingsFault.message : SettingsFault → String
  | unreadable fault => fault.message
  | malformed => "not a table of settings"

/-- What an asset is wanted for when there is no key to the store. -/
inductive KeyPurpose where
  | uploadAll (count : Nat)
  | upload (hash : String)
  | poll (operation : String)
deriving DecidableEq, Repr

/-- Why the bytes of a picture cannot be used. -/
inductive PictureFault where
  | base64 (cause : String)
  | unknownFormat
  | unsupportedFormat (name : String)
  | stated (message : String)
deriving DecidableEq, Repr

def PictureFault.message : PictureFault → String
  | base64 cause => "invalid base64: " ++ cause
  | unknownFormat => "The image format could not be determined"
  | unsupportedFormat name => "unsupported image format " ++ name
  | stated message => message

/-- Why the rules of a run cannot be used. -/
inductive RuleFault where
  | interactive (fault : Pattern.Fault)
  | named (pattern : String) (fault : Pattern.Fault)
deriving DecidableEq, Repr

def RuleFault.message : RuleFault → String
  | interactive fault => "invalid interactive pattern: " ++ fault.message
  | named pattern fault => "invalid override pattern '" ++ pattern ++ "': " ++ fault.message

/-- What is wrong with settings that could be read. -/
inductive SettingsDefect where
  | clusterRadius
  | maxSpread
  | minGroup
  | pollAttempts
  | assetType
  | defaultFont
  | rule (fault : RuleFault)
deriving DecidableEq, Repr

def SettingsDefect.message : SettingsDefect → String
  | clusterRadius => "stroke.cluster_radius must be greater than zero"
  | maxSpread => "stroke.max_spread must not be negative"
  | minGroup => "stroke.min_group must be at least 2"
  | pollAttempts => "upload.max_poll_attempts must be at least 1"
  | assetType => "upload.asset_type must not be empty"
  | defaultFont => "text.default_font must not be empty"
  | rule fault => "Configuration error: " ++ fault.message

/-- A fault of the settings, the command line or the environment. -/
inductive ConfigFault where
  | rule (fault : RuleFault)
  | manifestFile (path : RawText) (fault : FileFault)
  | cacheFile (path : RawText)
  | settingsFile (location : RawText) (fault : SettingsFault)
  | settings (location : Option RawText) (defect : SettingsDefect)
  | unplanned (node : String)
  | vanished (hash : String)
  | keyRequired (purpose : KeyPurpose)
  | noCreator
  /-- A report is to name a path that is no text. -/
  | unwritablePath
  | stated (message : String)
deriving DecidableEq, Repr

namespace ConfigFault

def message : ConfigFault → String
  | rule fault => fault.message
  | manifestFile path fault => "Failed to read manifest " ++ path.shown ++ ": " ++ fault.message
  | cacheFile path => "Failed to parse asset cache " ++ path.shown ++ ": not a table of assets"
  | settingsFile location fault =>
    "Failed to read config " ++ location.shown ++ ": " ++ fault.message
  | settings (some location) defect =>
    "Invalid config (" ++ location.shown ++ "): " ++ defect.message
  | settings none defect => "Invalid config: " ++ defect.message
  | unplanned node => "node " ++ node ++ " was not planned for a raster"
  | vanished hash => "cache entry for " ++ hash ++ " vanished"
  | keyRequired (.uploadAll count) =>
    "ROBLOX_API_KEY is required to upload " ++ Decimal.natText count ++ " assets"
  | keyRequired (.upload hash) => "ROBLOX_API_KEY is required to upload asset " ++ hash
  | keyRequired (.poll operation) => "ROBLOX_API_KEY is required to poll " ++ operation
  | noCreator =>
    "no upload creator configured (upload.creator, ROBLOX_CREATOR_ID or ROBLOX_GROUP_ID)"
  | unwritablePath => "path contains invalid UTF-8 characters"
  | stated message => message

end ConfigFault

inductive Failure where
  | io (fault : FileFault)
  | network
  | invalidUrl (fault : Url.Fault)
  | serialization
  | malformedManifest (message : String)
  | missingRawContent (hash node : String)
  | invalidRawContent (hash : String) (fault : PictureFault)
  | upload (status : Option Nat) (message : String)
  | pollTimeout (operation : String) (attempts : Nat)
  | config (fault : ConfigFault)
deriving DecidableEq, Repr

inductive Category where
  | config
  | network
  | manifest
  | asset
  | upload
deriving DecidableEq, Repr

def Category.name : Category → String
  | config => "config"
  | network => "network"
  | manifest => "manifest"
  | asset => "asset"
  | upload => "upload"

namespace Category

def all : List Category := [config, network, manifest, asset, upload]

def ofName? (name : String) : Option Category := all.find? fun category => category.name == name

end Category

/-- A status of a reply, or that there was none. -/
def statusText : Option Nat → String
  | some status => "Some(" ++ Decimal.natText status ++ ")"
  | none => "None"

/-- Whether a text holds another. -/
def textHolds (text part : String) : Bool :=
  let part := part.toList
  let rec go : List Char → Bool
    | [] => part.isEmpty
    | c :: rest => part.isPrefixOf (c :: rest) || go rest
  go text.toList

/-- Lower case of the letters of ASCII. -/
def asciiLower (text : String) : String := text.map Char.toLower

namespace ConfigFault

/-- Advice that fits what the message speaks of. -/
def advice (fault : ConfigFault) : String :=
  let lower := asciiLower fault.message
  if textHolds lower "roblox_api_key" || textHolds lower "api key" then
    "Set ROBLOX_API_KEY (Open Cloud key with asset:write) before compiling designs with new images."
  else if textHolds lower "creator" then
    "Set upload.creator in the config or ROBLOX_CREATOR_ID / ROBLOX_GROUP_ID in the environment."
  else if textHolds lower "regex" || textHolds lower "pattern" then
    "Fix the pattern in [classification] or [[overrides]]; patterns use Rust regex syntax."
  else "Check flags/paths and the config file."

end ConfigFault

namespace Failure

/-- The failure in one line. -/
def display : Failure → String
  | io fault => "IO error: " ++ fault.message
  | network => "Network error: the store cannot be reached"
  | invalidUrl fault => "Invalid URL: " ++ fault.message
  | serialization => "Serialization error: the text does not hold what was expected"
  | malformedManifest message => "Malformed manifest: " ++ message
  | missingRawContent hash node =>
    "Raw content missing for content hash " ++ hash ++ " (node " ++ node ++ ")"
  | invalidRawContent hash fault =>
    "Raw content for content hash " ++ hash ++ " is not a supported image: " ++ fault.message
  | upload status message =>
    "Upload failed (status: " ++ statusText status ++ "): " ++ message
  | pollTimeout operation attempts =>
    "Upload operation " ++ operation ++ " did not complete after " ++ Decimal.natText attempts ++
      " polls"
  | config fault => "Configuration error: " ++ fault.message

def category : Failure → Category
  | io _ | invalidUrl _ | config _ => .config
  | network => .network
  | serialization | malformedManifest _ => .manifest
  | missingRawContent .. | invalidRawContent .. => .asset
  | upload .. | pollTimeout .. => .upload

/-- The failure as reports put it. -/
def message : Failure → String
  | io fault => fault.message
  | network => "the store cannot be reached"
  | invalidUrl fault => fault.message
  | serialization => "the text does not hold what was expected"
  | malformedManifest message => message
  | upload status message => "Upload failed (status " ++ statusText status ++ "): " ++ message
  | config fault => fault.message
  | failure => failure.display

/-- What to do about the failure. -/
def advice : Failure → String
  | io _ => "Check file paths/permissions."
  | network => "Check connectivity/proxy/VPN and retry."
  | invalidUrl _ =>
    "Verify upload.base_url in the config (e.g., https://apis.roblox.com)."
  | serialization =>
    "Check the JSON inputs (manifest, snapshot, cache); re-run the export if the file is truncated."
  | malformedManifest _ =>
    "Re-run the plugin export; the manifest must contain a root node."
  | missingRawContent .. =>
    "Re-export from the plugin so every unresolved hash ships its raw pixels, or restore the asset cache file."
  | invalidRawContent .. =>
    "Raw content must be base64-encoded PNG/JPEG/GIF/WebP/BMP/TGA bytes."
  | upload .. =>
    "Check ROBLOX_API_KEY scopes, creator id and rate limits; retry after waiting."
  | pollTimeout .. =>
    "Increase upload.max_poll_attempts or upload.poll_interval; moderation can delay asset creation."
  | config fault => fault.advice

end Failure
end DesignCompiler
