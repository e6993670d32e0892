import DesignCompiler.Config.Reader
import DesignCompiler.Config.Validation
import DesignCompiler.Host
import DesignCompiler.Toml

/-!
Where the settings of a run come from: the file that the command line names, else the file in the
home folder, else the defaults.
-/
namespace DesignCompiler

/-- The variables that a run was started with. -/
structure Environment where
  bindings : List (String × RawText)
deriving Repr

namespace Environment

def value? (env : Environment) (name : String) : Option RawText := env.bindings.lookup name

/-- The value of a variable that is set to a text and not empty. -/
def filled? (env : Environment) (name : String) : Option String :=
  ((env.value? name).bind RawText.text?).filter fun value => !value.isEmpty

end Environment

/-- The creator that the environment names: a user, or else a group. -/
def Creator.ofEnvironment? (env : Environment) : Option Creator :=
  match env.filled? "ROBLOX_CREATOR_ID" with
  | some id => some (.user id)
  | none => (env.filled? "ROBLOX_GROUP_ID").map .group

namespace Config

/-- The file of settings in the home folder. -/
def centralPath? (env : Environment) : Option RawText :=
  (env.value? "HOME").map fun home =>
    Path.join (Path.join (Path.join home ".config") "figrbx") "config.toml"

def parse (contents : String) : Option (Config Float) := (Toml.parse contents).bind ofSetting?

variable {m : Type → Type} [Monad m] [Host m]

def readFile (path : RawText) : m (Except SettingsFault (Config Float)) := do
  match ← Host.readText path with
  | .error fault => return .error (.unreadable fault)
  | .ok contents =>
    match parse contents with
    | some config => return .ok config
    | none => return .error .malformed

/-- The settings as they are written, without a look at their values. -/
def read (env : Environment) (path : Option RawText) : m (Except SettingsFault (Config Float)) := do
  match path, centralPath? env with
  | some path, _ => readFile path
  | none, some central =>
    if ← Host.isThere central then readFile central else return .ok default
  | none, none => return .ok default

/-- The settings of a run, if they can be read and are acceptable. -/
def load (env : Environment) (path : Option RawText) : m (Except Failure (Config Float)) := do
  match ← read env path with
  | .error fault =>
    let location := (path.or (centralPath? env)).getD "defaults"
    return .error (.config (.settingsFile location fault))
  | .ok config =>
    match config.defect? with
    | some defect => return .error (.config (.settings path defect))
    | none => return .ok config

def summary (config : Config Float) (path : Option RawText) : String :=
  String.join ["Effective config [", (path.map RawText.shown).getD "defaults", "]: overrides=",
    Decimal.natText config.overrides.length,
    ", stroke: radius=", Binary64.fixedText 1 config.stroke.clusterRadius,
    ", spread=", Binary64.fixedText 1 config.stroke.maxSpread,
    ", min_group=", Decimal.natText config.stroke.minGroup,
    ", upload: type=", config.upload.assetType,
    ", poll=", Decimal.natText config.upload.pollInterval.millis,
    "ms x", Decimal.natText config.upload.maxPollAttempts,
    ", delay=", Decimal.natText config.upload.interUploadDelay.millis,
    "ms, text: mode=", Json.nameIn TextMode.names config.text.mode,
    ", default_font=", config.text.defaultFont]

end Config
end DesignCompiler
