import DesignCompiler.CommandLine.Run
import Std.Time.Format

/-!
The program itself: the machine that it runs on is the one around it.
-/
namespace DesignCompiler

/-- What a fault of the machine means for a run. -/
def FileFault.ofError : IO.Error → FileFault
  | .noFileOrDirectory .. => .notFound
  | .permissionDenied .. => .permission
  | .alreadyExists .. => .alreadyThere
  | .inappropriateType _ code _ => if code = 21 then .isDirectory else .notDirectory
  | .userError _ => .notText
  | error => .other (toString error)

/-- The result of an action on files, or its fault. -/
def attempt {α : Type} (action : IO α) : IO (Except FileFault α) := do
  match ← action.toBaseIO with
  | .ok value => return .ok value
  | .error error => return .error (.ofError error)

instance : Host IO where
  readText path := attempt (IO.FS.readFile path)
  writeText path text := attempt (IO.FS.writeFile path text)
  rename source target := attempt (IO.FS.rename source target)
  createFolders path := attempt (IO.FS.createDirAll path)
  isThere path := do return (← attempt (IO.FS.realPath path)).toOption.isSome
  now := do
    let nanos := (← Std.Time.Timestamp.now).toNanosecondsSinceUnixEpoch.val
    return ⟨nanos.fdiv 1000000000, (nanos.fmod 1000000000).toNat⟩
  pause duration := IO.sleep duration.millis.toUInt32

def Environment.current : IO Environment := do
  let names := ["HOME", "ROBLOX_API_KEY", "ROBLOX_CREATOR_ID", "ROBLOX_GROUP_ID"]
  let held ← names.mapM fun name => do
    return (← IO.getEnv name).map fun value => (name, RawText.ofText value)
  return ⟨held.filterMap id⟩

/-- Without a network every request goes unanswered. -/
def unanswered (_ : Store.Request) : IO (Option Store.Reply) := return none

end DesignCompiler

open DesignCompiler in
def main (words : List String) : IO UInt32 := do
  let output ← IO.getStdout
  let setup := ⟨← Environment.current, ← output.isTty⟩
  let outcome ← CommandLine.run setup unanswered (words.map RawText.ofText)
  output.putStr outcome.output
  output.flush
  return outcome.exitCode.toUInt32
