import DesignCompiler.Duration
import DesignCompiler.Failure
import DesignCompiler.Timestamp

/-!
What a run asks of the machine it runs on: files, the clock and pauses. Files are replaced as a whole:
the new text is written beside the old one and then put in its place.
-/
namespace DesignCompiler

class Host (m : Type → Type) where
  readText : RawText → m (Except FileFault String)
  writeText : RawText → String → m (Except FileFault Unit)
  /-- Puts a file in the place of another one. -/
  rename : RawText → RawText → m (Except FileFault Unit)
  /-- Makes a folder and those it lies in, where they are missing. -/
  createFolders : RawText → m (Except FileFault Unit)
  isThere : RawText → m Bool
  now : m Timestamp
  pause : Duration → m Unit

namespace Host

variable {m : Type → Type} [Monad m] [Host m]

/-- A computation with a state of its own asks the machine below. -/
instance {σ : Type} : Host (StateT σ m) where
  readText path := (Host.readText path : m _)
  writeText path text := (Host.writeText path text : m _)
  rename source target := (Host.rename source target : m _)
  createFolders path := (Host.createFolders path : m _)
  isThere path := (Host.isThere path : m _)
  now := (Host.now : m _)
  pause duration := (Host.pause duration : m _)

end Host

namespace Path

/-- A path without marks and dots at its end that mean nothing. -/
def trimEnd : List Char → List Char
  | '/' :: rest => trimEnd rest
  | '.' :: '/' :: rest => trimEnd ('/' :: rest)
  | rest => rest

/-- The folder that a path lies in. It is empty for a bare name, and there is none for the root. -/
def parent? (path : RawText) : Option RawText :=
  match trimEnd path.toList.reverse with
  | [] => none
  | name =>
    match name.dropWhile (· != '/') with
    | [] => some ""
    | folder =>
      match trimEnd folder with
      | [] => some "/"
      | folder => some (String.ofList folder.reverse)

def join (folder name : RawText) : RawText :=
  if folder.isEmpty || folder.endsWith "/" then folder ++ name else folder ++ "/" ++ name

end Path

section
variable {m : Type → Type} [Monad m] [Host m]

def createParent (path : RawText) : m (Except FileFault Unit) :=
  match Path.parent? path with
  | none | some "" => pure (.ok ())
  | some folder => Host.createFolders folder

/-- Replaces a file by way of another one beside it, so that no reader meets half a text. -/
def replaceFile (path : RawText) (text : String) : m (Except FileFault Unit) := do
  match ← createParent path with
  | .error fault => return .error fault
  | .ok () =>
    let beside := path ++ ".tmp"
    match ← Host.writeText beside text with
    | .error fault => return .error fault
    | .ok () => Host.rename beside path

end
end DesignCompiler
