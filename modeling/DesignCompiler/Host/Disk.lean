import DesignCompiler.Host

/-!
A tree of files as a value, and a machine that has one, a clock, and a list of faults to come. Runs on
this machine are ordinary functions.
-/
namespace DesignCompiler

/-- The names on the way from the root to a place. -/
abbrev Place := List RawText

structure Disk where
  /-- Where relative paths start. -/
  here : Place
  files : List (Place × String)
  folders : List Place
deriving DecidableEq, Repr

namespace Disk

def empty : Disk := ⟨[], [], []⟩

def file? (disk : Disk) (place : Place) : Option String := disk.files.lookup place

/-- The root, a folder that was made, or one on the way to a file or a folder. -/
def isFolder (disk : Disk) (place : Place) : Bool :=
  place.isEmpty || place.isPrefixOf disk.here || disk.folders.any place.isPrefixOf ||
    disk.files.any fun entry => place.isPrefixOf entry.1 && place != entry.1

/-- The steps of a path. -/
def steps (path : RawText) : List RawText :=
  ((path.toList.splitOn '/').map String.ofList).filter fun step => step != "" && step != "."

/-- The path starts at the root. -/
def isAbsolute (path : RawText) : Bool := path.toList.head? == some '/'

/-- The path names a folder by its form. -/
def namesFolder (path : RawText) : Bool :=
  match path.toList.reverse with
  | '/' :: _ | '.' :: '/' :: _ => true
  | _ => false

/-- A name of more bytes than a name can have. -/
def isTooLong (name : RawText) : Bool := decide (255 < name.bytes.length)

/-- Goes on from a folder. All steps but the last have to lead to folders. -/
def walk (disk : Disk) (place : Place) : List RawText → Except FileFault Place
  | [] => .ok place
  | step :: rest =>
    if isTooLong step then .error .nameTooLong
    else
      let next := if step = ".." then place.dropLast else place ++ [step]
      if rest.isEmpty || disk.isFolder next then walk disk next rest
      else if (disk.file? next).isSome then .error .notDirectory
      else .error .notFound

/-- The place of a path, whether or not something is there. -/
def locate (disk : Disk) (path : RawText) : Except FileFault Place :=
  if path.isEmpty then .error .notFound
  else disk.walk (if isAbsolute path then [] else disk.here) (steps path)

def read (disk : Disk) (path : RawText) : Except FileFault String := do
  let place ← disk.locate path
  if disk.isFolder place then .error .isDirectory
  else match disk.file? place with
    | none => .error .notFound
    | some text => if namesFolder path then .error .notDirectory else .ok text

/-- Puts a text in a place that is no folder. -/
def put (disk : Disk) (place : Place) (text : String) : Disk :=
  { disk with files := (place, text) :: disk.files.filter (·.1 != place) }

/-- Takes a file away; its folder stays. -/
def remove (disk : Disk) (place : Place) : Disk :=
  { disk with files := disk.files.filter (·.1 != place)
              folders := place.dropLast :: disk.folders }

def write (disk : Disk) (path : RawText) (text : String) : Except FileFault Disk := do
  let place ← disk.locate path
  if disk.isFolder place then .error .isDirectory
  else if namesFolder path then
    .error (if (disk.file? place).isSome then .notDirectory else .isDirectory)
  else .ok (disk.put place text)

def rename (disk : Disk) (source target : RawText) : Except FileFault Disk := do
  let start ← disk.locate source
  let goal ← disk.locate target
  match disk.file? start with
  | none => .error .notFound
  | some text =>
    if disk.isFolder goal then .error .isDirectory
    else if namesFolder target then .error .notDirectory
    else .ok ((disk.remove start).put goal text)

/-- Makes the folders on a way, as far as it can be gone. -/
def makeFolders (disk : Disk) (place : Place) : List RawText → Except FileFault Unit × Disk
  | [] => (.ok (), disk)
  | step :: rest =>
    if isTooLong step then (.error .nameTooLong, disk)
    else
      let next := if step = ".." then place.dropLast else place ++ [step]
      if disk.isFolder next then makeFolders disk next rest
      else if (disk.file? next).isSome then
        (.error (if rest.isEmpty then .alreadyThere else .notDirectory), disk)
      else makeFolders { disk with folders := next :: disk.folders } next rest

def createFolders (disk : Disk) (path : RawText) : Except FileFault Unit × Disk :=
  if path.isEmpty then (.ok (), disk)
  else disk.makeFolders (if isAbsolute path then [] else disk.here) (steps path)

def isThere (disk : Disk) (path : RawText) : Bool :=
  match disk.locate path with
  | .ok place =>
    disk.isFolder place || ((disk.file? place).isSome && !namesFolder path)
  | .error _ => false

end Disk

/-- A disk, a clock, the pauses so far, and what the next operations on files will meet. -/
structure Machine where
  disk : Disk
  clock : Timestamp
  pauses : List Duration
  /-- For each operation to come a fault to fail with, or none; past the end there are none. -/
  faults : List (Option FileFault)
deriving DecidableEq, Repr

namespace Machine

abbrev Run (α : Type) := StateM Machine α

/-- A machine without faults. -/
def ofDisk (disk : Disk) : Machine := ⟨disk, ⟨0, 0⟩, [], []⟩

/-- One operation on files, unless a fault comes first. -/
def operate {α : Type} (act : Disk → Except FileFault α × Disk) : Run (Except FileFault α) :=
  fun machine =>
    match machine.faults with
    | some fault :: rest => (.error fault, { machine with faults := rest })
    | faults =>
      let (result, disk) := act machine.disk
      (result, { machine with disk, faults := faults.drop 1 })

/-- The new disk, or the old one if there was a fault. -/
def settle (disk : Disk) : Except FileFault Disk → Except FileFault Unit × Disk
  | .ok changed => (.ok (), changed)
  | .error fault => (.error fault, disk)

instance : Host (StateM Machine) where
  readText path := operate fun disk => (disk.read path, disk)
  writeText path text := operate fun disk => settle disk (disk.write path text)
  rename source target := operate fun disk => settle disk (disk.rename source target)
  createFolders path := operate fun disk => disk.createFolders path
  isThere path := fun machine => (machine.disk.isThere path, machine)
  now := fun machine => (machine.clock, machine)
  pause duration := fun machine =>
    ((), { machine with pauses := machine.pauses ++ [duration] })

end Machine
end DesignCompiler
