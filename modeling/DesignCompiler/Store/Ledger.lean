import DesignCompiler.Host
import DesignCompiler.Json.Printer
import DesignCompiler.Json.Reader
import DesignCompiler.Json.Record
import DesignCompiler.Snapshot

/-!
The ledger of stored pictures: the asset of each content hash and when it was stored. Entries are
never changed, and each new one is written to the file of the ledger, if it has one.
-/
namespace DesignCompiler.Store

structure LedgerEntry where
  asset : String
  storedAt : Timestamp
deriving DecidableEq, Repr

structure Ledger where
  path : Option RawText
  /-- Entries by hash, in the order of the hashes, each hash once. -/
  entries : List (String × LedgerEntry)
deriving DecidableEq, Repr

namespace LedgerEntry

def keys : List String := ["assetId", "uploadedAt"]

def json (entry : LedgerEntry) : Json :=
  .object [("assetId", .string entry.asset), ("uploadedAt", .string entry.storedAt.text)]

def ofJson? (value : Json) : Option LedgerEntry := do
  let fields ← Json.record? keys value
  return {
    asset := ← fields.required "assetId" Json.text?
    storedAt := ← fields.required "uploadedAt" fun value =>
      (Json.text? value).bind Timestamp.parse }

end LedgerEntry

namespace Ledger

/-- A ledger without a file. -/
def inMemory : Ledger := ⟨none, []⟩

def get? (ledger : Ledger) (hash : String) : Option LedgerEntry := ledger.entries.lookup hash

def asset? (ledger : Ledger) (hash : String) : Option String := (ledger.get? hash).map (·.asset)

def size (ledger : Ledger) : Nat := ledger.entries.length

def isEmpty (ledger : Ledger) : Bool := ledger.entries.isEmpty

def json (ledger : Ledger) : Json :=
  .object [("entries", .object (ledger.entries.map fun (hash, entry) => (hash, entry.json)))]

def fileText (ledger : Ledger) : String := ledger.json.pretty

def fileShape : Json.Shape :=
  .record [("entries", .each (.only LedgerEntry.keys))] .ignored

/-- The entries in the text of a ledger. -/
def parse (contents : String) : Option (List (String × LedgerEntry)) := do
  let value ← Json.Reader.read fileShape contents
  let fields ← Json.record? ["entries"] value
  let entries ← fields.orElse "entries" [] (Json.dictionary? LedgerEntry.ofJson?)
  return entries.foldl (fun held (hash, entry) => insertSorted hash entry held) []

variable {m : Type → Type} [Monad m] [Host m]

/-- Reads the file of a ledger; where there is none, the ledger starts empty. -/
def load (path : RawText) : m (Except Failure Ledger) := do
  match ← Host.readText path with
  | .ok contents =>
    match parse contents with
    | some entries => return .ok ⟨some path, entries⟩
    | none => return .error (.config (.cacheFile path))
  | .error .notFound => return .ok ⟨some path, []⟩
  | .error fault => return .error (.io fault)

/-- Writes the ledger to its file. -/
def persist (ledger : Ledger) : m (Except FileFault Unit) :=
  match ledger.path with
  | some path => replaceFile path ledger.fileText
  | none => pure (.ok ())

/-- Enters an asset unless the hash has one, and gives the entry that counts. A new entry is in the
ledger before it is written. -/
def insert (hash asset : String) : StateT Ledger m (Except Failure LedgerEntry) := do
  let ledger ← get
  match ledger.get? hash with
  | some entry => return .ok entry
  | none =>
    let entry : LedgerEntry := ⟨asset, ← (Host.now : m _)⟩
    let extended := { ledger with entries := insertSorted hash entry ledger.entries }
    set extended
    match ← (persist extended : m _) with
    | .ok () => return .ok entry
    | .error fault => return .error (.io fault)

end Ledger
end DesignCompiler.Store
