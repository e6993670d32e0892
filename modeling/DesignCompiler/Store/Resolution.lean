import DesignCompiler.Config
import DesignCompiler.Plan
import DesignCompiler.Store.Content
import DesignCompiler.Store.Ledger
import DesignCompiler.Store.Uploader

/-!
Finding the assets of pictures: in the ledger, or by uploading. All pictures to upload are decoded
before the first one is sent, so a run that cannot succeed sends nothing.
-/
namespace DesignCompiler.Store

/-- The assets of hashes, the hashes uploaded for this, in order, and how many were in the ledger. -/
structure Resolution where
  resolved : List (String × String)
  uploaded : List String
  cacheHits : Nat
deriving DecidableEq, Repr

namespace Resolution

def json (resolution : Resolution) : Json :=
  .object [("resolved", .object (resolution.resolved.map fun (hash, asset) =>
      (hash, .string asset))),
    ("uploaded", Json.texts resolution.uploaded),
    ("cacheHits", Json.nat resolution.cacheHits)]

end Resolution

/-- What the ledger knows, and what has to be uploaded. -/
structure Triage where
  known : List (String × String)
  misses : List (UploadJob × Content)
deriving DecidableEq, Repr

namespace Triage

/-- Looks up jobs for distinct hashes; the first hash without a usable picture is a failure. -/
def of (ledger : Ledger) (raw : List (String × String)) : List UploadJob → Except Failure Triage
  | [] => .ok ⟨[], []⟩
  | job :: rest =>
    match ledger.asset? job.hash with
    | some asset => do
      let triage ← of ledger raw rest
      return { triage with known := (job.hash, asset) :: triage.known }
    | none =>
      match raw.lookup job.hash with
      | none => .error (.missingRawContent job.hash job.nodeId)
      | some encoded =>
        match Content.decode encoded with
        | .error fault => .error (.invalidRawContent job.hash fault)
        | .ok content => do
          let triage ← of ledger raw rest
          return { triage with misses := (job, content) :: triage.misses }

end Triage

/-- The name of an asset in the store: that of its node, or else its hash, cut to 50 characters. -/
def displayName (nodeName hash : String) : String :=
  let name := Text.trim nodeName
  String.ofList ((if name.isEmpty then hash else name).toList.take 50)

def requestFor (job : UploadJob) (content : Content) : UploadRequest where
  hash := job.hash
  displayName := displayName job.nodeName job.hash
  contentType := content.contentType
  extension := content.extension
  bytes := content.bytes

variable {m : Type → Type} [Monad m] [Host m]

def await (uploader : Uploader m) (config : UploadConfig) :
    Nat → String → m (Except Failure String)
  | 0, operation => return .error (.pollTimeout operation config.maxPollAttempts)
  | attempts + 1, operation => do
    Host.pause config.pollInterval
    match ← uploader.poll operation with
    | .error failure => return .error failure
    | .ok (.complete asset) => return .ok asset
    | .ok (.pending next) => await uploader config attempts next

def upload (uploader : Uploader m) (config : UploadConfig) (request : UploadRequest) :
    m (Except Failure String) := do
  match ← uploader.create request with
  | .error failure => return .error failure
  | .ok (.complete asset) => return .ok asset
  | .ok (.pending operation) => await uploader config config.maxPollAttempts operation

def send (uploader : Uploader m) (config : UploadConfig) (isFirst : Bool) (request : UploadRequest) :
    m (Except Failure String) := do
  if !isFirst && config.interUploadDelay != .zero then
    Host.pause config.interUploadDelay
  upload uploader config request

/-- Uploads pictures one after the other, pausing between them, and enters each asset into the ledger
as soon as it is known. -/
def uploadAll (uploader : Uploader m) (config : UploadConfig) (isFirst : Bool) :
    List (UploadJob × Content) → StateT Ledger m (Except Failure (List (String × String)))
  | [] => return .ok []
  | (job, content) :: rest => do
    match ← (send uploader config isFirst (requestFor job content) : m _) with
    | .error failure => return .error failure
    | .ok asset =>
      match ← Ledger.insert job.hash asset with
      | .error failure => return .error failure
      | .ok _ =>
        match ← uploadAll uploader config false rest with
        | .error failure => return .error failure
        | .ok stored => return .ok ((job.hash, asset) :: stored)

/-- Finds the asset of every job. The ledger keeps what was uploaded also if a later job fails. -/
def resolveAll (jobs : List UploadJob) (raw : List (String × String)) (uploader : Uploader m)
    (config : UploadConfig) : StateT Ledger m (Except Failure Resolution) := do
  match Triage.of (← get) raw (Plan.firstOfEach jobs) with
  | .error failure => return .error failure
  | .ok triage =>
    if triage.misses.isEmpty then return .ok ⟨triage.known, [], triage.known.length⟩
    else if !uploader.available then
      return .error (.config (.keyRequired (.uploadAll triage.misses.length)))
    else
      match ← uploadAll uploader config true triage.misses with
      | .error failure => return .error failure
      | .ok stored =>
        return .ok ⟨triage.known ++ stored, stored.map (·.1), triage.known.length⟩

end DesignCompiler.Store
