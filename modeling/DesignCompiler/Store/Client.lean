import DesignCompiler.Config.Source
import DesignCompiler.Json.Printer
import DesignCompiler.Json.Reader
import DesignCompiler.Json.Record
import DesignCompiler.Store.Uploader
import DesignCompiler.Url

/-!
The store behind a network: the requests that are sent to it, and what its replies mean.
-/
namespace DesignCompiler.Store

/-- What a part of a form holds. -/
inductive FormPart where
  | text (name value : String)
  | file (name fileName contentType : String) (bytes : List UInt8)
deriving DecidableEq, Repr

inductive Request where
  | get (url : Url) (key : String)
  | post (url : Url) (key : String) (form : List FormPart)
deriving DecidableEq, Repr

structure Reply where
  status : Nat
  body : String
  /-- After how many seconds to try again. -/
  retryAfter : Option String
deriving DecidableEq, Repr

/-- What the store says about an operation. -/
structure Operation where
  path : String
  done : Bool
  /-- The asset of the response, if there is one. -/
  asset : Option Json
  /-- The code and the message of the error, if there is one. -/
  error : Option (Option Json × String)

namespace Operation

def shape : Json.Shape :=
  .record [("path", .whole), ("done", .whole), ("response", .only ["assetId"]),
    ("error", .only ["code", "message"])] .ignored

def asset? (value : Json) : Option (Option Json) := do
  let fields ← Json.record? ["assetId"] value
  fields.orElse "assetId" none (Json.optional? some)

def error? (value : Json) : Option (Option Json × String) := do
  let fields ← Json.record? ["code", "message"] value
  let code ← fields.orElse "code" none (Json.optional? some)
  let message ← fields.orElse "message" "" Json.text?
  return (code, message)

def ofJson? (value : Json) : Option Operation := do
  let fields ← Json.record? ["path", "done", "response", "error"] value
  let response ← fields.orElse "response" none (Json.optional? asset?)
  return {
    path := ← fields.orElse "path" "" Json.text?
    done := ← fields.orElse "done" false Json.bool?
    asset := response.bind id
    error := ← fields.orElse "error" none (Json.optional? error?) }

def parse (body : String) : Option Operation := (Json.Reader.read shape body).bind ofJson?

/-- The id of an asset: a text that is not empty, or a number. -/
def assetId? : Json → Option String
  | .string id => if id.isEmpty then none else some id
  | .number id => some (Json.number id).compact
  | _ => none

/-- An operation that failed, one that goes on, or the asset of one that is complete. -/
def status (operation : Operation) : Except Failure UploadStatus :=
  match operation.error with
  | some (code, message) =>
    let code := (code.map fun code => " (" ++ code.settled.compact ++ ")").getD ""
    .error (.upload none ("operation " ++ operation.path ++ " failed" ++ code ++ ": " ++ message))
  | none =>
    if operation.done then
      match operation.asset.bind assetId? with
      | some id => .ok (.complete id)
      | none =>
        .error (.upload none
          ("operation " ++ operation.path ++ " completed without an asset id"))
    else if operation.path.isEmpty then
      .error (.upload none "pending operation returned without a path")
    else .ok (.pending operation.path)

end Operation

namespace Reply

/-- The reason that the body of a reply gives. -/
def reason? (reply : Reply) : Option String := do
  let value ← Json.parse reply.body
  match value.get? "message" with
  | some message => message.text?
  | none => (← value.get? "error").text?

/-- The wording of a reply that is no success. Status 429 means that there were too many requests. -/
def refusal (reply : Reply) : String :=
  match reply.status == 429, reply.retryAfter, reply.reason? with
  | true, some seconds, some reason =>
    reason ++ " (rate limited, retry after " ++ seconds ++ "s)"
  | true, some seconds, none => "rate limited by Open Cloud, retry after " ++ seconds ++ "s"
  | _, _, some reason => reason
  | _, _, none => "Open Cloud returned status " ++ Decimal.natText reply.status

/-- What a reply says about an upload. -/
def uploadStatus (reply : Reply) : Except Failure UploadStatus :=
  if 200 ≤ reply.status ∧ reply.status < 300 then
    match Operation.parse reply.body with
    | some operation => operation.status
    | none => .error .serialization
  else .error (.upload (some reply.status) reply.refusal)

end Reply

/-- Who uploads, and where to. -/
structure Client where
  key : String
  base : Url
  assetType : String
  creator : Creator

namespace Client

def creatorJson : Creator → Json
  | .user id => .object [("userId", .string id)]
  | .group id => .object [("groupId", .string id)]

/-- The description of an asset that goes with its bytes. -/
def metadata (client : Client) (request : UploadRequest) : Json :=
  .object [("assetType", .string client.assetType), ("displayName", .string request.displayName),
    ("description", .string ("figrbx raster " ++ request.hash)),
    ("creationContext", .object [("creator", creatorJson client.creator)])]

def createRequest (client : Client) (request : UploadRequest) : Except Failure Request := do
  let url ← (client.base.join "/assets/v1/assets").mapError .invalidUrl
  return .post url client.key
    [.text "request" (client.metadata request).compact,
      .file "fileContent" (request.hash ++ "." ++ request.extension) request.contentType
        request.bytes]

/-- The request about an operation, whose slashes in front do not count. -/
def pollRequest (client : Client) (operation : String) : Except Failure Request := do
  let path := String.ofList (operation.toList.dropWhile (· == '/'))
  let url ← (client.base.join ("/assets/v1/" ++ path)).mapError .invalidUrl
  return .get url client.key

/-- The client that the environment has the key of, if it has one. -/
def ofEnvironment (env : Environment) (config : UploadConfig) :
    Except Failure (Option Client) :=
  match env.filled? "ROBLOX_API_KEY" with
  | none => .ok none
  | some key =>
    match config.creator.or (Creator.ofEnvironment? env) with
    | none => .error (.config .noCreator)
    | some creator =>
      match Url.parse config.baseUrl with
      | .error fault => .error (.invalidUrl fault)
      | .ok base => .ok (some ⟨key, base, config.assetType, creator⟩)

end Client

section
variable {m : Type → Type} [Monad m]

/-- Sends a request, if it could be made, over a network that may give no reply. -/
def exchange (send : Request → m (Option Reply)) :
    Except Failure Request → m (Except Failure UploadStatus)
  | .error failure => pure (.error failure)
  | .ok request => do
    match ← send request with
    | some reply => return reply.uploadStatus
    | none => return .error .network

/-- The uploader of a client. -/
def Client.uploader (client : Client) (send : Request → m (Option Reply)) : Uploader m where
  available := true
  create request := exchange send (client.createRequest request)
  poll operation := exchange send (client.pollRequest operation)

/-- The uploader of a run: a client if the environment has a key, and else none. -/
def Uploader.ofEnvironment (env : Environment) (config : UploadConfig)
    (send : Request → m (Option Reply)) : Except Failure (Uploader m) :=
  (Client.ofEnvironment env config).map fun client =>
    match client with
    | some client => client.uploader send
    | none => .disabled

end
end DesignCompiler.Store
