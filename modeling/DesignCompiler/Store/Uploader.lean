import DesignCompiler.Failure

/-!
The store that pictures are uploaded to: a request starts an operation, which is asked about until it
is complete.
-/
namespace DesignCompiler.Store

inductive UploadStatus where
  | complete (asset : String)
  /-- Still at work; the operation to ask about. -/
  | pending (operation : String)
deriving DecidableEq, Repr

structure UploadRequest where
  hash : String
  displayName : String
  contentType : String
  extension : String
  bytes : List UInt8
deriving DecidableEq, Repr

structure Uploader (m : Type → Type) where
  /-- Whether there is a key to the store at all. -/
  available : Bool
  create : UploadRequest → m (Except Failure UploadStatus)
  poll : String → m (Except Failure UploadStatus)

namespace Uploader

/-- The uploader of a run without a key. -/
def disabled {m : Type → Type} [Monad m] : Uploader m where
  available := false
  create request := pure (.error (.config (.keyRequired (.upload request.hash))))
  poll operation := pure (.error (.config (.keyRequired (.poll operation))))

end Uploader
end DesignCompiler.Store
