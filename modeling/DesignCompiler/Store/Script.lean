import DesignCompiler.Store.Uploader

/-!
A store that answers from a script and remembers what it was asked. Past the end of the script it
takes every picture: the operation of a hash is named after it, and completes with an asset that is
named after the operation.
-/
namespace DesignCompiler.Store

/-- What a store was asked. -/
inductive Call where
  | create (request : UploadRequest)
  | poll (operation : String)
deriving DecidableEq, Repr

/-- The answers to come, and the calls so far. -/
structure Script where
  create : List (Except Failure UploadStatus)
  poll : List (Except Failure UploadStatus)
  calls : List Call

namespace Script

def operationMark : List Char := "operations/".toList

/-- The name of an operation without the marks in front of it. -/
def operationName (operation : List Char) : List Char :=
  if operationMark.isPrefixOf operation then
    operationName (operation.drop operationMark.length)
  else operation
termination_by operation.length
decreasing_by
  rename_i marked
  have longer : operationMark.length ≤ operation.length :=
    (List.isPrefixOf_iff_prefix.mp marked).length_le
  have : operationMark.length = 11 := rfl
  simp [List.length_drop]
  omega

def operationOf (hash : String) : String := String.ofList (operationMark ++ hash.toList)

/-- The asset that an operation completes with. -/
def assetOf (operation : String) : String :=
  "asset-" ++ String.ofList (operationName operation.toList)

def answerCreate (request : UploadRequest) (script : Script) :
    Except Failure UploadStatus × Script :=
  (script.create.head?.getD (.ok (.pending (operationOf request.hash))),
    { script with create := script.create.tail, calls := script.calls ++ [.create request] })

def answerPoll (operation : String) (script : Script) : Except Failure UploadStatus × Script :=
  (script.poll.head?.getD (.ok (.complete (assetOf operation))),
    { script with poll := script.poll.tail, calls := script.calls ++ [.poll operation] })

variable {m : Type → Type} [Monad m]

/-- The store that follows the script of the run. -/
def uploader (available : Bool) : Uploader (StateT Script m) where
  available := available
  create request := modifyGet (answerCreate request)
  poll operation := modifyGet (answerPoll operation)

end Script
end DesignCompiler.Store
