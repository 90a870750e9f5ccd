import AbcDemo.Foundation.Uninterrupted
import AbcDemo.Offchain.TaskResults

/-! # Saving and loading delegate infos

What a delegate answered to a client is kept in a cell of the client, which has
a lock cell of its own. All these cells and those of the task results share one
key space.
-/

namespace AbcDemo.Offchain

open Foundation Pallet

def clientKeyPrefix : String := "local-storage::client-"

def clientLockPrefix : String := "local-storage::client-lock-"

structure DelegateInfo where
  delegatorTeaId : Bytes
  delegatorEphemeralId : Bytes
  sig : Bytes
  key3RsaPubKey : String
  deriving DecidableEq

instance : PrefixCodec DelegateInfo :=
  .transport
    (fun fields : Bytes × Bytes × Bytes × String =>
      ⟨fields.1, fields.2.1, fields.2.2.1, fields.2.2.2⟩)
    (fun info => (info.delegatorTeaId, info.delegatorEphemeralId, info.sig, info.key3RsaPubKey))
    fun _ => rfl

def clientKey (client : String) : Bytes := asBytes (clientKeyPrefix ++ client)

def clientLock (client : String) : Bytes := asBytes (clientLockPrefix ++ client)

/-- The error of the storage is passed on; an absent or undecodable info has none. -/
inductive LoadError where
  | details (client : String) (error : TaskError)
  | missing (client : String)
  deriving DecidableEq

/-- What a worker may complete. -/
inductive Operation where
  | save (account : AccountId32) (info : DelegateInfo)
  | load (account : AccountId32)
  | job (work : Job)

def Operation.savedFor (account : AccountId32) : Operation → Option DelegateInfo
  | .save account' info => if account' = account then some info else none
  | _ => none

/-- What the last save for the account saved. -/
def lastSaved (account : AccountId32) (ops : List Operation) : Option DelegateInfo :=
  lastWrite (Operation.savedFor account) ops

variable {AccountId : Type} [Codec DelegateInfo]

def saveDelegateInfo (client : String) (delegateInfo : DelegateInfo) : WorkerM AccountId Unit :=
  operateLocalStorage (clientKey client) (clientLock client) fun valueRef =>
    valueRef.set delegateInfo

def loadDelegateInfo (client : String) :
    Program (Call AccountId) (fun _ => SendResult AccountId) LoadError DelegateInfo := do
  let result ← (operateLocalStorage (clientKey client) (clientLock client) fun valueRef =>
    valueRef.get DelegateInfo).attempt
  match result with
  | .ok (some (some info)) => pure info
  | .error e => .fail (.details client e)
  | _ => .fail (.missing client)

/-- The client of an operation is the text of its account. -/
def Operation.program [Codec (List ResultEntry)] (text : AccountId32 → String) :
    Operation → Program (Call AccountId) (fun _ => SendResult AccountId) Empty Unit
  | .save account info => (saveDelegateInfo (text account) info).discard
  | .load account => (loadDelegateInfo (text account)).discard
  | .job work => work.program.discard

end AbcDemo.Offchain
