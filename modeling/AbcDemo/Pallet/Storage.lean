import AbcDemo.Foundation.Codec
import AbcDemo.Foundation.Currency
import AbcDemo.Foundation.Dispatch
import AbcDemo.Foundation.StorageMap

/-! # Storage, events and errors of the pallet

The pallet is generic in its account type and currency. Its state is every
storage item of `decl_storage!` together with the ledger of the currency; what
a call reports on the side (events deposited, calls made to the currency) is
observed in the log of its outcome and is not part of the state.
-/

namespace AbcDemo.Pallet

open Foundation

abbrev ClientAccountId := Bytes
abbrev ErrandId := Bytes
abbrev Cid := Bytes
abbrev NetAddress := Bytes
abbrev DelegatorName := Bytes
abbrev AccountId32 := FixedBytes 32
abbrev BlockNumber := Nat

def minUpdateResultAccount : Nat := 2

inductive ErrandStatus where
  | processing
  | done
  deriving DecidableEq

structure Errand where
  accountId : ClientAccountId
  errandId : ErrandId
  descriptionCid : Cid
  status : ErrandStatus
  result : Cid
  deriving DecidableEq

structure TaskInfo where
  client : ClientAccountId
  delegator : DelegatorName
  descriptionCid : Cid
  errandId : ErrandId
  fee : UInt32
  deriving DecidableEq

structure State (AccountId Ledger : Type) where
  errands : StorageMap Cid Errand
  delegates : StorageMap AccountId Bool
  completedErrands : StorageMap Cid (List AccountId)
  clientTaskFee : StorageMap AccountId UInt32
  clientDelegate : StorageMap AccountId AccountId
  delegateNetAddress : StorageMap AccountId NetAddress
  delegateAccounts : StorageMap DelegatorName AccountId
  tasks : StorageMap BlockNumber (List TaskInfo)
  delegatesApplys : StorageMap BlockNumber (List (DelegatorName × AccountId))
  processingErrands : List Cid
  developmentMode : Bool
  updateResultAccounts : List AccountId32
  balances : Ledger

/-- The state built by `add_extra_genesis`, over the genesis balances. -/
def genesis {AccountId Ledger : Type} (developmentMode : Bool)
    (updateResultAccounts : List AccountId32) (balances : Ledger) : State AccountId Ledger where
  errands := .empty
  delegates := .empty
  completedErrands := .empty
  clientTaskFee := .empty
  clientDelegate := .empty
  delegateNetAddress := .empty
  delegateAccounts := .empty
  tasks := .empty
  delegatesApplys := .empty
  processingErrands := []
  developmentMode := developmentMode
  updateResultAccounts := updateResultAccounts
  balances := balances

inductive Event (AccountId : Type) where
  | delegateRequested (account : AccountId) (delegatorName : DelegatorName)
  | delegateUpdated (account : AccountId)
  | taskBegan (client : AccountId) (descriptionCid : Cid) (delegator : AccountId)
  | errandInited (client : AccountId) (descriptionCid : Cid)
  | errandUpdated (descriptionCid : Cid) (result : Bytes)
  deriving DecidableEq

inductive Error where
  | noneValue
  | storageOverflow
  | insufficientFee
  | sendErrandTaskError
  | queryErrandResultError
  | responseParsingError
  | errandAlreadyExecuted
  | errandTaskNotExist
  | errandTaskCompleted
  | errandItemIsNone
  | processingErrandNotExist
  | applyDelegateError
  | clientAlreadyExists
  | clientNotExist
  | clientNotReady
  | clientDelegatorNotExist
  | noRightToUpdateDelegate
  | noRightToInitErrand
  | noRightToUpdateErrand
  | accountId32ConvertionError
  | localStorageError
  deriving DecidableEq

/-- `foreign` is the error of another module, such as the currency's. -/
inductive DispatchError where
  | badOrigin
  | module (error : Error)
  | foreign (code : Nat)
  deriving DecidableEq

/-- What a call lets be seen besides the state it leaves. -/
inductive Observation (AccountId : Type) where
  | deposited (event : Event AccountId)
  | reserved (who : AccountId) (value : Nat) (result : Except DispatchError Unit)
  | repatriated (slashed beneficiary : AccountId) (value : Nat)
      (result : Except DispatchError Nat)

/-- What the pallet's configuration takes from the runtime around it. -/
structure Trait (AccountId Ledger : Type) where
  currency : ReservableCurrency AccountId Ledger DispatchError
  blake2_128 : Bytes → FixedBytes 16

/-- The block and the extrinsic a call executes in. -/
structure Env where
  blockNumber : BlockNumber
  randomSeed : Bytes
  extrinsicIndex : Option UInt32

inductive RawOrigin (AccountId : Type) where
  | root
  | signed (account : AccountId)
  | none
  deriving DecidableEq

abbrev PalletM (AccountId Ledger : Type) : Type → Type :=
  Dispatch (State AccountId Ledger) (Observation AccountId) DispatchError

end AbcDemo.Pallet
