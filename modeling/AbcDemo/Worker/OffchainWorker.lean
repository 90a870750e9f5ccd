import AbcDemo.Offchain.ApplyDelegates
import AbcDemo.Worker.Task

/-! # The worker of a block

After a block is imported, its worker answers the applications and sends the
tasks of the block, asks for the results that are outstanding and submits those
that have come. It reads the state of the chain at that block throughout. What
it gives back of a reserve it writes to a copy of that state, which it never
reads again and which is dropped at the end.
-/

namespace AbcDemo.Worker

open Foundation Pallet Offchain

/-- A node: the formats it speaks and the keys it holds. -/
structure Host (AccountId Public : Type) where
  formats : Formats
  intoAccount : Public → AccountId
  keys : List Public

variable {AccountId Ledger Public : Type} {ε : Type}

/-- The signer for all accounts. -/
def Host.accounts (H : Host AccountId Public) : List (AccountId × Public) :=
  getAccounts H.intoAccount H.keys

variable [DecidableEq AccountId] [Inhabited AccountId] [Codec AccountId]
  [Codec (List ResultEntry)] [Codec DelegateInfo] (H : Host AccountId Public)
  (s : State AccountId Ledger)

def getAccountIds : List AccountId32 :=
  H.keys.filterMap fun key =>
    match accountToBytes (H.intoAccount key) with
    | .ok account => some account
    | .error _ => none

/-! ## Applications -/

def applySingleDelegate (delegator : AccountId) :
    NodeM AccountId Public ε (Except Error Unit) :=
  let netAddress := s.delegateNetAddress.get delegator
  match accountToBytes delegator with
  | .error e => pure (.error e)
  | .ok account => do
      if ¬ (← requestSingleDelegate H.formats account netAddress) then
        pure (.error .applyDelegateError)
      else pure (.ok ())

def applyDelegate (acc : DelegatorName × AccountId) : NodeM AccountId Public ε Unit := do
  if (signerFilter H.accounts acc.2).length = 0 then pure ()
  else
    match ← applySingleDelegate H s acc.2 with
    | .error _ =>
        let _ ← sendSignedTransaction (signerFilter H.accounts acc.2) (.unreserve acc.1 acc.2)
        pure ()
    | .ok () =>
        let _result ← sendSignedTransaction (signerFilter H.accounts acc.2)
          (.updateDelegateStatus acc.2)
        pure ()

def applyDelegates (blockNumber : BlockNumber) : NodeM AccountId Public ε Unit :=
  if ¬ s.delegatesApplys.contains blockNumber then pure ()
  else if H.keys.isEmpty then pure ()
  else forM (s.delegatesApplys.get blockNumber) (applyDelegate H s)

/-! ## Tasks -/

/-- `T::Currency::unreserve(..)` on the worker's copy of the state. -/
def unreserveFee (who : AccountId) (fee : UInt32) : NodeM AccountId Public ε Unit :=
  Program.request (Request.unreserve who fee.toNat)

def initSingleErrandTask (signer : List (AccountId × Public)) (client : AccountId)
    (descriptionCid : Cid) (errandId : ErrandId) : NodeM AccountId Public ε Bool := do
  let result ← sendSignedTransaction signer (.initErrand client errandId descriptionCid)
  pure (result.all fun sent => sent.2.isOk)

def submitTask (signerFilter : List (AccountId × Public)) (fee : UInt32) (item : TaskInfo) :
    NodeM AccountId Public ε Unit :=
  match (Codec.decode item.client : Option AccountId) with
  | some client => do
      if ¬ (← initSingleErrandTask signerFilter client item.descriptionCid item.errandId) then
        unreserveFee client fee
      else pure ()
  | none => pure ()

def sendAndSubmit (delegator : AccountId) (signerFilter : List (AccountId × Public)) (fee : UInt32)
    (item : TaskInfo) : NodeM AccountId Public ε Unit :=
  match accountToBytes delegator with
  | .ok account => do
      let netAddress := s.delegateNetAddress.get delegator
      let sent ← sendTaskToTeaNetwork H.formats account item.descriptionCid item.errandId netAddress
      if ¬ sent then unreserveFee delegator fee
      else submitTask signerFilter fee item
  | .error _ => submitTask signerFilter fee item

/-- One round of the loop, which a task without a registered name ends. -/
def sendErrandTask (item : TaskInfo) : NodeM AccountId Public Unit Unit :=
  if ¬ s.delegateAccounts.contains item.delegator then .fail ()
  else
    match (Codec.decode item.client : Option AccountId) with
    | some client =>
        let delegator := s.delegateAccounts.get item.delegator
        let fee := s.clientTaskFee.get client
        if (signerFilter H.accounts delegator).length = 0 then pure ()
        else sendAndSubmit H s delegator (signerFilter H.accounts delegator) fee item
    | none => pure ()

def sendErrandTasks (blockNumber : BlockNumber) : NodeM AccountId Public Unit Unit :=
  if ¬ s.tasks.contains blockNumber then .fail ()
  else if H.keys.isEmpty then .fail ()
  else forM (s.tasks.get blockNumber) (sendErrandTask H s)

/-! ## Results -/

def queryErrandTaskResult (item : Cid) : NodeM AccountId Public ε Unit :=
  match s.errands.find item with
  | some errand =>
      match (Codec.decode errand.accountId : Option AccountId) with
      | some client => do
          let delegate := s.clientDelegate.get client
          let netAddress := s.delegateNetAddress.get delegate
          let _ ← fetchSingleTaskResult H.formats errand.errandId errand.descriptionCid netAddress
          pure ()
      | none => pure ()
  | none => pure ()

/-- Asked for at every tenth block, by a node with a listed account. -/
def queryErrandTaskResults (blockNumber : BlockNumber) : NodeM AccountId Public ε Unit :=
  if blockNumber % 10 ≠ 0 then pure ()
  else if H.keys.isEmpty then pure ()
  else if ¬ allowToUpdateResult s.updateResultAccounts (getAccountIds H) then pure ()
  else forM s.processingErrands (queryErrandTaskResult H s)

def updateErrandTaskResults : NodeM AccountId Public ε Unit :=
  if H.keys.isEmpty then pure ()
  else if ¬ allowToUpdateResult s.updateResultAccounts (getAccountIds H) then pure ()
  else (loadTasksResultsInfo.translate (sendSignedTransaction H.accounts) id).discard

/-! ## The worker -/

def offchainWorker (blockNumber : BlockNumber) : NodeM AccountId Public Empty Unit := do
  applyDelegates H s blockNumber
  (sendErrandTasks H s blockNumber).discard
  queryErrandTaskResults H s blockNumber
  updateErrandTaskResults H s

end AbcDemo.Worker
