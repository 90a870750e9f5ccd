import AbcDemo.Pallet.ErrandId

/-! # The six dispatchables

Each call is the straight-line program of the source: the same checks in the
same order, and a storage `take` as a read followed by a removal. A check that
fails after a write leaves that write in place.
-/

namespace AbcDemo.Pallet

open Foundation Dispatch

variable {AccountId Ledger : Type}

/-! ## Calls into the runtime -/

def ensureSigned : RawOrigin AccountId → PalletM AccountId Ledger AccountId
  | .signed account => pure account
  | .root => reject .badOrigin
  | .none => reject .badOrigin

def depositEvent (event : Event AccountId) : PalletM AccountId Ledger Unit :=
  emit (.deposited event)

/-- `T::Currency::reserve(..)?`. -/
def reserve (T : Trait AccountId Ledger) (who : AccountId) (value : Nat) :
    PalletM AccountId Ledger Unit := fun s =>
  match T.currency.reserve who value s.balances with
  | .ok balances => ⟨.ok (), { s with balances := balances }, [.reserved who value (.ok ())]⟩
  | .error e => ⟨.error e, s, [.reserved who value (.error e)]⟩

/-- `T::Currency::repatriate_reserved(.., BalanceStatus::Free)`: its error is a
value that the caller may ignore. -/
def repatriateReserved (T : Trait AccountId Ledger) (slashed beneficiary : AccountId)
    (value : Nat) : PalletM AccountId Ledger (Except DispatchError Nat) := fun s =>
  match T.currency.repatriateReserved slashed beneficiary value .free s.balances with
  | .ok (rest, balances) =>
      ⟨.ok (.ok rest), { s with balances := balances },
        [.repatriated slashed beneficiary value (.ok rest)]⟩
  | .error e => ⟨.ok (.error e), s, [.repatriated slashed beneficiary value (.error e)]⟩

@[simp] theorem run_ensureSigned_signed (account : AccountId) (s : State AccountId Ledger) :
    (ensureSigned (.signed account)).run s = ⟨.ok account, s, []⟩ := rfl

@[simp] theorem run_ensureSigned_root (s : State AccountId Ledger) :
    (ensureSigned .root).run s = ⟨.error .badOrigin, s, []⟩ := rfl

@[simp] theorem run_ensureSigned_none (s : State AccountId Ledger) :
    (ensureSigned .none).run s = ⟨.error .badOrigin, s, []⟩ := rfl

@[simp] theorem run_depositEvent (event : Event AccountId) (s : State AccountId Ledger) :
    (depositEvent event).run s = ⟨.ok (), s, [.deposited event]⟩ := rfl

@[simp] theorem run_reserve (T : Trait AccountId Ledger) (who : AccountId) (value : Nat)
    (s : State AccountId Ledger) :
    (reserve T who value).run s =
      match T.currency.reserve who value s.balances with
      | .ok balances => ⟨.ok (), { s with balances := balances }, [.reserved who value (.ok ())]⟩
      | .error e => ⟨.error e, s, [.reserved who value (.error e)]⟩ := rfl

@[simp] theorem run_repatriateReserved (T : Trait AccountId Ledger)
    (slashed beneficiary : AccountId) (value : Nat) (s : State AccountId Ledger) :
    (repatriateReserved T slashed beneficiary value).run s =
      match T.currency.repatriateReserved slashed beneficiary value .free s.balances with
      | .ok (rest, balances) =>
          ⟨.ok (.ok rest), { s with balances := balances },
            [.repatriated slashed beneficiary value (.ok rest)]⟩
      | .error e => ⟨.ok (.error e), s, [.repatriated slashed beneficiary value (.error e)]⟩ :=
  rfl

variable [DecidableEq AccountId] [Inhabited AccountId] [Codec AccountId]

/-! ## Helpers of the module -/

def accountToBytes (account : AccountId) : Except Error AccountId32 :=
  match FixedBytes.ofBytes? (Codec.encode account) with
  | some bytes => .ok bytes
  | none => .error .accountId32ConvertionError

def bytesToAccount (accountBytes : Bytes) : Except Error AccountId :=
  match Codec.decode accountBytes with
  | some client => .ok client
  | none => .error .accountId32ConvertionError

def allowToUpdateResult (updateResultAccounts accounts : List AccountId32) : Bool :=
  updateResultAccounts.any fun a => accounts.any fun i => a == i

def addProcessing (descriptionCid : Cid) : PalletM AccountId Ledger Unit := do
  let errands ← query (·.processingErrands)
  update fun s => { s with processingErrands := errands ++ [descriptionCid] }

def removeProcessing (descriptionCid : Cid) : PalletM AccountId Ledger Unit := do
  let errands ← query (·.processingErrands)
  update fun s => { s with processingErrands := errands.filter fun item => item ≠ descriptionCid }

def updateErrandResult (T : Trait AccountId Ledger) (descriptionCid : Cid) (result : Bytes) :
    PalletM AccountId Ledger Unit := do
  update fun s =>
    { s with
      errands := s.errands.alter descriptionCid fun errand =>
        { errand with status := .done, result := result } }
  removeProcessing descriptionCid
  match ← query (·.errands.find descriptionCid) with
  | some errand =>
      match (bytesToAccount errand.accountId : Except Error AccountId) with
      | .ok c =>
          let delegator ← query (·.clientDelegate.get c)
          let fee ← query (·.clientTaskFee.get c)
          let _balance ← repatriateReserved T c delegator fee.toNat
          pure ()
      | .error _ => pure ()
  | none => pure ()

/-! ## Dispatchables -/

def requestDelegate (env : Env) (origin : RawOrigin AccountId) (delegatorName : DelegatorName)
    (netAddress : NetAddress) : PalletM AccountId Ledger Unit := do
  let sender ← ensureSigned origin
  ensure (¬ (← query (·.delegates.contains sender))) (.module .clientAlreadyExists)
  if (← query (·.delegatesApplys.contains env.blockNumber)) then
    let accounts ← query (·.delegatesApplys.get env.blockNumber)
    update fun s => { s with delegatesApplys := s.delegatesApplys.remove env.blockNumber }
    update fun s =>
      { s with
        delegatesApplys :=
          s.delegatesApplys.insert env.blockNumber (accounts ++ [(delegatorName, sender)]) }
  else
    update fun s =>
      { s with
        delegatesApplys := s.delegatesApplys.insert env.blockNumber [(delegatorName, sender)] }
  update fun s => { s with delegates := s.delegates.insert sender false }
  update fun s => { s with delegateNetAddress := s.delegateNetAddress.insert sender netAddress }
  update fun s => { s with delegateAccounts := s.delegateAccounts.insert delegatorName sender }
  depositEvent (.delegateRequested sender delegatorName)

def updateDelegateStatus (origin : RawOrigin AccountId) (updater : AccountId) :
    PalletM AccountId Ledger Unit := do
  let sender ← ensureSigned origin
  ensure (sender = updater) (.module .noRightToUpdateDelegate)
  ensure (← query (·.delegates.contains sender)) (.module .clientNotExist)
  update fun s => { s with delegates := s.delegates.mutate sender fun _ => true }
  depositEvent (.delegateUpdated sender)

def beginTask (T : Trait AccountId Ledger) (env : Env) (origin : RawOrigin AccountId)
    (delegatorName : DelegatorName) (descriptionCid : Cid) (fee : UInt32) :
    PalletM AccountId Ledger Unit := do
  let client ← ensureSigned origin
  ensure (← query (·.delegateAccounts.contains delegatorName)) (.module .clientDelegatorNotExist)
  ensure (← query fun s => s.delegates.contains (s.delegateAccounts.get delegatorName))
    (.module .clientNotExist)
  let delegator ← query (·.delegateAccounts.get delegatorName)
  ensure (← query (·.delegates.get delegator)) (.module .clientNotReady)
  ensure (¬ (← query (·.errands.contains descriptionCid))) (.module .errandAlreadyExecuted)
  let taskInfo : TaskInfo :=
    { client := Codec.encode client
      delegator := delegatorName
      descriptionCid := descriptionCid
      errandId := generateErrandId T env delegator
      fee := fee }
  if (← query (·.tasks.contains env.blockNumber)) then
    let taskArray ← query (·.tasks.get env.blockNumber)
    update fun s => { s with tasks := s.tasks.remove env.blockNumber }
    forM taskArray fun task =>
      ensure (¬ task.descriptionCid = descriptionCid) (.module .errandAlreadyExecuted)
    ensure (0 < fee) (.module .insufficientFee)
    reserve T client fee.toNat
    update fun s => { s with clientTaskFee := s.clientTaskFee.insert client fee }
    update fun s => { s with tasks := s.tasks.insert env.blockNumber (taskArray ++ [taskInfo]) }
  else
    ensure (0 < fee) (.module .insufficientFee)
    reserve T client fee.toNat
    update fun s => { s with clientTaskFee := s.clientTaskFee.insert client fee }
    update fun s => { s with tasks := s.tasks.insert env.blockNumber [taskInfo] }
  update fun s => { s with clientDelegate := s.clientDelegate.insert client delegator }
  depositEvent (.taskBegan client descriptionCid delegator)

def initErrand (origin : RawOrigin AccountId) (client : AccountId) (errandId : ErrandId)
    (descriptionCid : Cid) : PalletM AccountId Ledger Unit := do
  let sender ← ensureSigned origin
  ensure (← query (·.clientDelegate.contains client)) (.module .clientDelegatorNotExist)
  ensure (sender = (← query (·.clientDelegate.get client))) (.module .clientDelegatorNotExist)
  let errand : Errand :=
    { accountId := Codec.encode client
      errandId := errandId
      descriptionCid := descriptionCid
      status := .processing
      result := [] }
  update fun s => { s with errands := s.errands.insert descriptionCid errand }
  addProcessing descriptionCid
  depositEvent (.errandInited client descriptionCid)

def updateErrand (T : Trait AccountId Ledger) (origin : RawOrigin AccountId)
    (descriptionCid : Cid) (result : Bytes) : PalletM AccountId Ledger Unit := do
  let sender ← ensureSigned origin
  ensure (← query (·.errands.contains descriptionCid)) (.module .errandTaskNotExist)
  let senderAccount ← lift ((accountToBytes sender).mapError .module)
  let accounts := [senderAccount]
  ensure (← query fun s => allowToUpdateResult s.updateResultAccounts accounts)
    (.module .noRightToUpdateErrand)
  if (← query (·.developmentMode)) then
    updateErrandResult T descriptionCid result
    depositEvent (.errandUpdated descriptionCid result)
  else
    if (← query (·.completedErrands.contains descriptionCid)) then
      let errandArray ← query (·.completedErrands.get descriptionCid)
      update fun s => { s with completedErrands := s.completedErrands.remove descriptionCid }
      update fun s =>
        { s with
          completedErrands := s.completedErrands.insert descriptionCid (errandArray ++ [sender]) }
    else
      update fun s =>
        { s with completedErrands := s.completedErrands.insert descriptionCid [sender] }
    match ← query (·.errands.find descriptionCid) with
    | some errand => ensure (errand.status = .processing) (.module .errandTaskCompleted)
    | none => pure ()
    if (← query (·.completedErrands.get descriptionCid)).length ≥ minUpdateResultAccount then
      updateErrandResult T descriptionCid result
      depositEvent (.errandUpdated descriptionCid result)

/-- The origin is not looked at, and the call cannot fail. -/
def unreserve (_origin : RawOrigin AccountId) (delegatorName : DelegatorName)
    (client : AccountId) : PalletM AccountId Ledger Unit := do
  update fun s => { s with delegates := s.delegates.remove client }
  update fun s => { s with clientDelegate := s.clientDelegate.remove client }
  let delegator ← query (·.delegateAccounts.get delegatorName)
  update fun s => { s with delegateNetAddress := s.delegateNetAddress.remove delegator }
  update fun s => { s with delegateAccounts := s.delegateAccounts.remove delegatorName }

inductive Call (AccountId : Type) where
  | requestDelegate (delegatorName : DelegatorName) (netAddress : NetAddress)
  | updateDelegateStatus (updater : AccountId)
  | beginTask (delegatorName : DelegatorName) (descriptionCid : Cid) (fee : UInt32)
  | initErrand (client : AccountId) (errandId : ErrandId) (descriptionCid : Cid)
  | updateErrand (descriptionCid : Cid) (result : Bytes)
  | unreserve (delegatorName : DelegatorName) (client : AccountId)
  deriving DecidableEq

/-- A call with its origin and the place it is included at. -/
structure Extrinsic (AccountId : Type) where
  env : Env
  origin : RawOrigin AccountId
  call : Call AccountId

def dispatch (T : Trait AccountId Ledger) (x : Extrinsic AccountId) :
    PalletM AccountId Ledger Unit :=
  match x.call with
  | .requestDelegate name address => requestDelegate x.env x.origin name address
  | .updateDelegateStatus updater => updateDelegateStatus x.origin updater
  | .beginTask name cid fee => beginTask T x.env x.origin name cid fee
  | .initErrand client errandId cid => initErrand x.origin client errandId cid
  | .updateErrand cid result => updateErrand T x.origin cid result
  | .unreserve name client => unreserve x.origin name client

end AbcDemo.Pallet
