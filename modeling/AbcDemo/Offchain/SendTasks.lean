import AbcDemo.Pallet.Calls

/-! # Sending the tasks of a block

After a block is imported, a worker sends each task of the block to its
delegate and submits `init_errand` for it. The worker reads the state of the
chain at that block and writes to a copy that is dropped afterwards. What the
network answers is an input: for every position of the task list, whether the
send succeeds and which submissions do. An early `return` is a stop of the
whole loop.
-/

namespace AbcDemo.Offchain

open Foundation Pallet Dispatch

/-- What a worker does towards the network and the currency. -/
inductive WorkerCall (AccountId Public : Type) where
  | sendTask (account : AccountId32) (descriptionCid : Cid) (errandId : ErrandId)
      (netAddress : NetAddress)
  | submit (signer : AccountId) (key : Public) (call : Call AccountId)
  | unreserve (who : AccountId) (value : Nat)
  deriving DecidableEq

/-- What the network answers for one task. Every key has a result: that none is left out,
because its transaction could not be created, is assumed. -/
structure TaskOutcome (Public : Type) where
  sent : Bool
  submitted : Public → Bool

abbrev TaskM (AccountId Ledger Public : Type) : Type → Type :=
  Dispatch (State AccountId Ledger) (WorkerCall AccountId Public) Unit

variable {AccountId Ledger Public : Type}

/-- `T::Currency::unreserve(..)`. What could not be moved is not looked at. -/
def unreserveFee (T : Trait AccountId Ledger) (who : AccountId) (value : Nat) :
    TaskM AccountId Ledger Public Unit := fun s =>
  ⟨.ok (), { s with balances := (T.currency.unreserve who value s.balances).2 },
    [.unreserve who value]⟩

@[simp] theorem run_unreserveFee (T : Trait AccountId Ledger) (who : AccountId) (value : Nat)
    (s : State AccountId Ledger) :
    (unreserveFee T who value : TaskM AccountId Ledger Public Unit).run s =
      ⟨.ok (), { s with balances := (T.currency.unreserve who value s.balances).2 },
        [.unreserve who value]⟩ := rfl

/-- Every key of the signer sends the transaction; one failure is a failure. -/
def initSingleErrandTask (signer : List (AccountId × Public)) (client : AccountId)
    (descriptionCid : Cid) (errandId : ErrandId) (submitted : Public → Bool) :
    TaskM AccountId Ledger Public Bool := do
  forM signer fun key => emit (.submit key.1 key.2 (.initErrand client errandId descriptionCid))
  pure (signer.all fun key => submitted key.2)

@[simp] theorem run_initSingleErrandTask (signer : List (AccountId × Public)) (client : AccountId)
    (descriptionCid : Cid) (errandId : ErrandId) (submitted : Public → Bool)
    (s : State AccountId Ledger) :
    (initSingleErrandTask signer client descriptionCid errandId submitted :
        TaskM AccountId Ledger Public Bool).run s =
      ⟨.ok (signer.all fun key => submitted key.2), s,
        signer.map fun key =>
          .submit key.1 key.2 (.initErrand client errandId descriptionCid)⟩ := by
  simp [initSingleErrandTask]

variable [DecidableEq AccountId] [Inhabited AccountId] [Codec AccountId]

/-- Submit `init_errand`, and give the fee back to the client if that fails. -/
def submitTask (T : Trait AccountId Ledger) (signerFilter : List (AccountId × Public))
    (fee : UInt32) (item : TaskInfo) (outcome : TaskOutcome Public) :
    TaskM AccountId Ledger Public Unit :=
  match (Codec.decode item.client : Option AccountId) with
  | some client => do
      let submitted ← initSingleErrandTask signerFilter client item.descriptionCid item.errandId
        outcome.submitted
      if ¬ submitted then unreserveFee T client fee.toNat else pure ()
  | none => pure ()

omit [DecidableEq AccountId] [Inhabited AccountId] in
theorem run_submitTask (T : Trait AccountId Ledger) (signerFilter : List (AccountId × Public))
    (fee : UInt32) {item : TaskInfo} (outcome : TaskOutcome Public) {client : AccountId}
    (decodes : Codec.decode item.client = some client) (s : State AccountId Ledger) :
    (submitTask T signerFilter fee item outcome).run s =
      if signerFilter.all fun key => outcome.submitted key.2 then
        ⟨.ok (), s, signerFilter.map fun key =>
          .submit key.1 key.2 (.initErrand client item.errandId item.descriptionCid)⟩
      else
        ⟨.ok (), { s with balances := (T.currency.unreserve client fee.toNat s.balances).2 },
          (signerFilter.map fun key =>
            .submit key.1 key.2 (.initErrand client item.errandId item.descriptionCid)) ++
              [.unreserve client fee.toNat]⟩ := by
  by_cases ok : signerFilter.all fun key => outcome.submitted key.2
  · rw [if_pos ok]
    simp [submitTask, decodes, ok]
  · rw [if_neg ok]
    simp [submitTask, decodes, ok]

/-- Send the task and submit it, and give the fee to the delegate if the send
fails. A delegate that is not 32 bytes long is not sent anything. -/
def sendAndSubmit (T : Trait AccountId Ledger) (delegator : AccountId)
    (signerFilter : List (AccountId × Public)) (fee : UInt32) (item : TaskInfo)
    (outcome : TaskOutcome Public) : TaskM AccountId Ledger Public Unit :=
  match accountToBytes delegator with
  | .ok account => do
      let netAddress ← query (·.delegateNetAddress.get delegator)
      emit (.sendTask account item.descriptionCid item.errandId netAddress)
      if ¬ outcome.sent then unreserveFee T delegator fee.toNat
      else submitTask T signerFilter fee item outcome
  | .error _ => submitTask T signerFilter fee item outcome

/-- The local keys of an account. -/
def signerFilter (accountIds : List (AccountId × Public)) (delegator : AccountId) :
    List (AccountId × Public) :=
  accountIds.filter fun key => key.1 = delegator

/-- One round of the loop. -/
def sendErrandTask (T : Trait AccountId Ledger) (accountIds : List (AccountId × Public))
    (item : TaskInfo) (outcome : TaskOutcome Public) : TaskM AccountId Ledger Public Unit := do
  ensure (← query (·.delegateAccounts.contains item.delegator)) ()
  match (Codec.decode item.client : Option AccountId) with
  | some client =>
      let delegator ← query (·.delegateAccounts.get item.delegator)
      let fee ← query (·.clientTaskFee.get client)
      if (signerFilter accountIds delegator).length = 0 then pure ()
      else sendAndSubmit T delegator (signerFilter accountIds delegator) fee item outcome
  | none => pure ()

/-- The local keys come with their accounts, as `get_accounts` lists them. -/
def sendErrandTasks (T : Trait AccountId Ledger) (blockNumber : BlockNumber)
    (accountIds : List (AccountId × Public)) (outcome : Nat → TaskOutcome Public) :
    TaskM AccountId Ledger Public Unit := do
  ensure (← query (·.tasks.contains blockNumber)) ()
  ensure (¬ accountIds.isEmpty) ()
  let taskArray ← query (·.tasks.get blockNumber)
  forM taskArray.zipIdx fun item => sendErrandTask T accountIds item.1 (outcome item.2)

end AbcDemo.Offchain
