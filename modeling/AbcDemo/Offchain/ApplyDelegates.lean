import AbcDemo.Offchain.SendTasks

/-! # Answering the applications of a block

After a block is imported, a worker makes the request of every delegate that
applied in the block and has a key on this node, and answers with one
transaction: the activation of the delegate, or the release of its application
when the request has failed. What the network answers is an input for every
position of the list.
-/

namespace AbcDemo.Offchain

open Foundation Pallet Dispatch

/-- What a worker does towards the network. -/
inductive ApplyCall (AccountId Public : Type) where
  | requestDelegate (account : AccountId32) (netAddress : NetAddress)
  | submit (signer : AccountId) (key : Public) (call : Call AccountId)
  deriving DecidableEq

/-- What the network answers for one application. `granted` is the whole of
`request_single_delegate`, from the address of the delegate to its stored info;
every key has a result. -/
structure ApplyOutcome (Public : Type) where
  granted : Bool
  submitted : Public → Bool

abbrev ApplyM (AccountId Ledger Public : Type) : Type → Type :=
  Dispatch (State AccountId Ledger) (ApplyCall AccountId Public) Unit

variable {AccountId Ledger Public : Type}

/-- The local keys with their accounts, in the order of the keystore. -/
def getAccounts (intoAccount : Public → AccountId) (keys : List Public) :
    List (AccountId × Public) :=
  keys.map fun key => (intoAccount key, key)

/-- Every key of the signer signs once. -/
def sendSignedTransaction (signer : List (AccountId × Public)) (call : Call AccountId)
    (submitted : Public → Bool) : ApplyM AccountId Ledger Public (List (AccountId × Bool)) := do
  forM signer fun key => emit (.submit key.1 key.2 call)
  pure (signer.map fun key => (key.1, submitted key.2))

@[simp] theorem run_sendSignedTransaction (signer : List (AccountId × Public))
    (call : Call AccountId) (submitted : Public → Bool) (s : State AccountId Ledger) :
    (sendSignedTransaction signer call submitted :
        ApplyM AccountId Ledger Public (List (AccountId × Bool))).run s =
      ⟨.ok (signer.map fun key => (key.1, submitted key.2)), s,
        signer.map fun key => .submit key.1 key.2 call⟩ := by
  simp [sendSignedTransaction]

variable [DecidableEq AccountId] [Codec AccountId]

def applySingleDelegate (delegator : AccountId) (granted : Bool) :
    ApplyM AccountId Ledger Public (Except Error Unit) := do
  let netAddress ← query (·.delegateNetAddress.get delegator)
  match accountToBytes delegator with
  | .ok account => do
      emit (.requestDelegate account netAddress)
      if ¬ granted then pure (.error .applyDelegateError) else pure (.ok ())
  | .error e => pure (.error e)

/-- One round of the loop. What the submissions came to is only reported. -/
def applyDelegate (accountIds : List (AccountId × Public)) (acc : DelegatorName × AccountId)
    (outcome : ApplyOutcome Public) : ApplyM AccountId Ledger Public Unit := do
  if (signerFilter accountIds acc.2).length = 0 then pure ()
  else
    match ← applySingleDelegate acc.2 outcome.granted with
    | .error _ =>
        let _ ← sendSignedTransaction (signerFilter accountIds acc.2) (.unreserve acc.1 acc.2)
          outcome.submitted
        pure ()
    | .ok () =>
        let _result ← sendSignedTransaction (signerFilter accountIds acc.2)
          (.updateDelegateStatus acc.2) outcome.submitted
        pure ()

def applyDelegates (intoAccount : Public → AccountId) (keys : List Public)
    (blockNumber : BlockNumber) (outcome : Nat → ApplyOutcome Public) :
    ApplyM AccountId Ledger Public Unit := do
  ensure (← query (·.delegatesApplys.contains blockNumber)) ()
  ensure (¬ keys.isEmpty) ()
  let accounts ← query (·.delegatesApplys.get blockNumber)
  forM accounts.zipIdx fun acc =>
    applyDelegate (getAccounts intoAccount keys) acc.1 (outcome acc.2)

end AbcDemo.Offchain
