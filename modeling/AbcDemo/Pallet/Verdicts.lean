import AbcDemo.Pallet.Steps

/-! # What a submission reads and writes

An `update_errand` call decides its verdict from the entries under its key, and
writes only there and, when it completes the errand, a payment between two
slots of the errand's client. What it does to the storage is separated here
from what it does to the ledger.
-/

namespace AbcDemo.Pallet

open Foundation Dispatch

variable {AccountId Ledger : Type}

/-- The state without its ledger. -/
@[simps] def State.storage (s : State AccountId Ledger) : State AccountId Unit :=
  { s with balances := () }

namespace Verdict

variable (v : Verdict AccountId)

def completes : Bool :=
  match v with
  | .finish => true
  | .elect _ => true
  | _ => false

def voter : Option AccountId :=
  match v with
  | .late sender => some sender
  | .count sender => some sender
  | .elect sender => some sender
  | _ => none

def answer : Except DispatchError Unit :=
  match v with
  | .refused e => .error e
  | .late _ => .error (.module .errandTaskCompleted)
  | _ => .ok ()

/-- The entries a submission writes. -/
@[simps] def book (cid : Cid) (result : Bytes) (s : State AccountId Ledger) :
    State AccountId Ledger :=
  { s with
    errands :=
      if v.completes then s.errands.alter cid fun e => { e with status := .done, result := result }
      else s.errands
    processingErrands :=
      if v.completes then s.processingErrands.filter fun item => item ≠ cid
      else s.processingErrands
    completedErrands :=
      match v.voter with
      | some sender => s.completedErrands.insert cid (s.completedErrands.get cid ++ [sender])
      | none => s.completedErrands }

/-- Entries under another key are not written. -/
theorem find_errands_book {cid cid' : Cid} (hne : cid' ≠ cid) (result : Bytes)
    (s : State AccountId Ledger) :
    (v.book cid result s).errands.find cid' = s.errands.find cid' := by
  rw [book_errands]
  split
  · simp [hne]
  · rfl

theorem find_completedErrands_book {cid cid' : Cid} (hne : cid' ≠ cid) (result : Bytes)
    (s : State AccountId Ledger) :
    (v.book cid result s).completedErrands.find cid' = s.completedErrands.find cid' := by
  rw [book_completedErrands]
  split
  · simp [hne]
  · rfl

/-- Bookings under different keys can be exchanged. -/
theorem book_comm {cid cid' : Cid} (hne : cid ≠ cid') (v' : Verdict AccountId)
    (result result' : Bytes) (s : State AccountId Ledger) :
    v'.book cid' result' (v.book cid result s) = v.book cid result (v'.book cid' result' s) := by
  have errands : (v'.book cid' result' (v.book cid result s)).errands =
      (v.book cid result (v'.book cid' result' s)).errands := by
    cases hv : v.completes <;> cases hv' : v'.completes <;>
      simp [hv, hv', StorageMap.alter_comm _ hne]
  have processing : (v'.book cid' result' (v.book cid result s)).processingErrands =
      (v.book cid result (v'.book cid' result' s)).processingErrands := by
    cases hv : v.completes <;> cases hv' : v'.completes <;>
      simp [hv, hv', Bool.and_comm]
  have completed : (v'.book cid' result' (v.book cid result s)).completedErrands =
      (v.book cid result (v'.book cid' result' s)).completedErrands := by
    cases hv : v.voter <;> cases hv' : v'.voter <;>
      simp [hv, hv', hne, hne.symm, StorageMap.insert_comm _ hne]
  cases s
  simp only [book, State.mk.injEq, true_and, and_true] at errands processing completed ⊢
  exact ⟨errands, completed, processing⟩

variable [Codec AccountId]

/-- The verdict of a submission is decided under its own key. -/
theorem verdict_book {cid cid' : Cid} (hne : cid' ≠ cid) (result : Bytes)
    (s : State AccountId Ledger) (origin : RawOrigin AccountId) :
    verdict (v.book cid result s) cid' origin = verdict s cid' origin := by
  cases origin with
  | root => rfl
  | none => rfl
  | signed sender =>
      simp only [verdict, find_errands_book v hne, StorageMap.get_eq,
        find_completedErrands_book v hne]
      rfl

variable [Inhabited AccountId]

/-- So is the payment that its completion asks for. -/
theorem settlement_book {cid cid' : Cid} (hne : cid' ≠ cid) (result : Bytes)
    (s : State AccountId Ledger) : (v.book cid result s).settlement cid' = s.settlement cid' := by
  simp only [State.settlement, find_errands_book v hne, book_clientDelegate, book_clientTaskFee]

/-- The ledger after a payment is attempted. -/
def pay (T : Trait AccountId Ledger) (L : Ledger) : Option (AccountId × AccountId × Nat) → Ledger
  | some (client, delegator, fee) => T.currency.afterRepatriate client delegator fee L
  | none => L

variable (T : Trait AccountId Ledger) (s : State AccountId Ledger) (cid : Cid) (result : Bytes)

theorem carryOut_result : (v.carryOut T s cid result).result = v.answer := by
  cases v <;> rfl

theorem carryOut_storage :
    (v.carryOut T s cid result).after.storage = v.book cid result s.storage := by
  cases v <;> rfl

theorem carryOut_balances :
    (v.carryOut T s cid result).after.balances =
      if v.completes then pay T s.balances (s.storage.settlement cid) else s.balances := by
  cases v <;> rfl

end Verdict

end AbcDemo.Pallet
