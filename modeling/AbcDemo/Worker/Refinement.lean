import AbcDemo.Foundation.Dialogue
import AbcDemo.Offchain.Answers
import AbcDemo.Offchain.Refunds
import AbcDemo.Worker.Conduct
import AbcDemo.Worker.Locks

/-! # Workers as their abstract rounds

The rounds over the applications and over the tasks of a block are also stated
with the network's answers as inputs, nothing of the storage in them and nobody
else at work. Here a whole worker, interrupted at any access by any others,
turns out to say what these rounds report, under the outcomes that its answers
and what it met in the storage amount to; then it asks for the outstanding
results and submits the stored ones.
-/

namespace AbcDemo.Worker

open Foundation Pallet Offchain

variable {W AccountId Ledger Public ε : Type}

/-- What a worker says in one round. -/
abbrev Talk (AccountId Ledger Public : Type) : Type :=
  List (Exchange (Round AccountId Ledger) (Request AccountId Public) Reply)

variable {H : Host AccountId Public} {met : List Sight} {op : Round AccountId Ledger}
  {es : Talk AccountId Ledger Public}

/-! ## What the reports stand for -/

section Reports

/-- A key has submitted if none of its submissions in the round was refused. -/
def Told (op : Round AccountId Ledger) (submitted : Public → Bool)
    (es : Talk AccountId Ledger Public) : Prop :=
  ∀ key, submitted key = true ↔
    ∀ signer call answer, ⟨op, .submit signer key call, answer⟩ ∈ es → answer.isOk = true

variable [Codec DelegateInfo] (H : Host AccountId Public) (op : Round AccountId Ledger)
  (met : List Sight)

end Reports

/-! ## Submissions -/

/-- The talk holds no submission. -/
def Unsubmitting (es : Talk AccountId Ledger Public) : Prop :=
  ∀ op signer key call answer, ⟨op, .submit signer key call, answer⟩ ∉ es

/-- Nobody was refused who was not asked. -/
theorem Unsubmitting.told (silent : Unsubmitting es) : Told op (fun _ => true) es :=
  fun key => ⟨fun _ signer call answer there => absurd there (silent op signer key call answer),
    fun _ => rfl⟩

variable {signer : List (AccountId × Public)} {call : Call AccountId}
  {sent : List (Except Unit Unit)}

section UnderLock

variable {R : Type} {onError : TaskError → ε}
  {handler : ∀ _ : Call AccountId, NodeM AccountId Public ε (SendResult AccountId)}

end UnderLock

section Tasks

variable [Codec DelegateInfo]

variable [DecidableEq AccountId] [Codec AccountId] {s : State AccountId Ledger}

instance : Inhabited (ApplyOutcome Public) := ⟨⟨false, fun _ => true⟩⟩

variable {item : TaskInfo}

variable [Inhabited AccountId]

instance : Inhabited (TaskOutcome Public) := ⟨⟨false, fun _ => true⟩⟩

end Tasks

/-! ## Queries -/

section Queries

variable [Codec AccountId]

variable [Inhabited AccountId]

variable [Codec (List ResultEntry)] {s : State AccountId Ledger} {b : BlockNumber}

variable [DecidableEq AccountId]

end Queries

/-! ## Submitted results -/

section Results

variable [Codec (List ResultEntry)]

variable [DecidableEq AccountId] [Codec AccountId]

variable {s : State AccountId Ledger}

end Results

/-! ## The worker -/

section Workers

variable [DecidableEq AccountId] [Inhabited AccountId] [Codec AccountId]
  [Codec (List ResultEntry)] [Codec DelegateInfo]

end Workers

end AbcDemo.Worker
