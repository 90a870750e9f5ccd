import Mathlib.Data.List.Nodup
import AbcDemo.Foundation.Loops
import AbcDemo.Offchain.ApplyDelegates
import AbcDemo.Pallet.Runtime

/-! # Which answers a worker submits

Every application whose account has a key on the node gets one answer, from that
key, in the order of the list. The round of an application changes nothing that
another round reads, and the loop has no early end.
-/

namespace AbcDemo.Offchain

open Foundation Pallet Dispatch

variable {AccountId Ledger Public : Type}

/-! ## Local keys -/

section Keys

variable [DecidableEq AccountId] {intoAccount : Public → AccountId} {keys : List Public}

/-- An account has at most one key, and it is the filter's only member. -/
theorem signerFilter_getAccounts (distinct : keys.Nodup)
    (injective : Function.Injective intoAccount) {key : Public} (known : key ∈ keys) :
    signerFilter (getAccounts intoAccount keys) (intoAccount key) = [(intoAccount key, key)] := by
  classical
  have sameKey : (fun k => decide (intoAccount k = intoAccount key)) =
      fun k => decide (k = key) := by
    funext k
    simp [injective.eq_iff]
  unfold signerFilter getAccounts
  rw [List.filter_map]
  simp only [Function.comp_def]
  rw [sameKey, List.filter_eq, List.count_eq_one_of_mem distinct known]
  rfl

theorem signerFilter_unknown {account : AccountId}
    (unknown : account ∉ keys.map intoAccount) :
    signerFilter (getAccounts intoAccount keys) account = [] := by
  unfold signerFilter getAccounts
  rw [List.filter_eq_nil_iff]
  intro key hkey same
  obtain ⟨k, hk, rfl⟩ := List.mem_map.mp hkey
  exact unknown (List.mem_map.mpr ⟨k, hk, by simpa using same⟩)

end Keys

/-! ## One round -/

section Rounds

variable [DecidableEq AccountId] [Codec AccountId] (accountIds : List (AccountId × Public))
  (acc : DelegatorName × AccountId) (outcome : ApplyOutcome Public) (s : State AccountId Ledger)

/-- The request of a delegate is made and granted. -/
def requestSucceeds : Bool := (accountToBytes acc.2).isOk && outcome.granted

def answer : Call AccountId :=
  if requestSucceeds acc outcome then .updateDelegateStatus acc.2 else .unreserve acc.1 acc.2

def requestLog : List (ApplyCall AccountId Public) :=
  match accountToBytes acc.2 with
  | .ok account => [.requestDelegate account (s.delegateNetAddress.get acc.2)]
  | .error _ => []

/-- What a round reports. -/
def roundLog : List (ApplyCall AccountId Public) :=
  if (signerFilter accountIds acc.2).isEmpty then []
  else requestLog acc s ++
    (signerFilter accountIds acc.2).map fun key => .submit key.1 key.2 (answer acc outcome)

theorem run_applyDelegate :
    (applyDelegate accountIds acc outcome).run s =
      ⟨.ok (), s, roundLog accountIds acc outcome s⟩ := by
  unfold roundLog requestLog answer requestSucceeds
  cases hk : signerFilter accountIds acc.2 with
  | nil => simp [applyDelegate, hk]
  | cons key keys =>
      cases hb : accountToBytes acc.2 with
      | error e => simp [applyDelegate, applySingleDelegate, hk, hb, Except.isOk, Except.toBool]
      | ok account =>
          cases hg : outcome.granted with
          | false =>
              simp [applyDelegate, applySingleDelegate, hk, hb, hg, Except.isOk, Except.toBool]
          | true =>
              simp [applyDelegate, applySingleDelegate, hk, hb, hg, Except.isOk, Except.toBool]

end Rounds

/-! ## The whole list -/

/-- What is submitted, and by whom. -/
def answers (log : List (ApplyCall AccountId Public)) : List (AccountId × Call AccountId) :=
  log.filterMap fun
    | .submit signer _ call => some (signer, call)
    | .requestDelegate _ _ => none

@[simp] theorem answers_nil : answers ([] : List (ApplyCall AccountId Public)) = [] := rfl

@[simp] theorem answers_submit (signer : AccountId) (key : Public) (call : Call AccountId)
    (log : List (ApplyCall AccountId Public)) :
    answers (.submit signer key call :: log) = (signer, call) :: answers log := rfl

@[simp] theorem answers_append (v w : List (ApplyCall AccountId Public)) :
    answers (v ++ w) = answers v ++ answers w := List.filterMap_append

section Lists

variable [DecidableEq AccountId] [Codec AccountId] {intoAccount : Public → AccountId}
  {keys : List Public}

omit [DecidableEq AccountId] in
@[simp] theorem answers_requestLog (acc : DelegatorName × AccountId) (s : State AccountId Ledger) :
    answers (requestLog acc s : List (ApplyCall AccountId Public)) = [] := by
  unfold requestLog
  split <;> rfl

/-- The round of an application with a local key answers it, and no other does. -/
theorem answers_roundLog (distinct : keys.Nodup) (injective : Function.Injective intoAccount)
    (acc : DelegatorName × AccountId) (outcome : ApplyOutcome Public)
    (s : State AccountId Ledger) :
    answers (roundLog (getAccounts intoAccount keys) acc outcome s) =
      if (keys.map intoAccount).contains acc.2 then [(acc.2, answer acc outcome)] else [] := by
  unfold roundLog
  by_cases known : acc.2 ∈ keys.map intoAccount
  · obtain ⟨key, hkey, hacc⟩ := List.mem_map.mp known
    have only := signerFilter_getAccounts distinct injective hkey
    rw [hacc] at only
    simp [only, known]
  · rw [signerFilter_unknown known]
    simpa using known

/-- Whoever signs does so with a local key of its own. -/
theorem signer_of_roundLog {acc : DelegatorName × AccountId} {outcome : ApplyOutcome Public}
    {s : State AccountId Ledger} {signer : AccountId} {key : Public} {call : Call AccountId}
    (h : .submit signer key call ∈ roundLog (getAccounts intoAccount keys) acc outcome s) :
    key ∈ keys ∧ intoAccount key = signer := by
  unfold roundLog requestLog at h
  split at h
  · cases h
  · rcases List.mem_append.mp h with h | h
    · split at h <;> simp at h
    · obtain ⟨k, hk, hcall⟩ := List.mem_map.mp h
      obtain ⟨rfl, rfl, rfl⟩ := ApplyCall.submit.inj hcall
      have listed := List.mem_of_mem_filter hk
      obtain ⟨own, hown, rfl⟩ := List.mem_map.mp listed
      exact ⟨hown, rfl⟩

/-- The log is that of the rounds, whatever the early exits. -/
theorem applyDelegates_log (intoAccount : Public → AccountId) (keys : List Public)
    (blockNumber : BlockNumber) (outcome : Nat → ApplyOutcome Public)
    (s : State AccountId Ledger) :
    ((applyDelegates intoAccount keys blockNumber outcome).run s).log =
      (s.delegatesApplys.get blockNumber).zipIdx.flatMap fun acc =>
        roundLog (getAccounts intoAccount keys) acc.1 (outcome acc.2) s := by
  cases hb : s.delegatesApplys.find blockNumber with
  | none => simp [applyDelegates, hb]
  | some accounts =>
      cases hk : keys.isEmpty with
      | true =>
          have none : keys = [] := List.isEmpty_iff.mp hk
          subst none
          simp [applyDelegates, hb, roundLog, getAccounts, signerFilter]
      | false =>
          have loop := run_forM_report (s := s)
            (fun acc : (DelegatorName × AccountId) × Nat =>
              run_applyDelegate (getAccounts intoAccount keys) acc.1 (outcome acc.2) s)
            accounts.zipIdx
          simp [applyDelegates, hb, hk, loop]

variable [Inhabited AccountId] (T : Trait AccountId Ledger)

omit [Codec AccountId] [Inhabited AccountId] in
/-- The sender of an activation is always its updater. -/
theorem updateDelegateStatus_own (account : AccountId) (s : State AccountId Ledger) :
    ((updateDelegateStatus (.signed account) account).run s).result ≠
      .error (.module .noRightToUpdateDelegate) := by
  cases hd : s.delegates.find account <;> simp [updateDelegateStatus, hd]

theorem applications_answered (intoAccount : Public → AccountId) (keys : List Public)
    (distinct : keys.Nodup) (injective : Function.Injective intoAccount)
    (blockNumber : BlockNumber) (outcome : Nat → ApplyOutcome Public)
    (s : State AccountId Ledger) :
    let log := ((applyDelegates intoAccount keys blockNumber outcome).run s).log
    (answers log =
      ((s.delegatesApplys.get blockNumber).zipIdx.filter fun acc =>
        (keys.map intoAccount).contains acc.1.2).map fun acc =>
          (acc.1.2, answer acc.1 (outcome acc.2))) ∧
      (∀ signer key call, .submit signer key call ∈ log →
        key ∈ keys ∧ intoAccount key = signer) ∧
      ∀ signer updater, (signer, .updateDelegateStatus updater) ∈ answers log →
        ∀ env s',
          ((dispatch T ⟨env, .signed signer, .updateDelegateStatus updater⟩).run s').result ≠
            .error (.module .noRightToUpdateDelegate) := by
  intro log
  have hlog : log = _ := applyDelegates_log intoAccount keys blockNumber outcome s
  have answered : answers log =
      ((s.delegatesApplys.get blockNumber).zipIdx.filter fun acc =>
        (keys.map intoAccount).contains acc.1.2).map fun acc =>
          (acc.1.2, answer acc.1 (outcome acc.2)) := by
    rw [hlog, answers, List.filterMap_flatMap, ← flatMap_ite_singleton]
    exact List.flatMap_congr fun acc _ =>
      answers_roundLog distinct injective acc.1 (outcome acc.2) s
  refine ⟨answered, ?_, ?_⟩
  · intro signer key call submitted
    rw [hlog] at submitted
    obtain ⟨acc, _, hround⟩ := List.mem_flatMap.mp submitted
    exact signer_of_roundLog hround
  · intro signer updater activated env s'
    rw [answered] at activated
    obtain ⟨acc, _, hcall⟩ := List.mem_map.mp activated
    obtain ⟨rfl, hanswer⟩ := Prod.mk.inj hcall
    have own : updater = acc.1.2 := by
      unfold answer at hanswer
      split at hanswer <;> cases hanswer
      rfl
    rw [own]
    exact updateDelegateStatus_own acc.1.2 s'

end Lists

/-! ## Three applications in one block -/

/-- Alice, Bob and Charlie apply in the first block. -/
def threeApply : List (Extrinsic AccountId32) :=
  [submit 0 alice (.requestDelegate [3] [9]), submit 1 bob (.requestDelegate [1] [9]),
    submit 2 charlie (.requestDelegate [2] [9])]

/-- The node has the keys of Charlie and Bob; Charlie's request fails, and the
first submission too. Alice is left to another node. -/
theorem applications_answered_threeApply :
    let s := (exec (dispatch runtime) localTestnet threeApply).final
    let outcome : Nat → ApplyOutcome AccountId32 := fun i => ⟨i == 1, fun key => key ≠ bob⟩
    let log := ((applyDelegates id [charlie, bob] 1 outcome).run s).log
    answers log = [(bob, .updateDelegateStatus bob), (charlie, .unreserve [2] charlie)] ∧
      answers log =
        ((s.delegatesApplys.get 1).zipIdx.filter fun acc =>
          ([charlie, bob].map id).contains acc.1.2).map fun acc =>
            (acc.1.2, answer acc.1 (outcome acc.2)) := by
  intro s outcome log
  exact ⟨by decide +kernel, (applications_answered runtime id [charlie, bob] (by decide)
    Function.injective_id 1 outcome s).1⟩

end AbcDemo.Offchain
