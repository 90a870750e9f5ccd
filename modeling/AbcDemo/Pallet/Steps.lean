import Mathlib.Tactic.Simps.Basic
import AbcDemo.Pallet.Calls

/-! # Everything one call can do

`Effect` lists the ways a call can end, with the checks it has then passed and
the exact state it leaves. Every dispatch has one of these effects, so later
proofs are case analyses over `Effect` and never unfold a dispatchable. Two of
the failing ways write: a late vote and a lost task list.
-/

namespace AbcDemo.Pallet

open Foundation Dispatch

variable {AccountId Ledger : Type} [DecidableEq AccountId] [Inhabited AccountId]
  [Codec AccountId]

/-! ## The states calls leave -/

namespace State

variable (s : State AccountId Ledger)

@[simps] def requested (env : Env) (sender : AccountId) (name : DelegatorName)
    (address : NetAddress) : State AccountId Ledger :=
  { s with
    delegatesApplys :=
      s.delegatesApplys.insert env.blockNumber
        (s.delegatesApplys.get env.blockNumber ++ [(name, sender)])
    delegates := s.delegates.insert sender false
    delegateNetAddress := s.delegateNetAddress.insert sender address
    delegateAccounts := s.delegateAccounts.insert name sender }

@[simps] def activated (sender : AccountId) : State AccountId Ledger :=
  { s with delegates := s.delegates.insert sender true }

@[simps] def begun (T : Trait AccountId Ledger) (env : Env) (client delegator : AccountId)
    (name : DelegatorName) (cid : Cid) (fee : UInt32) (balances : Ledger) :
    State AccountId Ledger :=
  { s with
    clientTaskFee := s.clientTaskFee.insert client fee
    tasks :=
      s.tasks.insert env.blockNumber
        (s.tasks.get env.blockNumber ++
          [⟨Codec.encode client, name, cid, generateErrandId T env delegator, fee⟩])
    clientDelegate := s.clientDelegate.insert client delegator
    balances := balances }

/-- What is left when `beginTask` fails after it has taken the block's list. -/
@[simps] def taskListTaken (env : Env) : State AccountId Ledger :=
  { s with tasks := s.tasks.remove env.blockNumber }

@[simps] def inited (client : AccountId) (errandId : ErrandId) (cid : Cid) :
    State AccountId Ledger :=
  { s with
    errands := s.errands.insert cid ⟨Codec.encode client, errandId, cid, .processing, []⟩
    processingErrands := s.processingErrands ++ [cid] }

@[simps] def voted (cid : Cid) (sender : AccountId) : State AccountId Ledger :=
  { s with
    completedErrands :=
      s.completedErrands.insert cid (s.completedErrands.get cid ++ [sender]) }

/-- The payment an errand's completion asks for: the client it was opened for,
and that client's present delegate and fee slots. -/
def settlement (cid : Cid) : Option (AccountId × AccountId × Nat) := do
  let errand ← s.errands.find cid
  let client ← Codec.decode errand.accountId
  pure (client, s.clientDelegate.get client, (s.clientTaskFee.get client).toNat)

/-- The balances after the payment, or as they were when it fails. -/
def paid (T : Trait AccountId Ledger) (cid : Cid) : Ledger :=
  match s.settlement cid with
  | some (client, delegator, fee) =>
      T.currency.afterRepatriate client delegator fee s.balances
  | none => s.balances

/-- The call made to the currency, with what it answered. -/
def paymentLog (T : Trait AccountId Ledger) (cid : Cid) : List (Observation AccountId) :=
  match s.settlement cid with
  | some (client, delegator, fee) =>
      [.repatriated client delegator fee
        ((T.currency.repatriateReserved client delegator fee .free s.balances).map Prod.fst)]
  | none => []

@[simps] def finished (T : Trait AccountId Ledger) (cid : Cid) (result : Bytes) :
    State AccountId Ledger :=
  { s with
    errands := s.errands.alter cid fun e => { e with status := .done, result := result }
    processingErrands := s.processingErrands.filter fun item => item ≠ cid
    balances := s.paid T cid }

@[simps] def released (name : DelegatorName) (client : AccountId) : State AccountId Ledger :=
  { s with
    delegates := s.delegates.remove client
    clientDelegate := s.clientDelegate.remove client
    delegateNetAddress := s.delegateNetAddress.remove (s.delegateAccounts.get name)
    delegateAccounts := s.delegateAccounts.remove name }

end State

/-- The account may submit results: its 32 bytes are listed. -/
def MayUpdateResult (s : State AccountId Ledger) (account : AccountId) : Prop :=
  ∃ bytes, accountToBytes account = .ok bytes ∧ bytes ∈ s.updateResultAccounts

theorem allowToUpdateResult_singleton (listed : List AccountId32) (bytes : AccountId32) :
    allowToUpdateResult listed [bytes] = true ↔ bytes ∈ listed := by
  simp [allowToUpdateResult]

/-! ## The effects -/

/-- The checks a call makes before its first write, as a condition on the state
it finds. -/
def Admitted (T : Trait AccountId Ledger) (env : Env) (s : State AccountId Ledger) :
    RawOrigin AccountId → Call AccountId → Prop
  | .signed sender, .requestDelegate _ _ => s.delegates.find sender = none
  | .signed sender, .updateDelegateStatus updater =>
      sender = updater ∧ (s.delegates.find sender).isSome
  | .signed client, .beginTask name cid fee =>
      ∃ delegator, s.delegateAccounts.find name = some delegator ∧
        s.delegates.find delegator = some true ∧ s.errands.find cid = none ∧
        ((s.tasks.find env.blockNumber).isSome ∨
          (0 < fee ∧ ∃ balances, T.currency.reserve client fee.toNat s.balances = .ok balances))
  | .signed sender, .initErrand client _ _ => s.clientDelegate.find client = some sender
  | .signed sender, .updateErrand cid _ => (s.errands.find cid).isSome ∧ MayUpdateResult s sender
  | _, .unreserve _ _ => True
  | _, _ => False

omit [DecidableEq AccountId] [Inhabited AccountId] in
@[simp] theorem admitted_unreserve (T : Trait AccountId Ledger) (env : Env)
    (s : State AccountId Ledger) (origin : RawOrigin AccountId) (name : DelegatorName)
    (client : AccountId) : Admitted T env s origin (.unreserve name client) := by
  cases origin <;> trivial

/-- No payment out of a reserve was asked for. -/
def Unpaid (log : List (Observation AccountId)) : Prop :=
  ∀ slashed beneficiary value result, .repatriated slashed beneficiary value result ∉ log

omit [DecidableEq AccountId] [Inhabited AccountId] [Codec AccountId] in
theorem Unpaid.nil : Unpaid ([] : List (Observation AccountId)) := by
  simp [Unpaid]

omit [DecidableEq AccountId] [Inhabited AccountId] [Codec AccountId] in
theorem Unpaid.reserved (who : AccountId) (value : Nat) (result : Except DispatchError Unit) :
    Unpaid [.reserved who value result] := by
  simp [Unpaid]

abbrev CallOutcome (AccountId Ledger : Type) :=
  Outcome (State AccountId Ledger) (Observation AccountId) DispatchError Unit

inductive Effect (T : Trait AccountId Ledger) (env : Env) (s : State AccountId Ledger) :
    RawOrigin AccountId → Call AccountId → CallOutcome AccountId Ledger → Prop where
  | requested {sender name address} (fresh : s.delegates.find sender = none) :
      Effect T env s (.signed sender) (.requestDelegate name address)
        ⟨.ok (), s.requested env sender name address,
          [.deposited (.delegateRequested sender name)]⟩
  | activated {sender active} (known : s.delegates.find sender = some active) :
      Effect T env s (.signed sender) (.updateDelegateStatus sender)
        ⟨.ok (), s.activated sender, [.deposited (.delegateUpdated sender)]⟩
  | begun {client delegator name cid fee balances}
      (named : s.delegateAccounts.find name = some delegator)
      (active : s.delegates.find delegator = some true)
      (fresh : s.errands.find cid = none)
      (unlisted : ∀ task ∈ s.tasks.get env.blockNumber, task.descriptionCid ≠ cid)
      (positive : 0 < fee)
      (funded : T.currency.reserve client fee.toNat s.balances = .ok balances) :
      Effect T env s (.signed client) (.beginTask name cid fee)
        ⟨.ok (), s.begun T env client delegator name cid fee balances,
          [.reserved client fee.toNat (.ok ()), .deposited (.taskBegan client cid delegator)]⟩
  | taskListTaken {client delegator name cid fee e log}
      (named : s.delegateAccounts.find name = some delegator)
      (active : s.delegates.find delegator = some true)
      (fresh : s.errands.find cid = none)
      (listed : (s.tasks.find env.blockNumber).isSome) (unpaid : Unpaid log) :
      Effect T env s (.signed client) (.beginTask name cid fee)
        ⟨.error e, s.taskListTaken env, log⟩
  | inited {sender client errandId cid}
      (authority : s.clientDelegate.find client = some sender) :
      Effect T env s (.signed sender) (.initErrand client errandId cid)
        ⟨.ok (), s.inited client errandId cid, [.deposited (.errandInited client cid)]⟩
  | finished {sender cid result errand}
      (present : s.errands.find cid = some errand) (allowed : MayUpdateResult s sender)
      (mode : s.developmentMode = true) :
      Effect T env s (.signed sender) (.updateErrand cid result)
        ⟨.ok (), s.finished T cid result,
          s.paymentLog T cid ++ [.deposited (.errandUpdated cid result)]⟩
  | voted {sender cid result errand}
      (present : s.errands.find cid = some errand) (allowed : MayUpdateResult s sender)
      (mode : s.developmentMode = false) (pending : errand.status = .processing)
      (few : (s.completedErrands.get cid).length + 1 < minUpdateResultAccount) :
      Effect T env s (.signed sender) (.updateErrand cid result) ⟨.ok (), s.voted cid sender, []⟩
  | elected {sender cid result errand}
      (present : s.errands.find cid = some errand) (allowed : MayUpdateResult s sender)
      (mode : s.developmentMode = false) (pending : errand.status = .processing)
      (enough : minUpdateResultAccount ≤ (s.completedErrands.get cid).length + 1) :
      Effect T env s (.signed sender) (.updateErrand cid result)
        ⟨.ok (), (s.voted cid sender).finished T cid result,
          s.paymentLog T cid ++ [.deposited (.errandUpdated cid result)]⟩
  | votedLate {sender cid result errand}
      (present : s.errands.find cid = some errand) (allowed : MayUpdateResult s sender)
      (mode : s.developmentMode = false) (completed : errand.status = .done) :
      Effect T env s (.signed sender) (.updateErrand cid result)
        ⟨.error (.module .errandTaskCompleted), s.voted cid sender, []⟩
  | released {origin name client} :
      Effect T env s origin (.unreserve name client) ⟨.ok (), s.released name client, []⟩
  | rejected {origin call e log} (refused : ¬ Admitted T env s origin call)
      (unpaid : Unpaid log) :
      Effect T env s origin call ⟨.error e, s, log⟩

/-! ## Every call has one of them -/

variable (T : Trait AccountId Ledger) (env : Env) (s : State AccountId Ledger)

theorem requestDelegate_effect (origin : RawOrigin AccountId) (name : DelegatorName)
    (address : NetAddress) :
    Effect T env s origin (.requestDelegate name address)
      ((requestDelegate env origin name address).run s) := by
  cases origin with
  | root => simpa [requestDelegate] using .rejected (by simp [Admitted]) .nil
  | none => simpa [requestDelegate] using .rejected (by simp [Admitted]) .nil
  | signed sender =>
      cases hd : s.delegates.find sender with
      | some active => simpa [requestDelegate, hd] using .rejected (by simp [Admitted, hd]) .nil
      | none =>
          have h : Effect T env s (.signed sender) (.requestDelegate name address) _ :=
            .requested hd
          cases hq : s.delegatesApplys.find env.blockNumber <;>
            simpa [requestDelegate, State.requested, hd, hq] using h

theorem updateDelegateStatus_effect (origin : RawOrigin AccountId) (updater : AccountId) :
    Effect T env s origin (.updateDelegateStatus updater)
      ((updateDelegateStatus origin updater).run s) := by
  cases origin with
  | root => simpa [updateDelegateStatus] using .rejected (by simp [Admitted]) .nil
  | none => simpa [updateDelegateStatus] using .rejected (by simp [Admitted]) .nil
  | signed sender =>
      by_cases hu : sender = updater
      · subst hu
        cases hd : s.delegates.find sender with
        | none => simpa [updateDelegateStatus, hd] using .rejected (by simp [Admitted, hd]) .nil
        | some active =>
            have h : Effect T env s (.signed sender) (.updateDelegateStatus sender) _ :=
              .activated hd
            simpa [updateDelegateStatus, State.activated, hd] using h
      · simpa [updateDelegateStatus, hu] using .rejected (by simp [Admitted, hu]) .nil

theorem initErrand_effect (origin : RawOrigin AccountId) (client : AccountId)
    (errandId : ErrandId) (cid : Cid) :
    Effect T env s origin (.initErrand client errandId cid)
      ((initErrand origin client errandId cid).run s) := by
  cases origin with
  | root => simpa [initErrand] using .rejected (by simp [Admitted]) .nil
  | none => simpa [initErrand] using .rejected (by simp [Admitted]) .nil
  | signed sender =>
      cases hc : s.clientDelegate.find client with
      | none => simpa [initErrand, hc] using .rejected (by simp [Admitted, hc]) .nil
      | some delegator =>
          by_cases hs : sender = delegator
          · subst hs
            have h : Effect T env s (.signed sender) (.initErrand client errandId cid) _ :=
              .inited hc
            simpa [initErrand, addProcessing, State.inited, hc] using h
          · simpa [initErrand, hc, hs] using .rejected (by simp [Admitted, hc, Ne.symm hs]) .nil

theorem unreserve_effect (origin : RawOrigin AccountId) (name : DelegatorName)
    (client : AccountId) :
    Effect T env s origin (.unreserve name client) ((unreserve origin name client).run s) := by
  have h : Effect T env s origin (.unreserve name client) _ := .released
  simpa [unreserve, State.released] using h

/-- Past the checks that read only, with a list of tasks in the block: the list
is out of storage when the later checks are made. -/
theorem beginTask_run_of_listed (client : AccountId) {delegator : AccountId} {name : DelegatorName}
    (cid : Cid) (fee : UInt32) {taskArray : List TaskInfo}
    (hn : s.delegateAccounts.find name = some delegator)
    (hd : s.delegates.find delegator = some true) (he : s.errands.find cid = none)
    (ht : s.tasks.find env.blockNumber = some taskArray) :
    (beginTask T env (.signed client) name cid fee).run s =
      if ∀ task ∈ taskArray, ¬ task.descriptionCid = cid then
        if 0 < fee then
          match T.currency.reserve client fee.toNat s.balances with
          | .ok balances =>
              ⟨.ok (), s.begun T env client delegator name cid fee balances,
                [.reserved client fee.toNat (.ok ()), .deposited (.taskBegan client cid delegator)]⟩
          | .error e => ⟨.error e, s.taskListTaken env, [.reserved client fee.toNat (.error e)]⟩
        else ⟨.error (.module .insufficientFee), s.taskListTaken env, []⟩
      else ⟨.error (.module .errandAlreadyExecuted), s.taskListTaken env, []⟩ := by
  by_cases hu : ∀ task ∈ taskArray, ¬ task.descriptionCid = cid
  · by_cases hf : 0 < fee
    · cases hr : T.currency.reserve client fee.toNat s.balances with
      | error e => simp [beginTask, State.taskListTaken, hn, hd, he, ht, hf, hr, if_pos hu]
      | ok balances => simp [beginTask, State.begun, hn, hd, he, ht, hf, hr, if_pos hu]
    · simp [beginTask, State.taskListTaken, hn, hd, he, ht, hf, if_pos hu]
  · simp [beginTask, State.taskListTaken, hn, hd, he, ht, hu]

/-- Past the checks that read only, the two branches differ in the list they
have taken out of storage when a later check fails. -/
theorem beginTask_admitted (client : AccountId) {delegator : AccountId} {name : DelegatorName}
    (cid : Cid) (fee : UInt32) (hn : s.delegateAccounts.find name = some delegator)
    (hd : s.delegates.find delegator = some true) (he : s.errands.find cid = none) :
    Effect T env s (.signed client) (.beginTask name cid fee)
      ((beginTask T env (.signed client) name cid fee).run s) := by
  cases ht : s.tasks.find env.blockNumber with
  | none =>
      by_cases hf : 0 < fee
      · cases hr : T.currency.reserve client fee.toNat s.balances with
        | error e =>
            simpa [beginTask, hn, hd, he, ht, hf, hr] using
              .rejected (by simp [Admitted, hn, he, ht, hr]) (.reserved _ _ _)
        | ok balances =>
            have h : Effect T env s (.signed client) (.beginTask name cid fee) _ :=
              .begun hn hd he (by simp [ht]) hf hr
            simpa [beginTask, State.begun, hn, hd, he, ht, hf, hr] using h
      · simpa [beginTask, hn, hd, he, ht, hf] using
          .rejected (by simp [Admitted, hn, he, ht, hf]) .nil
  | some taskArray =>
      rw [beginTask_run_of_listed T env s client cid fee hn hd he ht]
      have listed : (s.tasks.find env.blockNumber).isSome := by simp [ht]
      by_cases hu : ∀ task ∈ taskArray, ¬ task.descriptionCid = cid
      · rw [if_pos hu]
        by_cases hf : 0 < fee
        · rw [if_pos hf]
          cases hr : T.currency.reserve client fee.toNat s.balances with
          | error e => exact .taskListTaken hn hd he listed (.reserved _ _ _)
          | ok balances =>
              exact .begun hn hd he (by simpa [ht] using hu) hf hr
        · rw [if_neg hf]
          exact .taskListTaken hn hd he listed .nil
      · rw [if_neg hu]
        exact .taskListTaken hn hd he listed .nil

theorem beginTask_effect (origin : RawOrigin AccountId) (name : DelegatorName) (cid : Cid)
    (fee : UInt32) :
    Effect T env s origin (.beginTask name cid fee)
      ((beginTask T env origin name cid fee).run s) := by
  cases origin with
  | root => simpa [beginTask] using .rejected (by simp [Admitted]) .nil
  | none => simpa [beginTask] using .rejected (by simp [Admitted]) .nil
  | signed client =>
      cases hn : s.delegateAccounts.find name with
      | none => simpa [beginTask, hn] using .rejected (by simp [Admitted, hn]) .nil
      | some delegator =>
          cases hd : s.delegates.find delegator with
          | none => simpa [beginTask, hn, hd] using .rejected (by simp [Admitted, hn, hd]) .nil
          | some active =>
              cases active with
              | false => simpa [beginTask, hn, hd] using .rejected (by simp [Admitted, hn, hd]) .nil
              | true =>
                  cases he : s.errands.find cid with
                  | some errand =>
                      simpa [beginTask, hn, hd, he] using .rejected (by simp [Admitted, he]) .nil
                  | none =>
                      exact beginTask_admitted T env s client cid fee hn hd he

omit [DecidableEq AccountId] in
/-- The helper never fails: a payment that fails leaves the balances alone. -/
theorem updateErrandResult_run (cid : Cid) (result : Bytes) :
    (updateErrandResult T cid result).run s =
      ⟨.ok (), s.finished T cid result, s.paymentLog T cid⟩ := by
  simp only [updateErrandResult, removeProcessing, State.finished, State.paid, State.paymentLog,
    State.settlement]
  cases he : s.errands.find cid with
  | none => simp [he]
  | some errand =>
      cases hc : (Codec.decode errand.accountId : Option AccountId) with
      | none => simp [he, bytesToAccount, hc]
      | some client =>
          cases hp : T.currency.repatriateReserved client (s.clientDelegate.get client)
              (s.clientTaskFee.get client).toNat .free s.balances with
          | error e =>
              simp only [StorageMap.get_eq] at hp
              simp [he, bytesToAccount, hc, hp, Except.map,
                ReservableCurrency.afterRepatriate_error hp]
          | ok out =>
              simp only [StorageMap.get_eq] at hp
              simp [he, bytesToAccount, hc, hp, Except.map,
                ReservableCurrency.afterRepatriate_ok hp]

/-- What an `update_errand` call comes to, from what it looks at. -/
inductive Verdict (AccountId : Type) where
  | refused (error : DispatchError)
  | finish
  | late (sender : AccountId)
  | count (sender : AccountId)
  | elect (sender : AccountId)

/-- The checks of `updateErrand`, in their order. -/
def verdict (cid : Cid) : RawOrigin AccountId → Verdict AccountId
  | .signed sender =>
      match s.errands.find cid, accountToBytes sender with
      | none, _ => .refused (.module .errandTaskNotExist)
      | some _, .error e => .refused (.module e)
      | some errand, .ok bytes =>
          if allowToUpdateResult s.updateResultAccounts [bytes] then
            if s.developmentMode then .finish
            else if errand.status = .done then .late sender
            else if minUpdateResultAccount ≤ (s.completedErrands.get cid).length + 1 then
              .elect sender
            else .count sender
          else .refused (.module .noRightToUpdateErrand)
  | .root => .refused .badOrigin
  | .none => .refused .badOrigin

def Verdict.carryOut (cid : Cid) (result : Bytes) :
    Verdict AccountId → CallOutcome AccountId Ledger
  | .refused e => ⟨.error e, s, []⟩
  | .finish =>
      ⟨.ok (), s.finished T cid result,
        s.paymentLog T cid ++ [.deposited (.errandUpdated cid result)]⟩
  | .late sender => ⟨.error (.module .errandTaskCompleted), s.voted cid sender, []⟩
  | .count sender => ⟨.ok (), s.voted cid sender, []⟩
  | .elect sender =>
      ⟨.ok (), (s.voted cid sender).finished T cid result,
        s.paymentLog T cid ++ [.deposited (.errandUpdated cid result)]⟩

variable {s} in
omit [DecidableEq AccountId] [Inhabited AccountId] in
/-- Only production mode counts votes, and only for an errand in processing. -/
theorem verdict_elect {cid : Cid} {origin : RawOrigin AccountId} {sender : AccountId}
    (h : verdict s cid origin = .elect sender) :
    ∃ errand, s.errands.find cid = some errand ∧ errand.status = .processing := by
  cases origin with
  | root => cases h
  | none => cases h
  | signed account =>
      cases he : s.errands.find cid with
      | none => simp [verdict, he] at h
      | some errand =>
          cases hs : errand.status with
          | processing => exact ⟨errand, rfl, hs⟩
          | done =>
              cases hb : accountToBytes account with
              | error e => simp [verdict, he, hb] at h
              | ok bytes =>
                  simp only [verdict, he, hb, hs, ↓reduceIte] at h
                  split at h
                  · split at h <;> cases h
                  · cases h

variable {s} in
omit [DecidableEq AccountId] [Inhabited AccountId] in
theorem verdict_finish {cid : Cid} {origin : RawOrigin AccountId}
    (h : verdict s cid origin = .finish) : s.developmentMode = true := by
  cases hm : s.developmentMode with
  | true => rfl
  | false =>
      unfold verdict at h
      split at h
      · split at h
        · cases h
        · cases h
        · simp only [hm, Bool.false_eq_true, ↓reduceIte] at h
          split at h
          · split at h
            · cases h
            · split at h <;> cases h
          · cases h
      · cases h
      · cases h

omit [DecidableEq AccountId] [Inhabited AccountId] in
/-- Past the checks that read only, the mode and the votes on record decide. -/
theorem verdict_of_allowed {sender : AccountId} {cid : Cid} {errand : Errand}
    {bytes : AccountId32} (he : s.errands.find cid = some errand)
    (hb : accountToBytes sender = .ok bytes) (ha : bytes ∈ s.updateResultAccounts) :
    verdict s cid (.signed sender) =
      if s.developmentMode then .finish
      else if errand.status = .done then .late sender
      else if minUpdateResultAccount ≤ (s.completedErrands.get cid).length + 1 then .elect sender
      else .count sender := by
  have ha : allowToUpdateResult s.updateResultAccounts [bytes] = true :=
    (allowToUpdateResult_singleton _ _).mpr ha
  simp only [verdict, he, hb, ha, ↓reduceIte]

omit [DecidableEq AccountId] in
theorem updateErrand_run_allowed (sender : AccountId) (cid : Cid) (result : Bytes)
    {errand : Errand} {bytes : AccountId32} (he : s.errands.find cid = some errand)
    (hb : accountToBytes sender = .ok bytes) (ha : bytes ∈ s.updateResultAccounts) :
    (updateErrand T (.signed sender) cid result).run s =
      (verdict s cid (.signed sender)).carryOut T s cid result := by
  rw [verdict_of_allowed s he hb ha]
  have ha : allowToUpdateResult s.updateResultAccounts [bytes] = true :=
    (allowToUpdateResult_singleton _ _).mpr ha
  cases hm : s.developmentMode with
  | true =>
      simp [updateErrand, Verdict.carryOut, he, hb, Except.mapError, ha, hm, updateErrandResult_run]
  | false =>
      cases hs : errand.status with
      | done =>
          cases hv : s.completedErrands.find cid <;>
            simp [updateErrand, Verdict.carryOut, he, hb, Except.mapError, ha, hm, hs, State.voted,
              hv]
      | processing =>
          by_cases hq : minUpdateResultAccount ≤ (s.completedErrands.get cid).length + 1
          · cases hv : s.completedErrands.find cid <;> simp [hv] at hq <;>
              simp [updateErrand, Verdict.carryOut, he, hb, Except.mapError, ha, hm, hs, hv, hq,
                State.voted, State.paymentLog, State.settlement, updateErrandResult_run]
          · cases hv : s.completedErrands.find cid <;> simp [hv] at hq <;>
              simp [updateErrand, Verdict.carryOut, he, hb, Except.mapError, ha, hm, hs, hv,
                State.voted, Nat.not_le.mpr hq]

omit [DecidableEq AccountId] in
theorem updateErrand_run (origin : RawOrigin AccountId) (cid : Cid) (result : Bytes) :
    (updateErrand T origin cid result).run s = (verdict s cid origin).carryOut T s cid result := by
  cases origin with
  | root => simp [updateErrand, verdict, Verdict.carryOut]
  | none => simp [updateErrand, verdict, Verdict.carryOut]
  | signed sender =>
      cases he : s.errands.find cid with
      | none => simp [updateErrand, verdict, Verdict.carryOut, he]
      | some errand =>
          cases hb : accountToBytes sender with
          | error e => simp [updateErrand, verdict, Verdict.carryOut, he, hb, Except.mapError]
          | ok bytes =>
              by_cases ha : bytes ∈ s.updateResultAccounts
              · exact updateErrand_run_allowed T s sender cid result he hb ha
              · simp [updateErrand, verdict, Verdict.carryOut, he, hb, Except.mapError,
                  allowToUpdateResult_singleton, ha]

theorem updateErrand_effect (origin : RawOrigin AccountId) (cid : Cid) (result : Bytes) :
    Effect T env s origin (.updateErrand cid result)
      ((updateErrand T origin cid result).run s) := by
  rw [updateErrand_run]
  cases origin with
  | root => exact .rejected (by simp [Admitted]) .nil
  | none => exact .rejected (by simp [Admitted]) .nil
  | signed sender =>
      cases he : s.errands.find cid with
      | none => simpa [verdict, he] using .rejected (by simp [Admitted, he]) .nil
      | some errand =>
          cases hb : accountToBytes sender with
          | error e =>
              simpa [verdict, he, hb] using
                .rejected (by simp [Admitted, he, MayUpdateResult, hb]) .nil
          | ok bytes =>
              have allowed : MayUpdateResult s sender ↔ bytes ∈ s.updateResultAccounts := by
                simp [MayUpdateResult, hb]
              by_cases ha : bytes ∈ s.updateResultAccounts
              · rw [verdict_of_allowed s he hb ha]
                split
                · rename_i mode
                  exact .finished he (allowed.mpr ha) mode
                · rename_i mode
                  have mode : s.developmentMode = false := by simpa using mode
                  split
                  · rename_i done
                    exact .votedLate he (allowed.mpr ha) mode done
                  · rename_i undone
                    have pending : errand.status = .processing := by
                      cases hs : errand.status with
                      | processing => rfl
                      | done => exact absurd hs undone
                    split
                    · rename_i enough
                      exact .elected he (allowed.mpr ha) mode pending enough
                    · rename_i few
                      exact .voted he (allowed.mpr ha) mode pending (by omega)
              · simpa [verdict, allowToUpdateResult_singleton, he, hb, ha] using
                  .rejected (by simp [Admitted, he, allowed, ha]) .nil

/-- The dispatcher does nothing outside the listed effects. -/
theorem dispatch_effect (x : Extrinsic AccountId) :
    Effect T x.env s x.origin x.call ((dispatch T x).run s) := by
  obtain ⟨env, origin, call⟩ := x
  cases call with
  | requestDelegate name address => exact requestDelegate_effect T env s origin name address
  | updateDelegateStatus updater => exact updateDelegateStatus_effect T env s origin updater
  | beginTask name cid fee => exact beginTask_effect T env s origin name cid fee
  | initErrand client errandId cid => exact initErrand_effect T env s origin client errandId cid
  | updateErrand cid result => exact updateErrand_effect T env s origin cid result
  | unreserve name client => exact unreserve_effect T env s origin name client

/-! ## What an accepted call has passed -/

variable {T env s}

/-- The checks a successful `begin_task` has passed, and what it did. -/
structure AcceptedTask (T : Trait AccountId Ledger) (env : Env) (s : State AccountId Ledger)
    (client delegator : AccountId) (name : DelegatorName) (cid : Cid) (fee : UInt32)
    (balances : Ledger) (o : CallOutcome AccountId Ledger) : Prop where
  named : s.delegateAccounts.find name = some delegator
  active : s.delegates.find delegator = some true
  fresh : s.errands.find cid = none
  unlisted : ∀ task ∈ s.tasks.get env.blockNumber, task.descriptionCid ≠ cid
  positive : 0 < fee
  funded : T.currency.reserve client fee.toNat s.balances = .ok balances
  outcome :
    o = ⟨.ok (), s.begun T env client delegator name cid fee balances,
      [.reserved client fee.toNat (.ok ()), .deposited (.taskBegan client cid delegator)]⟩

theorem Effect.beginTask_ok {client : AccountId} {name : DelegatorName} {cid : Cid}
    {fee : UInt32} {o : CallOutcome AccountId Ledger}
    (h : Effect T env s (.signed client) (.beginTask name cid fee) o) (hok : o.Succeeds) :
    ∃ delegator balances, AcceptedTask T env s client delegator name cid fee balances o := by
  cases h with
  | begun named active fresh unlisted positive funded =>
      exact ⟨_, _, named, active, fresh, unlisted, positive, funded, rfl⟩
  | taskListTaken => simp at hok
  | rejected => simp at hok

theorem Effect.initErrand_ok {sender client : AccountId} {errandId : ErrandId} {cid : Cid}
    {o : CallOutcome AccountId Ledger}
    (h : Effect T env s (.signed sender) (.initErrand client errandId cid) o)
    (hok : o.Succeeds) : s.clientDelegate.find client = some sender := by
  cases h with
  | inited authority => exact authority
  | rejected => simp at hok

/-- The single check of `initErrand`, in both directions. -/
theorem initErrand_succeeds_iff (s : State AccountId Ledger) (sender client : AccountId)
    (errandId : ErrandId) (cid : Cid) :
    ((initErrand (.signed sender) client errandId cid).run s).Succeeds ↔
      s.clientDelegate.find client = some sender := by
  cases hc : s.clientDelegate.find client with
  | none => simp [initErrand, hc]
  | some delegator =>
      by_cases hs : sender = delegator
      · simp [initErrand, addProcessing, hc, hs]
      · simp [initErrand, hc, hs, Ne.symm hs]

end AbcDemo.Pallet
