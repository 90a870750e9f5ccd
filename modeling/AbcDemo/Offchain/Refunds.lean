import AbcDemo.Offchain.Independence

/-! # Who gets the fee of a failed task

A failed send gives a fee to the delegate, a failed submission gives one to the
client, and the fee is the one of the client's last task. So a failed task gets
its own fee back to its client exactly when these happen to be the same.
-/

namespace AbcDemo.Offchain

open Foundation Pallet Dispatch

variable {AccountId Ledger Public : Type}

/-! ## What has failed -/

/-- A send that was not accepted, or a transaction that was not submitted. -/
def callFailed (outcome : TaskOutcome Public) : WorkerCall AccountId Public → Bool
  | .sendTask _ _ _ _ => !outcome.sent
  | .submit _ key _ => !outcome.submitted key
  | .unreserve _ _ => false

variable [DecidableEq AccountId] [Inhabited AccountId] [Codec AccountId]

/-- Exactly the fee of a failed task goes back from the reserve to its client; a
task that has not failed moves nothing. -/
def OwnFeeReleased (T : Trait AccountId Ledger) (item : TaskInfo) (failed : Bool)
    (L L' : Ledger) : Prop :=
  if failed then
    ∃ client, Codec.decode item.client = some client ∧
      T.currency.Releases client client item.fee.toNat L L'
  else L' = L

section Tasks

variable (T : Trait AccountId Ledger) (s : State AccountId Ledger) (blockNumber : BlockNumber)
  (accountIds : List (AccountId × Public)) (outcome : Nat → TaskOutcome Public)

/-- The worker when the block has these tasks. -/
def onTasks (items : List TaskInfo) :
    Outcome (State AccountId Ledger) (WorkerCall AccountId Public) Unit Unit :=
  (sendErrandTasks T blockNumber accountIds outcome).run
    { s with tasks := s.tasks.insert blockNumber items }

/-- With `item` after the tasks `pre`, the worker makes further calls, and it
releases exactly the fee of `item` if one of them fails, and nothing otherwise. -/
def TaskRefunded (pre : List TaskInfo) (item : TaskInfo) : Prop :=
  ∃ calls, (onTasks T s blockNumber accountIds outcome (pre ++ [item])).log =
      (onTasks T s blockNumber accountIds outcome pre).log ++ calls ∧
    OwnFeeReleased T item (calls.any (callFailed (outcome pre.length)))
      (onTasks T s blockNumber accountIds outcome pre).after.balances
      (onTasks T s blockNumber accountIds outcome (pre ++ [item])).after.balances

/-- So it does for every task of the block. -/
def Refunded : Prop :=
  ∀ pre item post, s.tasks.get blockNumber = pre ++ item :: post →
    TaskRefunded T s blockNumber accountIds outcome pre item

end Tasks

/-! ## One round -/

section Sends

variable (T : Trait AccountId Ledger) (s : State AccountId Ledger) (client delegator : AccountId)
  (keys : List (AccountId × Public)) (fee : UInt32) (item : TaskInfo)
  (outcome : TaskOutcome Public)

def sendFails : Bool := (accountToBytes delegator).isOk && !outcome.sent

/-- What was not sent is not submitted. -/
def submitFails : Bool :=
  !sendFails delegator outcome && !keys.all fun key => outcome.submitted key.2

/-- A failed send gives to the delegate, a failed submission to the client. -/
def giveBack (L : Ledger) : Ledger :=
  if sendFails delegator outcome then (T.currency.unreserve delegator fee.toNat L).2
  else if submitFails delegator keys outcome then (T.currency.unreserve client fee.toNat L).2
  else L

def submitCalls : List (WorkerCall AccountId Public) :=
  (keys.map fun key =>
    .submit key.1 key.2 (.initErrand client item.errandId item.descriptionCid)) ++
    if keys.all fun key => outcome.submitted key.2 then [] else [.unreserve client fee.toNat]

def sendCalls : List (WorkerCall AccountId Public) :=
  match accountToBytes delegator with
  | .ok account =>
      .sendTask account item.descriptionCid item.errandId (s.delegateNetAddress.get delegator) ::
        if outcome.sent then submitCalls client keys fee item outcome
        else [.unreserve delegator fee.toNat]
  | .error _ => submitCalls client keys fee item outcome

omit [DecidableEq AccountId] [Inhabited AccountId] in
theorem run_sendAndSubmit (decodes : Codec.decode item.client = some client) :
    (sendAndSubmit T delegator keys fee item outcome).run s =
      ⟨.ok (), { s with balances := giveBack T client delegator keys fee outcome s.balances },
        sendCalls s client delegator keys fee item outcome⟩ := by
  have submit := run_submitTask T keys fee outcome decodes
  unfold sendAndSubmit giveBack submitFails sendFails sendCalls submitCalls
  cases hb : accountToBytes delegator with
  | error e =>
      by_cases all : (keys.all fun key => outcome.submitted key.2) = true
      · simp [submit, all, Except.isOk, Except.toBool]
      · simp [submit, all, Except.isOk, Except.toBool]
  | ok account =>
      cases hs : outcome.sent with
      | false => simp [Except.isOk, Except.toBool]
      | true =>
          by_cases all : (keys.all fun key => outcome.submitted key.2) = true
          · simp [submit, all, Except.isOk, Except.toBool]
          · simp [submit, all, Except.isOk, Except.toBool]

omit [DecidableEq AccountId] [Inhabited AccountId] [Codec AccountId] in
theorem failed_submitCalls :
    (submitCalls client keys fee item outcome).any (callFailed outcome) =
      !(keys.all fun key => outcome.submitted key.2) := by
  have noRelease : (if keys.all fun key => outcome.submitted key.2 then []
      else [.unreserve client fee.toNat] : List (WorkerCall AccountId Public)).any
        (callFailed outcome) = false := by
    split <;> rfl
  rw [submitCalls, List.any_append, noRelease, Bool.or_false, List.any_map,
    List.not_all_eq_any_not]
  rfl

omit [DecidableEq AccountId] [Inhabited AccountId] in
theorem failed_sendCalls :
    (sendCalls s client delegator keys fee item outcome).any (callFailed outcome) =
      (sendFails delegator outcome || submitFails delegator keys outcome) := by
  unfold sendCalls submitFails sendFails
  cases hb : accountToBytes delegator with
  | error e => simp [failed_submitCalls, Except.isOk, Except.toBool]
  | ok account =>
      cases hs : outcome.sent with
      | false => simp [callFailed, hs, Except.isOk, Except.toBool]
      | true => simp [failed_submitCalls, callFailed, hs, Except.isOk, Except.toBool]

end Sends

section Rounds

variable (T : Trait AccountId Ledger) (s : State AccountId Ledger)
  (accountIds : List (AccountId × Public)) (item : TaskInfo) (outcome : TaskOutcome Public)

/-- The send or the submission of a task that the worker reaches fails. -/
def taskFails : Bool :=
  let delegator := s.delegateAccounts.get item.delegator
  eligible s accountIds item && (Codec.decode item.client : Option AccountId).isSome &&
    (sendFails delegator outcome ||
      submitFails delegator (delegateKeys s accountIds item) outcome)

/-- The calls made for the task. -/
def roundCalls : List (WorkerCall AccountId Public) :=
  match (Codec.decode item.client : Option AccountId) with
  | some client =>
      if eligible s accountIds item then
        sendCalls s client (s.delegateAccounts.get item.delegator) (delegateKeys s accountIds item)
          (s.clientTaskFee.get client) item outcome
      else []
  | none => []

/-- The ledger after its round. The fee is the last one that the client reserved. -/
def afterRound (L : Ledger) : Ledger :=
  match (Codec.decode item.client : Option AccountId) with
  | some client =>
      if eligible s accountIds item then
        giveBack T client (s.delegateAccounts.get item.delegator) (delegateKeys s accountIds item)
          (s.clientTaskFee.get client) outcome L
      else L
  | none => L

theorem failed_roundCalls :
    (roundCalls s accountIds item outcome).any (callFailed outcome) =
      taskFails s accountIds item outcome := by
  unfold roundCalls taskFails
  cases (Codec.decode item.client : Option AccountId) with
  | none => simp
  | some client =>
      cases eligible s accountIds item with
      | false => rfl
      | true => exact failed_sendCalls ..

theorem run_sendErrandTask (known : registered s item = true) :
    (sendErrandTask T accountIds item outcome).run s =
      ⟨.ok (), { s with balances := afterRound T s accountIds item outcome s.balances },
        roundCalls s accountIds item outcome⟩ := by
  obtain ⟨delegator, hd⟩ := Option.isSome_iff_exists.mp known
  have resolved : s.delegateAccounts.get item.delegator = delegator := by simp [hd]
  unfold roundCalls afterRound eligible delegateKeys
  rw [known, resolved]
  cases hc : (Codec.decode item.client : Option AccountId) with
  | none => simp [sendErrandTask, hd, hc]
  | some client =>
      cases hk : signerFilter accountIds delegator with
      | nil => simp [sendErrandTask, hd, hc, hk]
      | cons key keys =>
          have sent := run_sendAndSubmit T s client delegator (key :: keys)
            (s.clientTaskFee.get client) item outcome hc
          have hrun : (sendErrandTask T accountIds item outcome).run s =
              (sendAndSubmit T delegator (key :: keys) (s.clientTaskFee.get client) item
                outcome).run s := by
            simp [sendErrandTask, hd, hc, hk]
          rw [hrun, sent]
          rfl

end Rounds

/-! ## The tasks one after another -/

section Lists

variable (T : Trait AccountId Ledger) (s : State AccountId Ledger) (blockNumber : BlockNumber)
  (accountIds : List (AccountId × Public)) (outcome : Nat → TaskOutcome Public)

/-- The tasks before the first unregistered name, with their positions. -/
def reachedTasks (items : List TaskInfo) : List (TaskInfo × Nat) :=
  items.zipIdx.takeWhile fun item => registered s item.1

omit [DecidableEq AccountId] [Inhabited AccountId] [Codec AccountId] in
theorem reachedTasks_concat (pre : List TaskInfo) (item : TaskInfo) :
    reachedTasks s (pre ++ [item]) =
      if (pre ++ [item]).all (registered s) then reachedTasks s pre ++ [(item, pre.length)]
      else reachedTasks s pre := by
  have positions : (pre ++ [item]).zipIdx = pre.zipIdx ++ [(item, pre.length)] := by
    simp [List.zipIdx_append]
  have names : (pre ++ [item]).zipIdx.all (fun item => registered s item.1) =
      (pre ++ [item]).all (registered s) := by
    rw [← List.zipIdx_map_fst 0 (pre ++ [item]), List.all_map]
    simp [Function.comp_def]
  rw [reachedTasks, ← names, positions, takeWhile_concat]
  rfl

theorem refunds_without_keys (item : TaskInfo) (outcome : TaskOutcome Public) (L : Ledger) :
    roundCalls s ([] : List (AccountId × Public)) item outcome = [] ∧
      afterRound T s [] item outcome L = L := by
  have keyless : eligible s ([] : List (AccountId × Public)) item = false := by
    simp [eligible, delegateKeys, signerFilter]
  unfold roundCalls afterRound
  rw [keyless]
  cases (Codec.decode item.client : Option AccountId) <;> exact ⟨rfl, rfl⟩

/-- `σ` differs from `s` in the ledger at most. -/
def MovesLedger (s σ : State AccountId Ledger) : Prop := ∃ L, σ = { s with balances := L }

def playRound (σ : State AccountId Ledger) (item : TaskInfo × Nat) : State AccountId Ledger :=
  { σ with balances := afterRound T s accountIds item.1 (outcome item.2) σ.balances }

/-- The rounds change nothing but the ledger, and look at nothing that they change. -/
theorem run_rounds (items : List TaskInfo) :
    let rounds := (forM items.zipIdx fun item =>
      sendErrandTask T accountIds item.1 (outcome item.2)).run s
    rounds.log = (reachedTasks s items).flatMap (fun item =>
        roundCalls s accountIds item.1 (outcome item.2)) ∧
      rounds.after.balances = (reachedTasks s items).foldl (fun L item =>
        afterRound T s accountIds item.1 (outcome item.2) L) s.balances := by
  have goes : ∀ (item : TaskInfo × Nat) σ, MovesLedger s σ → registered s item.1 = true →
      (sendErrandTask T accountIds item.1 (outcome item.2)).run σ =
        ⟨.ok (), playRound T s accountIds outcome σ item,
          roundCalls s accountIds item.1 (outcome item.2)⟩ ∧
      MovesLedger s (playRound T s accountIds outcome σ item) := by
    rintro item σ ⟨L, rfl⟩ known
    have round := run_sendErrandTask T { s with balances := L } accountIds item.1 (outcome item.2)
      known
    exact ⟨round, _, rfl⟩
  have stops : ∀ (item : TaskInfo × Nat) σ, MovesLedger s σ → registered s item.1 = false →
      ∃ e, (sendErrandTask T accountIds item.1 (outcome item.2)).run σ = ⟨.error e, σ, []⟩ := by
    rintro item σ ⟨L, rfl⟩ unknown
    exact ⟨(), sendErrandTask_unregistered T { s with balances := L } accountIds item.1
      (outcome item.2) unknown⟩
  have loop := run_forM_until (playRound T s accountIds outcome) _ goes stops items.zipIdx
    ⟨s.balances, rfl⟩
  constructor
  · exact loop.1
  · rw [loop.2]
    exact (List.foldl_hom State.balances fun _ _ => rfl).symm

/-- The worker goes through the reached tasks. -/
theorem onTasks_spec (items : List TaskInfo) :
    (onTasks T s blockNumber accountIds outcome items).log =
        (reachedTasks s items).flatMap (fun item =>
          roundCalls s accountIds item.1 (outcome item.2)) ∧
      (onTasks T s blockNumber accountIds outcome items).after.balances =
        (reachedTasks s items).foldl (fun L item =>
          afterRound T s accountIds item.1 (outcome item.2) L) s.balances := by
  cases hk : accountIds.isEmpty with
  | true =>
      have none : accountIds = [] := List.isEmpty_iff.mp hk
      subst none
      have idle (item : TaskInfo × Nat) := refunds_without_keys T s item.1 (outcome item.2)
      constructor
      · simp [onTasks, sendErrandTasks, fun item => (idle item s.balances).1]
      · simp [onTasks, sendErrandTasks, fun item L => (idle item L).2]
  | false =>
      have rounds := run_rounds T { s with tasks := s.tasks.insert blockNumber items } accountIds
        outcome items
      have hrun : onTasks T s blockNumber accountIds outcome items =
          (forM items.zipIdx fun item =>
            sendErrandTask T accountIds item.1 (outcome item.2)).run
              { s with tasks := s.tasks.insert blockNumber items } := by
        simp [onTasks, sendErrandTasks, hk]
      rw [hrun]
      exact rounds

/-- A further task adds its own round, if it is reached. -/
theorem onTasks_concat (pre : List TaskInfo) (item : TaskInfo) :
    let before := onTasks T s blockNumber accountIds outcome pre
    let after := onTasks T s blockNumber accountIds outcome (pre ++ [item])
    if (pre ++ [item]).all (registered s) then
      after.log = before.log ++ roundCalls s accountIds item (outcome pre.length) ∧
        after.after.balances =
          afterRound T s accountIds item (outcome pre.length) before.after.balances
    else after.log = before.log ∧ after.after.balances = before.after.balances := by
  intro before after
  obtain ⟨logBefore, ledgerBefore⟩ := onTasks_spec T s blockNumber accountIds outcome pre
  obtain ⟨logAfter, ledgerAfter⟩ := onTasks_spec T s blockNumber accountIds outcome (pre ++ [item])
  rw [reachedTasks_concat] at logAfter ledgerAfter
  split
  · rename_i reached
    rw [if_pos reached] at logAfter ledgerAfter
    constructor
    · rw [logAfter, logBefore, List.flatMap_append, List.flatMap_singleton]
    · rw [ledgerAfter, ledgerBefore, List.foldl_append, List.foldl_cons, List.foldl_nil]
  · rename_i unreached
    rw [if_neg unreached] at logAfter ledgerAfter
    exact ⟨logAfter.trans logBefore.symm, ledgerAfter.trans ledgerBefore.symm⟩

end Lists

/-! ## When the own fee goes back -/

section Fees

variable (T : Trait AccountId Ledger) (s : State AccountId Ledger) (blockNumber : BlockNumber)
  (accountIds : List (AccountId × Public))

/-- The own fee of a failed task, if it is the account's. -/
def due (a : AccountId) (item : TaskInfo) (outcome : TaskOutcome Public) : Nat :=
  if taskFails s accountIds item outcome && (Codec.decode item.client : Option AccountId) = some a
  then item.fee.toNat else 0

/-- The own fees of the account's failed tasks, together. -/
def owed (outcome : Nat → TaskOutcome Public) (a : AccountId) (items : List TaskInfo) : Nat :=
  (items.zipIdx.map fun item => due s accountIds a item.1 (outcome item.2)).sum

/-- A task that fails fails for its own fee: if its send fails, its delegate is the
client itself (or there is no fee); and its fee is what `left` lets be released of
the last fee that the client has reserved. -/
def FailsForOwnFee (left : AccountId → Nat) (item : TaskInfo) (outcome : TaskOutcome Public) :
    Prop :=
  let delegator := s.delegateAccounts.get item.delegator
  eligible s accountIds item = true → ∀ client, Codec.decode item.client = some client →
    (sendFails delegator outcome = true →
      (delegator = client ∨ item.fee = 0) ∧
        min (s.clientTaskFee.get client).toNat (left delegator) = item.fee.toNat) ∧
    (submitFails delegator (delegateKeys s accountIds item) outcome = true →
      min (s.clientTaskFee.get client).toNat (left client) = item.fee.toNat)

/-- It is so for every task that the worker reaches, when its earlier failed tasks
have taken their own fees out of the reserve. -/
def FailForOwnFees (outcome : Nat → TaskOutcome Public) : Prop :=
  ∀ pre item post, s.tasks.get blockNumber = pre ++ item :: post →
    (pre ++ [item]).all (registered s) = true →
      FailsForOwnFee s accountIds
        (fun a => T.currency.reservedBalance s.balances a - owed s accountIds outcome a pre) item
        (outcome pre.length)

variable {T}

theorem ownFeeReleased_iff (unreserves : T.currency.UnreservesExactly) (item : TaskInfo)
    (outcome : TaskOutcome Public) (L : Ledger) :
    OwnFeeReleased T item (taskFails s accountIds item outcome) L
        (afterRound T s accountIds item outcome L) ↔
      FailsForOwnFee s accountIds (T.currency.reservedBalance L) item outcome := by
  have free : item.fee = 0 ↔ item.fee.toNat = 0 := by
    rw [← UInt32.toNat_inj]
    rfl
  unfold OwnFeeReleased FailsForOwnFee taskFails afterRound giveBack
  dsimp only
  generalize s.delegateAccounts.get item.delegator = delegator
  generalize delegateKeys s accountIds item = keys
  cases hc : (Codec.decode item.client : Option AccountId) with
  | none => simp
  | some client =>
      by_cases reachable : eligible s accountIds item = true
      · by_cases hs : sendFails delegator outcome = true
        · have unsubmitted : submitFails delegator keys outcome = false := by
            simp [submitFails, hs]
          simp [reachable, hs, unsubmitted, unreserves.releases_iff, free]
        · by_cases hf : submitFails delegator keys outcome = true
          · simp [reachable, hs, hf, unreserves.releases_iff]
          · simp [reachable, hs, hf]
      · simp [reachable]

/-- A released own fee is what the account's reserve is short of afterwards. -/
theorem reserved_of_ownFeeReleased {item : TaskInfo} {outcome : TaskOutcome Public} {L L' : Ledger}
    (released : OwnFeeReleased T item (taskFails s accountIds item outcome) L L') (a : AccountId) :
    T.currency.reservedBalance L' a + due s accountIds a item outcome =
      T.currency.reservedBalance L a := by
  unfold OwnFeeReleased at released
  unfold due
  cases hf : taskFails s accountIds item outcome with
  | false =>
      rw [hf, if_neg Bool.false_ne_true] at released
      simp [released]
  | true =>
      rw [hf, if_pos rfl] at released
      obtain ⟨client, decodes, moved⟩ := released
      by_cases ha : client = a
      · subst ha
        simpa [decodes] using moved.reserved_eq
      · simpa [decodes, ha] using moved.reserved_frame a (Ne.symm ha)

/-- What a further task comes to. -/
theorem taskRefunded_iff (outcome : Nat → TaskOutcome Public) (pre : List TaskInfo)
    (item : TaskInfo) :
    TaskRefunded T s blockNumber accountIds outcome pre item ↔
      ((pre ++ [item]).all (registered s) = true →
        OwnFeeReleased T item (taskFails s accountIds item (outcome pre.length))
          (onTasks T s blockNumber accountIds outcome pre).after.balances
          (afterRound T s accountIds item (outcome pre.length)
            (onTasks T s blockNumber accountIds outcome pre).after.balances)) := by
  have round := onTasks_concat T s blockNumber accountIds outcome pre item
  cases reached : (pre ++ [item]).all (registered s) with
  | true =>
      rw [if_pos reached] at round
      obtain ⟨log, ledger⟩ := round
      rw [TaskRefunded, log, ledger, ← failed_roundCalls]
      constructor
      · rintro ⟨calls, hcalls, released⟩ -
        rwa [List.append_cancel_left hcalls]
      · exact fun released => ⟨_, rfl, released rfl⟩
  | false =>
      rw [if_neg (by simp [reached])] at round
      obtain ⟨log, ledger⟩ := round
      rw [TaskRefunded, log, ledger]
      exact iff_of_true ⟨[], by simp, rfl⟩ (by simp)

/-- After tasks that were refunded, every reserve is short of what was owed. -/
theorem reserved_of_refunded (outcome : Nat → TaskOutcome Public) {pre : List TaskInfo}
    (earlier : ∀ pre' item post, pre = pre' ++ item :: post →
      TaskRefunded T s blockNumber accountIds outcome pre' item)
    (reached : pre.all (registered s) = true) (a : AccountId) :
    T.currency.reservedBalance (onTasks T s blockNumber accountIds outcome pre).after.balances a +
        owed s accountIds outcome a pre =
      T.currency.reservedBalance s.balances a := by
  induction pre using List.reverseRecOn with
  | nil =>
      have ledger := (onTasks_spec T s blockNumber accountIds outcome []).2
      rw [ledger]
      rfl
  | append_singleton pre item ih =>
      have before := ih (fun pre' y post hpre => earlier pre' y (post ++ [item]) (by simp [hpre]))
        (all_of_all_concat reached)
      have released := (taskRefunded_iff s blockNumber accountIds outcome pre item).mp
        (earlier pre item [] rfl) reached
      have round := onTasks_concat T s blockNumber accountIds outcome pre item
      rw [if_pos reached] at round
      have left := reserved_of_ownFeeReleased s accountIds released a
      have more : owed s accountIds outcome a (pre ++ [item]) =
          owed s accountIds outcome a pre + due s accountIds a item (outcome pre.length) := by
        simp [owed, List.zipIdx_append]
      rw [round.2, more]
      omega

theorem refunded_iff_own_fees (unreserves : T.currency.UnreservesExactly)
    (outcome : Nat → TaskOutcome Public) :
    Refunded T s blockNumber accountIds outcome ↔
      FailForOwnFees T s blockNumber accountIds outcome := by
  apply forall_split_congr
  intro pre item post _ earlier
  rw [taskRefunded_iff]
  apply forall_congr'
  intro reached
  have left : T.currency.reservedBalance
      (onTasks T s blockNumber accountIds outcome pre).after.balances =
        fun a => T.currency.reservedBalance s.balances a - owed s accountIds outcome a pre := by
    funext a
    have short := reserved_of_refunded s blockNumber accountIds outcome earlier
      (all_of_all_concat reached) a
    omega
  rw [ownFeeReleased_iff s accountIds unreserves, left]

end Fees

/-! ## A send that fails -/

/-- Alice's task waits for Bob in the first block. -/
def oneTask : List (Extrinsic AccountId32) :=
  bobDelegates ++ [submit 2 alice (.beginTask [1] [10] 5)]

theorem refunded_iff_own_fees_oneTask :
    let s := (exec (dispatch runtime) localTestnet oneTask).final
    let outcome : Nat → TaskOutcome Unit := fun _ => ⟨true, fun _ => false⟩
    runtime.currency.UnreservesExactly ∧
      (Refunded runtime s 1 [(bob, ())] outcome ↔
        FailForOwnFees runtime s 1 [(bob, ())] outcome) := by
  intro s outcome
  have unreserves : runtime.currency.UnreservesExactly :=
    AccountLedger.currency_unreservesExactly _
  exact ⟨unreserves, refunded_iff_own_fees s 1 [(bob, ())] unreserves outcome⟩

/-- Bob's node does not get the task through. It asks for Bob's reserve, in which
there is nothing, and Alice's fee stays where it is. -/
theorem oneTask_failed_send_not_refunded :
    let s := (exec (dispatch runtime) localTestnet oneTask).final
    let outcome : Nat → TaskOutcome Unit := fun _ => ⟨false, fun _ => true⟩
    ¬ Refunded runtime s 1 [(bob, ())] outcome := by
  intro s outcome refunded
  let item : TaskInfo :=
    ⟨Codec.encode alice, [1], [10], generateErrandId runtime (firstBlock 2) bob, 5⟩
  have tasks : s.tasks.get 1 = [item] := by decide +kernel
  obtain ⟨calls, hcalls, released⟩ := refunded [] item [] tasks
  have failed : calls.any (callFailed (outcome 0)) = true := by
    have all : (onTasks runtime s 1 [(bob, ())] outcome [item]).log = calls := hcalls
    rw [← all]
    decide +kernel
  unfold OwnFeeReleased at released
  rw [if_pos failed] at released
  obtain ⟨client, decodes, moved⟩ := released
  obtain rfl : alice = client := Option.some.inj ((Codec.decode_encode alice).symm.trans decodes)
  have due := moved.reserved_eq
  revert due
  decide +kernel

end AbcDemo.Offchain
