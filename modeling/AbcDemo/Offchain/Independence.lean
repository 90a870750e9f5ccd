import AbcDemo.Foundation.Loops
import AbcDemo.Offchain.SendTasks
import AbcDemo.Pallet.Runtime

/-! # Which tasks of a block are dispatched

The loop over the tasks of a block passes over tasks it has no key for and over
failed requests, but it ends at the first task whose delegator name is no longer
registered. So the later tasks are dispatched like the earlier ones exactly when
no such name comes before one of them.
-/

namespace AbcDemo.Offchain

open Foundation Pallet Dispatch

variable {AccountId Ledger Public : Type}

/-! ## What a worker reports -/

def sentTask : WorkerCall AccountId Public → Option (Cid × ErrandId)
  | .sendTask _ descriptionCid errandId _ => some (descriptionCid, errandId)
  | _ => none

def submittedCall : WorkerCall AccountId Public → Option (AccountId × Call AccountId)
  | .submit signer _ call => some (signer, call)
  | _ => none

def sends (log : List (WorkerCall AccountId Public)) : List (Cid × ErrandId) :=
  log.filterMap sentTask

def submissions (log : List (WorkerCall AccountId Public)) : List (AccountId × Call AccountId) :=
  log.filterMap submittedCall

@[simp] theorem sends_nil : sends ([] : List (WorkerCall AccountId Public)) = [] := rfl

@[simp] theorem sends_append (v w : List (WorkerCall AccountId Public)) :
    sends (v ++ w) = sends v ++ sends w := List.filterMap_append

@[simp] theorem submissions_nil : submissions ([] : List (WorkerCall AccountId Public)) = [] := rfl

@[simp] theorem submissions_append (v w : List (WorkerCall AccountId Public)) :
    submissions (v ++ w) = submissions v ++ submissions w := List.filterMap_append

variable [DecidableEq AccountId] [Inhabited AccountId] [Codec AccountId]

/-- What a dispatched task is submitted as, once for each key of the delegate. -/
def taskSubmissions (keys : List (AccountId × Public)) (item : TaskInfo) :
    List (AccountId × Call AccountId) :=
  match (Codec.decode item.client : Option AccountId) with
  | some client => keys.map fun key =>
      (key.1, .initErrand client item.errandId item.descriptionCid)
  | none => []

omit [DecidableEq AccountId] [Inhabited AccountId] in
@[simp] theorem taskSubmissions_nil (item : TaskInfo) :
    taskSubmissions ([] : List (AccountId × Public)) item = [] := by
  unfold taskSubmissions
  split <;> rfl

section Tasks

variable (s : State AccountId Ledger) (accountIds : List (AccountId × Public))

def registered (item : TaskInfo) : Bool := s.delegateAccounts.contains item.delegator

/-- The local keys of the delegate of a task. -/
def delegateKeys (item : TaskInfo) : List (AccountId × Public) :=
  signerFilter accountIds (s.delegateAccounts.get item.delegator)

/-- The name is registered and its delegate has a local key. -/
def eligible (item : TaskInfo) : Bool :=
  registered s item && !(delegateKeys s accountIds item).isEmpty

/-- The client and the delegate of a task are well encoded. -/
def wellEncoded (item : TaskInfo) : Bool :=
  (Codec.decode item.client : Option AccountId).isSome &&
    (accountToBytes (s.delegateAccounts.get item.delegator)).isOk

/-- Exactly the eligible tasks are sent, and exactly those of them whose send
succeeds are submitted, all in the order of the list. -/
structure DispatchedAlike (blockNumber : BlockNumber) (outcome : Nat → TaskOutcome Public)
    (log : List (WorkerCall AccountId Public)) : Prop where
  sends_eq : sends log =
    ((s.tasks.get blockNumber).filter (eligible s accountIds)).map fun item =>
      (item.descriptionCid, item.errandId)
  submissions_eq : submissions log =
    (s.tasks.get blockNumber).zipIdx.flatMap fun item =>
      if eligible s accountIds item.1 && (outcome item.2).sent then
        taskSubmissions (delegateKeys s accountIds item.1) item.1
      else []

end Tasks

/-! ## One round of the loop -/

section Rounds

variable (T : Trait AccountId Ledger) (s : State AccountId Ledger)
  (accountIds : List (AccountId × Public)) (item : TaskInfo) (outcome : TaskOutcome Public)

omit [DecidableEq AccountId] [Inhabited AccountId] [Codec AccountId] in
theorem submitted_with_keys (keys : List (AccountId × Public)) (call : Call AccountId) :
    sends (keys.map fun key => (.submit key.1 key.2 call : WorkerCall AccountId Public)) = [] ∧
      submissions (keys.map fun key => (.submit key.1 key.2 call : WorkerCall AccountId Public)) =
        keys.map fun key => (key.1, call) := by
  induction keys with
  | nil => exact ⟨rfl, rfl⟩
  | cons key keys ih => exact ⟨ih.1, congrArg (List.cons (key.1, call)) ih.2⟩

omit [DecidableEq AccountId] [Inhabited AccountId] in
/-- Submitting sends nothing and writes at most to the ledger. -/
theorem submitTask_reports (keys : List (AccountId × Public)) (fee : UInt32) :
    ∃ L w, (submitTask T keys fee item outcome).run s = ⟨.ok (), { s with balances := L }, w⟩ ∧
      sends w = [] ∧ submissions w = taskSubmissions keys item := by
  cases hc : (Codec.decode item.client : Option AccountId) with
  | none => exact ⟨s.balances, [], by simp [submitTask, hc], rfl, by simp [taskSubmissions, hc]⟩
  | some client =>
      obtain ⟨unsent, submitted⟩ := submitted_with_keys keys
        (.initErrand client item.errandId item.descriptionCid)
      rw [run_submitTask T _ fee outcome hc s]
      split
      · exact ⟨s.balances, _, rfl, unsent, by simp [taskSubmissions, hc, submitted]⟩
      · refine ⟨_, _, rfl, ?_, ?_⟩
        · rw [sends_append, unsent]
          rfl
        · rw [submissions_append, submitted]
          simp [taskSubmissions, hc, submissions, submittedCall]

/-- What a round submits for a task of a delegate, sent or not. -/
def roundSubmissions (delegator : AccountId) (keys : List (AccountId × Public)) :
    List (AccountId × Call AccountId) :=
  if (accountToBytes delegator).isOk && !outcome.sent then [] else taskSubmissions keys item

omit [DecidableEq AccountId] [Inhabited AccountId] in
@[simp] theorem roundSubmissions_nil (delegator : AccountId) :
    roundSubmissions item outcome delegator ([] : List (AccountId × Public)) = [] := by
  simp [roundSubmissions]

omit [DecidableEq AccountId] [Inhabited AccountId] in
theorem sendAndSubmit_reports (delegator : AccountId) (keys : List (AccountId × Public))
    (fee : UInt32) :
    ∃ L w, (sendAndSubmit T delegator keys fee item outcome).run s =
        ⟨.ok (), { s with balances := L }, w⟩ ∧
      sends w = (if (accountToBytes delegator).isOk then [(item.descriptionCid, item.errandId)]
        else []) ∧
      submissions w = roundSubmissions item outcome delegator keys := by
  obtain ⟨L, w, hrun, unsent, submitted⟩ := submitTask_reports T s item outcome keys fee
  unfold sendAndSubmit roundSubmissions
  cases accountToBytes delegator with
  | error e => exact ⟨L, w, hrun, unsent, submitted⟩
  | ok account =>
      cases outcome.sent with
      | false => exact ⟨_, _, rfl, rfl, rfl⟩
      | true =>
          refine ⟨L, .sendTask account item.descriptionCid item.errandId
            (s.delegateNetAddress.get delegator) :: w, ?_, congrArg _ unsent, submitted⟩
          simp [hrun]

theorem sendErrandTask_reports (known : registered s item = true) :
    ∃ L w, (sendErrandTask T accountIds item outcome).run s =
        ⟨.ok (), { s with balances := L }, w⟩ ∧
      sends w = (if eligible s accountIds item && wellEncoded s item then
        [(item.descriptionCid, item.errandId)] else []) ∧
      submissions w = roundSubmissions item outcome (s.delegateAccounts.get item.delegator)
        (delegateKeys s accountIds item) := by
  obtain ⟨delegator, hd⟩ := Option.isSome_iff_exists.mp known
  have resolved : s.delegateAccounts.get item.delegator = delegator := by simp [hd]
  unfold eligible wellEncoded delegateKeys
  rw [known, resolved, Bool.true_and]
  cases hc : (Codec.decode item.client : Option AccountId) with
  | none =>
      refine ⟨s.balances, [], by simp [sendErrandTask, hd, hc], by simp, ?_⟩
      simp [roundSubmissions, taskSubmissions, hc]
  | some client =>
      obtain ⟨L, w, hrun, sent, submitted⟩ := sendAndSubmit_reports T s item outcome delegator
        (signerFilter accountIds delegator) (s.clientTaskFee.get client)
      cases hk : signerFilter accountIds delegator with
      | nil =>
          refine ⟨s.balances, [], by simp [sendErrandTask, hd, hc, hk], by simp, ?_⟩
          simp [roundSubmissions, taskSubmissions, hc]
      | cons key keys =>
          rw [hk] at hrun submitted
          refine ⟨L, w, ?_, by simpa using sent, submitted⟩
          simpa [sendErrandTask, hd, hc, hk] using hrun

theorem sendErrandTask_unregistered (unknown : registered s item = false) :
    (sendErrandTask T accountIds item outcome).run s = ⟨.error (), s, []⟩ := by
  have absent : (s.delegateAccounts.find item.delegator).isSome = false := unknown
  simp [sendErrandTask, absent]

end Rounds

/-! ## The whole loop -/

section Loop

variable (T : Trait AccountId Ledger) (s : State AccountId Ledger)
  (accountIds : List (AccountId × Public)) (outcome : Nat → TaskOutcome Public)

/-- The loop works on the tasks before the first unregistered name. -/
theorem sendErrandTasks_loop (items : List (TaskInfo × Nat)) :
    let reached := items.takeWhile fun item => registered s item.1
    let o := (forM items fun item =>
      sendErrandTask T accountIds item.1 (outcome item.2)).run s
    sends o.log = (reached.filter fun item => eligible s accountIds item.1 &&
        wellEncoded s item.1).map (fun item => (item.1.descriptionCid, item.1.errandId)) ∧
      submissions o.log = reached.flatMap fun item =>
        roundSubmissions item.1 (outcome item.2) (s.delegateAccounts.get item.1.delegator)
          (delegateKeys s accountIds item.1) := by
  intro reached o
  -- the rounds change nothing but the ledger
  have stops : ∀ (item : TaskInfo × Nat) s', (∃ L, s' = { s with balances := L }) →
      registered s item.1 = false →
        ∃ e, (sendErrandTask T accountIds item.1 (outcome item.2)).run s' = ⟨.error e, s', []⟩ := by
    rintro item s' ⟨L, rfl⟩ unknown
    exact ⟨(), sendErrandTask_unregistered T _ accountIds item.1 (outcome item.2) unknown⟩
  constructor
  · rw [← flatMap_ite_singleton]
    apply run_forM_stopping (P := fun s' => ∃ L, s' = { s with balances := L }) _ stops items
      ⟨s.balances, rfl⟩
    rintro item s' ⟨L, rfl⟩ known
    obtain ⟨L', w, hrun, sent, _⟩ := sendErrandTask_reports T { s with balances := L } accountIds
      item.1 (outcome item.2) known
    exact ⟨_, w, hrun, ⟨L', rfl⟩, sent⟩
  · apply run_forM_stopping (P := fun s' => ∃ L, s' = { s with balances := L }) _ stops items
      ⟨s.balances, rfl⟩
    rintro item s' ⟨L, rfl⟩ known
    obtain ⟨L', w, hrun, _, submitted⟩ := sendErrandTask_reports T { s with balances := L }
      accountIds item.1 (outcome item.2) known
    exact ⟨_, w, hrun, ⟨L', rfl⟩, submitted⟩

end Loop

/-! ## When the tasks are dispatched alike -/

section Condition

variable (T : Trait AccountId Ledger) (s : State AccountId Ledger) (blockNumber : BlockNumber)
  (accountIds : List (AccountId × Public)) (outcome : Nat → TaskOutcome Public)

/-- No unregistered name comes before an eligible task, and eligible tasks are
well encoded. -/
def Unhindered : Prop :=
  ∀ pre item post, s.tasks.get blockNumber = pre ++ item :: post →
    eligible s accountIds item = true →
      (∀ earlier ∈ pre, registered s earlier = true) ∧ wellEncoded s item = true

theorem sendErrandTasks_reports :
    let o := (sendErrandTasks T blockNumber accountIds outcome).run s
    sends o.log = (((s.tasks.get blockNumber).takeWhile (registered s)).filter fun item =>
        eligible s accountIds item && wellEncoded s item).map (fun item =>
          (item.descriptionCid, item.errandId)) ∧
      submissions o.log = ((s.tasks.get blockNumber).zipIdx.takeWhile fun item =>
          registered s item.1).flatMap fun item =>
        roundSubmissions item.1 (outcome item.2) (s.delegateAccounts.get item.1.delegator)
          (delegateKeys s accountIds item.1) := by
  cases hb : s.tasks.find blockNumber with
  | none => simp [sendErrandTasks, hb]
  | some taskArray =>
      cases hk : accountIds.isEmpty with
      | true =>
          have none : accountIds = [] := List.isEmpty_iff.mp hk
          subst none
          simp [sendErrandTasks, hb, eligible, delegateKeys, signerFilter]
      | false =>
          have loop := sendErrandTasks_loop T s accountIds outcome taskArray.zipIdx
          have hrun : (sendErrandTasks T blockNumber accountIds outcome).run s =
              (forM taskArray.zipIdx fun item =>
                sendErrandTask T accountIds item.1 (outcome item.2)).run s := by
            simp [sendErrandTasks, hb, hk]
          have tasks : s.tasks.get blockNumber = taskArray.zipIdx.map Prod.fst := by
            simp [hb, List.zipIdx_map_fst]
          rw [hrun]
          refine ⟨?_, ?_⟩
          · rw [tasks, List.takeWhile_map, List.filter_map, List.map_map]
            exact loop.1
          · simpa [hb] using loop.2

/-- A round for a reachable well encoded task is what the task asks for. -/
theorem roundSubmissions_eq {item : TaskInfo} (outcome : TaskOutcome Public)
    (encoded : eligible s accountIds item = true → wellEncoded s item = true)
    (known : registered s item = true) :
    roundSubmissions item outcome (s.delegateAccounts.get item.delegator)
        (delegateKeys s accountIds item) =
      if eligible s accountIds item && outcome.sent then
        taskSubmissions (delegateKeys s accountIds item) item
      else [] := by
  cases he : eligible s accountIds item with
  | true =>
      have ok := (Bool.and_eq_true_iff.mp (encoded he)).2
      cases ho : outcome.sent <;> simp only [roundSubmissions, ok, ho] <;> rfl
  | false =>
      have keyless : delegateKeys s accountIds item = [] := by
        simpa [eligible, known] using he
      simp [keyless]

omit [Codec AccountId] in
theorem registered_of_eligible (item : TaskInfo) (h : eligible s accountIds item = true) :
    registered s item = true :=
  (Bool.and_eq_true_iff.mp h).1

/-- All eligible tasks are sent exactly when nothing hinders them. -/
theorem sends_eq_iff_unhindered :
    sends ((sendErrandTasks T blockNumber accountIds outcome).run s).log =
        ((s.tasks.get blockNumber).filter (eligible s accountIds)).map (fun item =>
          (item.descriptionCid, item.errandId)) ↔
      Unhindered s blockNumber accountIds := by
  have found := filter_takeWhile_eq_iff (q := wellEncoded s)
    (registered_of_eligible s accountIds) (s.tasks.get blockNumber)
  rw [(sendErrandTasks_reports T s blockNumber accountIds outcome).1]
  unfold Unhindered
  rw [← found]
  constructor
  · intro same
    -- what is sent is a part of what is eligible, so equal lengths suffice
    apply (filter_takeWhile_sublist _ _ _ _).eq_of_length
    simpa using congrArg List.length same
  · intro same
    rw [same]

theorem unhindered_wellEncoded (unhindered : Unhindered s blockNumber accountIds) :
    ∀ item ∈ s.tasks.get blockNumber,
      eligible s accountIds item = true → wellEncoded s item = true := by
  intro item hitem he
  obtain ⟨pre, post, htasks⟩ := List.append_of_mem hitem
  exact (unhindered pre item post htasks he).2

/-- The loop numbers its tasks, and the numbers hinder nothing. -/
theorem unhindered_reaches (unhindered : Unhindered s blockNumber accountIds) :
    (((s.tasks.get blockNumber).zipIdx.takeWhile fun item => registered s item.1).filter
        fun item => eligible s accountIds item.1 && wellEncoded s item.1) =
      (s.tasks.get blockNumber).zipIdx.filter fun item => eligible s accountIds item.1 := by
  apply (filter_takeWhile_eq_iff
    (fun item : TaskInfo × Nat => registered_of_eligible s accountIds item.1) _).mpr
  intro pre item post hitems he
  have tasks : s.tasks.get blockNumber = pre.map Prod.fst ++ item.1 :: post.map Prod.fst := by
    rw [← List.zipIdx_map_fst 0 (s.tasks.get blockNumber), hitems]
    simp
  have alone := unhindered (pre.map Prod.fst) item.1 (post.map Prod.fst) tasks he
  exact ⟨fun earlier h => alone.1 _ (List.mem_map_of_mem h), alone.2⟩

theorem submissions_of_unhindered (unhindered : Unhindered s blockNumber accountIds) :
    submissions ((sendErrandTasks T blockNumber accountIds outcome).run s).log =
      (s.tasks.get blockNumber).zipIdx.flatMap fun item =>
        if eligible s accountIds item.1 && (outcome item.2).sent then
          taskSubmissions (delegateKeys s accountIds item.1) item.1
        else [] := by
  have encoded : ∀ item ∈ (s.tasks.get blockNumber).zipIdx.takeWhile (fun item =>
      registered s item.1), eligible s accountIds item.1 = true →
        wellEncoded s item.1 = true := by
    intro item hitem
    have member := List.mem_map_of_mem (f := Prod.fst) ((List.takeWhile_sublist _).subset hitem)
    rw [List.zipIdx_map_fst] at member
    exact unhindered_wellEncoded s blockNumber accountIds unhindered item.1 member
  rw [(sendErrandTasks_reports T s blockNumber accountIds outcome).2]
  -- what each round submits is what its task asks for, and only eligible ones ask
  calc _ = ((s.tasks.get blockNumber).zipIdx.takeWhile fun item =>
          registered s item.1).flatMap fun item =>
        if eligible s accountIds item.1 && (outcome item.2).sent then
          taskSubmissions (delegateKeys s accountIds item.1) item.1
        else [] :=
      List.flatMap_congr fun item hitem => roundSubmissions_eq s accountIds _
        (encoded item hitem)
        (List.mem_takeWhile_imp (p := fun item : TaskInfo × Nat => registered s item.1) hitem)
    _ = ((s.tasks.get blockNumber).zipIdx.filter fun item =>
          eligible s accountIds item.1).flatMap fun item =>
        if eligible s accountIds item.1 && (outcome item.2).sent then
          taskSubmissions (delegateKeys s accountIds item.1) item.1
        else [] := by
      rw [← unhindered_reaches s blockNumber accountIds unhindered]
      symm
      apply flatMap_filter_of_nil
      intro item hitem missed
      cases h : eligible s accountIds item.1 with
      | true => rw [h, encoded item hitem h] at missed; cases missed
      | false => rfl
    _ = _ := flatMap_filter_of_nil fun item _ missed => by rw [missed]; rfl

theorem dispatched_alike_iff_unhindered :
    DispatchedAlike s accountIds blockNumber outcome
        ((sendErrandTasks T blockNumber accountIds outcome).run s).log ↔
      Unhindered s blockNumber accountIds := by
  have sent := sends_eq_iff_unhindered T s blockNumber accountIds outcome
  constructor
  · intro alike
    exact sent.mp alike.sends_eq
  · intro unhindered
    exact ⟨sent.mpr unhindered,
      submissions_of_unhindered T s blockNumber accountIds outcome unhindered⟩

end Condition

/-! ## A name released in the block of its task -/

/-- Alice gives a task to Bob and one to Charlie, and Bob's name is released. -/
def releasedName : List (Extrinsic AccountId32) :=
  bobDelegates ++
    [submit 2 charlie (.requestDelegate [2] [9]), submit 3 charlie (.updateDelegateStatus charlie),
      submit 4 alice (.beginTask [1] [10] 5), submit 5 alice (.beginTask [2] [12] 7),
      submit 6 bob (.unreserve [1] bob)]

/-- The worker with Charlie's key does not send Charlie's task. -/
theorem releasedName_task_stranded :
    let s := (exec (dispatch runtime) localTestnet releasedName).final
    let outcome : Nat → TaskOutcome Unit := fun _ => ⟨true, fun _ => true⟩
    ¬ DispatchedAlike s [(charlie, ())] 1 outcome
      ((sendErrandTasks runtime 1 [(charlie, ())] outcome).run s).log := by
  intro s outcome alike
  have same := alike.sends_eq
  revert same
  decide +kernel

end AbcDemo.Offchain
