import AbcDemo.Pallet.Runtime

/-! # What a failing `begin_task` leaves behind

A failing call leaves the state as it was, unless it failed after it had taken
the task list of its block: then that list is gone, with every task other
clients had placed on it.
-/

namespace AbcDemo.Tasks

open Foundation Pallet

variable {AccountId Ledger : Type} [DecidableEq AccountId] [Inhabited AccountId]
  [Codec AccountId] {T : Trait AccountId Ledger}

/-- The call passes the checks that only read, in a block with a task list. -/
def ReachesTaskList (env : Env) (s : State AccountId Ledger) (origin : RawOrigin AccountId)
    (name : DelegatorName) (cid : Cid) : Prop :=
  ∃ client delegator, origin = .signed client ∧
    s.delegateAccounts.find name = some delegator ∧ s.delegates.find delegator = some true ∧
    s.errands.find cid = none ∧ (s.tasks.find env.blockNumber).isSome

omit [DecidableEq AccountId] [Inhabited AccountId] [Codec AccountId] in
theorem ReachesTaskList.listed {env : Env} {s : State AccountId Ledger}
    {origin : RawOrigin AccountId} {name : DelegatorName} {cid : Cid}
    (h : ReachesTaskList env s origin name cid) : (s.tasks.find env.blockNumber).isSome := by
  rcases h with ⟨_, _, _, _, _, _, listed⟩
  exact listed

/-- A failure after the checks that only read always loses the list. -/
theorem beginTask_failed_of_reaches {env : Env} {s : State AccountId Ledger}
    {origin : RawOrigin AccountId} {name : DelegatorName} {cid : Cid} {fee : UInt32}
    {o : CallOutcome AccountId Ledger} (h : Effect T env s origin (.beginTask name cid fee) o)
    (failed : ¬ o.Succeeds) (reaches : ReachesTaskList env s origin name cid) :
    o.after = s.taskListTaken env := by
  cases h with
  | begun => exact absurd (Outcome.succeeds_ok _ _ _) failed
  | taskListTaken => rfl
  | rejected refused =>
      rcases reaches with ⟨client, delegator, rfl, named, active, fresh, listed⟩
      exact absurd ⟨delegator, named, active, fresh, .inl listed⟩ refused

/-- Every other failure leaves the state alone. -/
theorem beginTask_failed_of_not_reaches {env : Env} {s : State AccountId Ledger}
    {origin : RawOrigin AccountId} {name : DelegatorName} {cid : Cid} {fee : UInt32}
    {o : CallOutcome AccountId Ledger} (h : Effect T env s origin (.beginTask name cid fee) o)
    (failed : ¬ o.Succeeds) (clean : ¬ ReachesTaskList env s origin name cid) :
    o.after = s := by
  cases h with
  | begun => exact absurd (Outcome.succeeds_ok _ _ _) failed
  | taskListTaken named active fresh listed =>
      exact absurd ⟨_, _, rfl, named, active, fresh, listed⟩ clean
  | rejected => rfl

omit [DecidableEq AccountId] [Inhabited AccountId] [Codec AccountId] in
theorem taskListTaken_ne {env : Env} {s : State AccountId Ledger}
    (listed : (s.tasks.find env.blockNumber).isSome) : s.taskListTaken env ≠ s := by
  intro h
  have hremove : s.tasks.remove env.blockNumber = s.tasks := congrArg State.tasks h
  rw [StorageMap.remove_eq_self_iff] at hremove
  simp [hremove] at listed

theorem beginTask_error_atomic_iff (mode : Bool) (listed : List AccountId32) (balances : Ledger)
    (xs : List (Extrinsic AccountId)) (env : Env) (origin : RawOrigin AccountId)
    (name : DelegatorName) (cid : Cid) (fee : UInt32) :
    let s := (exec (dispatch T) (genesis mode listed balances) xs).final
    let t := fire (dispatch T) s ⟨env, origin, .beginTask name cid fee⟩
    ¬ t.outcome.Succeeds → (t.after = s ↔ ¬ ReachesTaskList env s origin name cid) := by
  intro s t failed
  have heffect := dispatch_effect T s ⟨env, origin, .beginTask name cid fee⟩
  constructor
  · intro same reaches
    have lost : t.after = s.taskListTaken env := beginTask_failed_of_reaches heffect failed reaches
    exact taskListTaken_ne reaches.listed (lost.symm.trans same)
  · exact beginTask_failed_of_not_reaches heffect failed

/-- Alice's task is accepted in the block, on Bob's name. -/
def acceptedTask : List (Extrinsic AccountId32) :=
  bobDelegates ++ [submit 2 alice (.beginTask [1] [10] 5)]

theorem beginTask_error_atomic_iff_unknown_name :
    let s := (exec (dispatch runtime) localTestnet acceptedTask).final
    let t := fire (dispatch runtime) s (submit 3 charlie (.beginTask [2] [12] 5))
    ¬ t.outcome.Succeeds ∧
      (t.after = s ↔ ¬ ReachesTaskList (firstBlock 3) s (.signed charlie) [2] [12]) := by
  intro s t
  have failed : ¬ t.outcome.Succeeds := by decide +kernel
  exact ⟨failed, beginTask_error_atomic_iff (T := runtime) false [alice, bob, charlie, dave] endowed
    acceptedTask (firstBlock 3) (.signed charlie) [2] [12] 5 failed⟩

/-- A task without a fee is refused and takes Alice's task with it. -/
theorem acceptedTask_lost :
    let s := (exec (dispatch runtime) localTestnet acceptedTask).final
    let t := fire (dispatch runtime) s (submit 3 charlie (.beginTask [1] [12] 0))
    ¬ t.outcome.Succeeds ∧ t.after ≠ s := by
  intro s t
  refine ⟨by decide +kernel, fun same => ?_⟩
  have before : (s.tasks.get 1).length = 1 := by decide +kernel
  have after : (t.after.tasks.get 1).length = 0 := by decide +kernel
  rw [same, before] at after
  cases after

end AbcDemo.Tasks
