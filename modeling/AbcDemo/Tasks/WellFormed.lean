import AbcDemo.Errands.Lifecycle

/-! # What a block's task list contains

The duplicate check of a begun task runs over a list that has been taken out of
storage. Whether it passes or not, what is stored afterwards is a list of
distinct tasks with fees, and never one for an errand that is already there.
-/

namespace AbcDemo.Tasks

open Foundation Pallet Errands

variable {AccountId Ledger : Type} [DecidableEq AccountId] [Inhabited AccountId]
  [Codec AccountId] {T : Trait AccountId Ledger}

omit [Inhabited AccountId] in
theorem mem_tasks_begun_iff {s : State AccountId Ledger} {env : Env} {client delegator : AccountId}
    {name : DelegatorName} {cid : Cid} {fee : UInt32} {balances : Ledger} {b : BlockNumber}
    {task : TaskInfo} :
    task ∈ (s.begun T env client delegator name cid fee balances).tasks.get b ↔
      task ∈ s.tasks.get b ∨ b = env.blockNumber ∧
        task = ⟨Codec.encode client, name, cid, generateErrandId T env delegator, fee⟩ := by
  by_cases hb : b = env.blockNumber <;> simp [hb]

omit [DecidableEq AccountId] [Inhabited AccountId] [Codec AccountId] in
theorem mem_tasks_taken_iff {s : State AccountId Ledger} {env : Env} {b : BlockNumber}
    {task : TaskInfo} :
    task ∈ (s.taskListTaken env).tasks.get b ↔ b ≠ env.blockNumber ∧ task ∈ s.tasks.get b := by
  by_cases hb : b = env.blockNumber <;> simp [hb]

/-- The task has a fee and names a client whose fee slot is filled. -/
structure Billed (s : State AccountId Ledger) (task : TaskInfo) : Prop where
  fee : 0 < task.fee
  client : ∃ c, Codec.decode task.client = some c ∧ 0 < s.clientTaskFee.get c

structure WellFormed (s : State AccountId Ledger) : Prop where
  distinct : ∀ b, ((s.tasks.get b).map (·.descriptionCid)).Nodup
  billed : ∀ b, ∀ task ∈ s.tasks.get b, Billed s task

omit [Inhabited AccountId] in
/-- Another task of a client with a fee only refills a slot. -/
theorem Billed.begun {s : State AccountId Ledger} {task : TaskInfo} (h : Billed s task)
    {env : Env} {client delegator : AccountId} {name : DelegatorName} {cid : Cid} {fee : UInt32}
    {balances : Ledger} (positive : 0 < fee) :
    Billed (s.begun T env client delegator name cid fee balances) task := by
  obtain ⟨c, hc, hfee⟩ := h.client
  refine ⟨h.fee, c, hc, ?_⟩
  by_cases hcc : c = client
  · simpa [hcc] using positive
  · simpa [hcc] using hfee

omit [Inhabited AccountId] in
theorem wellFormed_begun {s : State AccountId Ledger} (h : WellFormed s) {env : Env}
    {client delegator : AccountId} {name : DelegatorName} {cid : Cid} {fee : UInt32}
    {balances : Ledger} (positive : 0 < fee)
    (unlisted : ∀ task ∈ s.tasks.get env.blockNumber, task.descriptionCid ≠ cid) :
    WellFormed (s.begun T env client delegator name cid fee balances) where
  distinct b := by
    by_cases hb : b = env.blockNumber
    · subst hb
      simpa [List.nodup_append] using ⟨h.distinct env.blockNumber, unlisted⟩
    · simpa [hb] using h.distinct b
  billed b task htask := by
    rcases mem_tasks_begun_iff.mp htask with old | ⟨_, rfl⟩
    · exact (h.billed b task old).begun positive
    · exact ⟨positive, client, Codec.decode_encode client, by simpa using positive⟩

omit [DecidableEq AccountId] [Inhabited AccountId] in
/-- A failed check loses the list of the current block, and nothing else. -/
theorem wellFormed_taskListTaken {s : State AccountId Ledger} (h : WellFormed s) (env : Env) :
    WellFormed (s.taskListTaken env) where
  distinct b := by
    by_cases hb : b = env.blockNumber
    · simp [hb]
    · simpa [hb] using h.distinct b
  billed b task htask := by
    obtain ⟨fee, client⟩ := h.billed b task (mem_tasks_taken_iff.mp htask).2
    exact ⟨fee, client⟩

theorem wellFormed_of_effect {s : State AccountId Ledger} {env : Env}
    {origin : RawOrigin AccountId} {call : Call AccountId} {o : CallOutcome AccountId Ledger}
    (heffect : Effect T env s origin call o) (h : WellFormed s) : WellFormed o.after := by
  cases heffect
  case begun client delegator name cid fee balances named active fresh unlisted positive funded =>
    exact wellFormed_begun h positive unlisted
  case taskListTaken client delegator name cid fee e log named active fresh listed unpaid =>
    exact wellFormed_taskListTaken h env
  all_goals exact ⟨h.distinct, fun b task htask => ⟨(h.billed b task htask).fee,
    (h.billed b task htask).client⟩⟩

/-! ## Tasks of errands that are there -/

/-- No task for `cid` is listed that was not listed in `s`. -/
def ListsNoNew (cid : Cid) (s s' : State AccountId Ledger) : Prop :=
  ∀ b, ∀ task ∈ s'.tasks.get b, task.descriptionCid = cid → task ∈ s.tasks.get b

theorem listsNoNew_of_effect {s₀ s : State AccountId Ledger} {env : Env}
    {origin : RawOrigin AccountId} {call : Call AccountId} {o : CallOutcome AccountId Ledger}
    (heffect : Effect T env s origin call o) {cid : Cid} (present : (s.errands.find cid).isSome)
    (h : ListsNoNew cid s₀ s) : ListsNoNew cid s₀ o.after := by
  cases heffect
  case begun client delegator name cid' fee balances named active fresh unlisted positive funded =>
    intro b task htask htask_cid
    rcases mem_tasks_begun_iff.mp htask with old | ⟨_, rfl⟩
    · exact h b task old htask_cid
    · subst htask_cid
      simp [fresh] at present
  case taskListTaken client delegator name cid' fee e log named active fresh listed unpaid =>
    exact fun b task htask => h b task (mem_tasks_taken_iff.mp htask).2
  all_goals exact h

theorem listsNoNew_of_run {s : State AccountId Ledger} {cid : Cid}
    (present : (s.errands.find cid).isSome) (xs : List (Extrinsic AccountId)) :
    ListsNoNew cid s (exec (dispatch T) s xs).final := by
  have h : ((exec (dispatch T) s xs).final.errands.find cid).isSome ∧
      ListsNoNew cid s (exec (dispatch T) s xs).final := by
    refine chain_invariant T (P := fun s' =>
      (s'.errands.find cid).isSome ∧ ListsNoNew cid s s') ?_ ?_ xs
    · exact ⟨present, fun b task htask _ => htask⟩
    · intro s' env origin call o heffect h
      exact ⟨errand_present_of_effect heffect h.1, listsNoNew_of_effect heffect h.1 h.2⟩
  exact h.2

theorem tasks_wellFormed (mode : Bool) (listed : List AccountId32) (balances : Ledger)
    (xs : List (Extrinsic AccountId)) :
    let s := (exec (dispatch T) (genesis mode listed balances) xs).final
    (∀ b, ((s.tasks.get b).map (·.descriptionCid)).Nodup) ∧
    (∀ b, ∀ task ∈ s.tasks.get b,
      0 < task.fee ∧ ∃ c, Codec.decode task.client = some c ∧ 0 < s.clientTaskFee.get c) ∧
    ∀ cid, s.errands.contains cid = true → ∀ ys,
      (∀ t ∈ (exec (dispatch T) s ys).transitions, ∀ c name fee,
        Step.accepted t ≠ some (c, .beginTask name cid fee)) ∧
      ∀ b, ∀ task ∈ (exec (dispatch T) s ys).final.tasks.get b,
        task.descriptionCid = cid → task ∈ s.tasks.get b := by
  intro s
  have h : WellFormed s := by
    apply chain_invariant T (P := WellFormed) _ fun _ _ _ _ _ heffect =>
      wellFormed_of_effect heffect
    exact ⟨by simp [genesis], by simp [genesis]⟩
  refine ⟨h.distinct, fun b task htask => ⟨(h.billed b task htask).fee,
    (h.billed b task htask).client⟩, fun cid present ys => ⟨?_, listsNoNew_of_run present ys⟩⟩
  intro t ht c name fee haccepted
  obtain ⟨heffect, hok⟩ := accepted_effect T ht haccepted
  obtain ⟨_, _, task⟩ := heffect.beginTask_ok hok
  obtain ⟨_, is, hbefore⟩ := exec_mem (dispatch T) ht
  have there : (t.before.errands.find cid).isSome := by
    rw [← hbefore]
    exact errand_present_of_run present is
  rw [task.fresh] at there
  cases there

end AbcDemo.Tasks
