import AbcDemo.Pallet.History

/-! # Events come from successful calls

A dispatchable deposits its event last, so a call that fails has deposited
none, whatever it had written by then.
-/

namespace AbcDemo.Pallet

open Foundation Dispatch

variable {AccountId Ledger : Type}

def Observation.IsDeposit : Observation AccountId → Prop
  | .deposited _ => True
  | _ => False

theorem mute_ensureSigned (origin : RawOrigin AccountId) :
    Mute Observation.IsDeposit (ensureSigned origin : PalletM AccountId Ledger AccountId) := by
  cases origin with
  | signed account => exact mute_pure account
  | root => exact mute_reject _
  | none => exact mute_reject _

theorem mute_reserve (T : Trait AccountId Ledger) (who : AccountId) (value : Nat) :
    Mute Observation.IsDeposit (reserve T who value) := by
  intro s w hw
  rw [run_reserve] at hw
  cases h : T.currency.reserve who value s.balances <;>
    simp_all [Observation.IsDeposit]

theorem muteOnError_depositEvent (event : Event AccountId) :
    MuteOnError Observation.IsDeposit
      (depositEvent event : PalletM AccountId Ledger Unit) :=
  muteOnError_emit _

variable [DecidableEq AccountId] [Inhabited AccountId] [Codec AccountId]
  (T : Trait AccountId Ledger)

omit [Inhabited AccountId] [Codec AccountId] in
theorem muteOnError_requestDelegate (env : Env) (origin : RawOrigin AccountId)
    (name : DelegatorName) (address : NetAddress) :
    MuteOnError Observation.IsDeposit
      (requestDelegate env origin name address : PalletM AccountId Ledger Unit) := by
  refine .bind (mute_ensureSigned origin) fun sender => ?_
  refine .bind (mute_query _) fun _ => .bind (mute_ensure _ _) fun _ => ?_
  refine .bind (mute_query _) fun known => ?_
  have registered : MuteOnError Observation.IsDeposit (do
      update fun s => { s with delegates := s.delegates.insert sender false }
      update fun s =>
        { s with delegateNetAddress := s.delegateNetAddress.insert sender address }
      update fun s => { s with delegateAccounts := s.delegateAccounts.insert name sender }
      depositEvent (.delegateRequested sender name) : PalletM AccountId Ledger Unit) :=
    .bind (mute_update _) fun _ => .bind (mute_update _) fun _ => .bind (mute_update _) fun _ =>
      muteOnError_depositEvent _
  cases known with
  | true =>
      exact .bind (mute_query _) fun _ => .bind (mute_update _) fun _ =>
        .bind (mute_update _) fun _ => registered
  | false => exact .bind (mute_update _) fun _ => registered

omit [Inhabited AccountId] [Codec AccountId] in
theorem muteOnError_updateDelegateStatus (origin : RawOrigin AccountId) (updater : AccountId) :
    MuteOnError Observation.IsDeposit
      (updateDelegateStatus origin updater : PalletM AccountId Ledger Unit) :=
  .bind (mute_ensureSigned origin) fun _ => .bind (mute_ensure _ _) fun _ =>
    .bind (mute_query _) fun _ => .bind (mute_ensure _ _) fun _ => .bind (mute_update _) fun _ =>
      muteOnError_depositEvent _

theorem muteOnError_beginTask (env : Env) (origin : RawOrigin AccountId) (name : DelegatorName)
    (cid : Cid) (fee : UInt32) :
    MuteOnError Observation.IsDeposit (beginTask T env origin name cid fee) := by
  refine .bind (mute_ensureSigned origin) fun client => ?_
  refine .bind (mute_query _) fun _ => .bind (mute_ensure _ _) fun _ => ?_
  refine .bind (mute_query _) fun _ => .bind (mute_ensure _ _) fun _ => ?_
  refine .bind (mute_query _) fun delegator => ?_
  refine .bind (mute_query _) fun _ => .bind (mute_ensure _ _) fun _ => ?_
  refine .bind (mute_query _) fun _ => .bind (mute_ensure _ _) fun _ => ?_
  refine .bind (mute_query _) fun listed => ?_
  have began : MuteOnError Observation.IsDeposit (do
      update fun s => { s with clientDelegate := s.clientDelegate.insert client delegator }
      depositEvent (.taskBegan client cid delegator) : PalletM AccountId Ledger Unit) :=
    .bind (mute_update _) fun _ => muteOnError_depositEvent _
  cases listed with
  | true =>
      refine .bind (mute_query _) fun taskArray => .bind (mute_update _) fun _ => ?_
      refine .bind (mute_forM _ (fun _ => mute_ensure _ _) taskArray) fun _ => ?_
      exact .bind (mute_ensure _ _) fun _ => .bind (mute_reserve T client _) fun _ =>
        .bind (mute_update _) fun _ => .bind (mute_update _) fun _ => began
  | false =>
      exact .bind (mute_ensure _ _) fun _ => .bind (mute_reserve T client _) fun _ =>
        .bind (mute_update _) fun _ => .bind (mute_update _) fun _ => began

theorem muteOnError_initErrand (origin : RawOrigin AccountId) (client : AccountId)
    (errandId : ErrandId) (cid : Cid) :
    MuteOnError Observation.IsDeposit
      (initErrand origin client errandId cid : PalletM AccountId Ledger Unit) := by
  refine .bind (mute_ensureSigned origin) fun sender => ?_
  refine .bind (mute_query _) fun _ => .bind (mute_ensure _ _) fun _ => ?_
  refine .bind (mute_query _) fun _ => .bind (mute_ensure _ _) fun _ => ?_
  refine .bind (mute_update _) fun _ => ?_
  have listed : Mute Observation.IsDeposit (addProcessing cid : PalletM AccountId Ledger Unit) :=
    (mute_query _).bind fun _ => mute_update _
  exact .bind listed fun _ => muteOnError_depositEvent _

omit [DecidableEq AccountId] in
/-- A refused vote and a late one report nothing at all. -/
theorem muteOnError_updateErrand (origin : RawOrigin AccountId) (cid : Cid) (result : Bytes) :
    MuteOnError Observation.IsDeposit (updateErrand T origin cid result) := by
  intro s failed w hw
  rw [updateErrand_run] at failed hw
  cases hv : verdict s cid origin with
  | refused e => simp [hv, Verdict.carryOut] at hw
  | late sender => simp [hv, Verdict.carryOut] at hw
  | finish => simp [hv, Verdict.carryOut] at failed
  | count sender => simp [hv, Verdict.carryOut] at failed
  | elect sender => simp [hv, Verdict.carryOut] at failed

/-- A failed call has deposited nothing. -/
theorem dispatch_failed_silent (x : Extrinsic AccountId) (s : State AccountId Ledger)
    (failed : ¬ ((dispatch T x).run s).Succeeds) (event : Event AccountId) :
    .deposited event ∉ ((dispatch T x).run s).log := by
  have silent : MuteOnError Observation.IsDeposit (dispatch T x) := by
    obtain ⟨env, origin, call⟩ := x
    cases call with
    | requestDelegate name address => exact muteOnError_requestDelegate env origin name address
    | updateDelegateStatus updater => exact muteOnError_updateDelegateStatus origin updater
    | beginTask name cid fee => exact muteOnError_beginTask T env origin name cid fee
    | initErrand client errandId cid => exact muteOnError_initErrand origin client errandId cid
    | updateErrand cid result => exact muteOnError_updateErrand T origin cid result
    | unreserve name client =>
        exact .bind (mute_update _) fun _ => .bind (mute_update _) fun _ =>
          .bind (mute_query _) fun _ => .bind (mute_update _) fun _ => (mute_update _).onError
  exact fun hmem => silent s failed _ hmem trivial

theorem chain_silent {g : State AccountId Ledger} {xs : List (Extrinsic AccountId)}
    {t : Step AccountId Ledger} (h : t ∈ (exec (dispatch T) g xs).transitions)
    (failed : ¬ t.outcome.Succeeds) (event : Event AccountId) :
    .deposited event ∉ t.outcome.log := by
  rw [(exec_mem (dispatch T) h).1] at failed ⊢
  exact dispatch_failed_silent T t.input t.before failed event

end AbcDemo.Pallet
