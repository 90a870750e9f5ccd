import AbcDemo.Pallet.Runtime

/-! # Rolling back an application

A request writes three entries for its sender. The release that is meant to
revert it removes those and a fourth one, the delegate slot of the sender as a
client, which the request has not written. So the maps come back exactly when
there was nothing in the slot, and no address left over from before.
-/

namespace AbcDemo.Registry

open Foundation Pallet

variable {AccountId Ledger : Type}

/-- The four maps of the registry are the same. -/
structure SameRegistry (s s' : State AccountId Ledger) : Prop where
  delegates : s'.delegates = s.delegates
  delegateNetAddress : s'.delegateNetAddress = s.delegateNetAddress
  delegateAccounts : s'.delegateAccounts = s.delegateAccounts
  clientDelegate : s'.clientDelegate = s.clientDelegate

variable [DecidableEq AccountId] [Inhabited AccountId]

/-- Of a new registration, only what was there before it is lost. -/
theorem sameRegistry_released_iff {s : State AccountId Ledger} {env : Env} {a : AccountId}
    {name : DelegatorName} {address : NetAddress} (fresh : s.delegates.find a = none)
    (unnamed : s.delegateAccounts.find name = none) :
    SameRegistry s ((s.requested env a name address).released name a) ↔
      s.clientDelegate.find a = none ∧ s.delegateNetAddress.find a = none := by
  have named : (s.requested env a name address).delegateAccounts.get name = a := by simp
  have addresses : ((s.requested env a name address).released name a).delegateNetAddress =
      s.delegateNetAddress.remove a := by
    rw [State.released_delegateNetAddress, named, State.requested_delegateNetAddress,
      StorageMap.remove_insert]
  constructor
  · intro same
    have slot := same.clientDelegate
    have kept := same.delegateNetAddress
    rw [addresses] at kept
    exact ⟨(StorageMap.remove_eq_self_iff _ _).mp slot, (StorageMap.remove_eq_self_iff _ _).mp kept⟩
  · intro h
    obtain ⟨slot, address⟩ := h
    constructor
    · rw [State.released_delegates, State.requested_delegates, StorageMap.remove_insert]
      exact (StorageMap.remove_eq_self_iff _ _).mpr fresh
    · rw [addresses]
      exact (StorageMap.remove_eq_self_iff _ _).mpr address
    · rw [State.released_delegateAccounts, State.requested_delegateAccounts,
        StorageMap.remove_insert]
      exact (StorageMap.remove_eq_self_iff _ _).mpr unnamed
    · exact (StorageMap.remove_eq_self_iff _ _).mpr slot

variable [Codec AccountId] {T : Trait AccountId Ledger}

theorem requested_of_fresh {s : State AccountId Ledger} {env : Env} {a : AccountId}
    {name : DelegatorName} {address : NetAddress} {o : CallOutcome AccountId Ledger}
    (h : Effect T env s (.signed a) (.requestDelegate name address) o)
    (fresh : s.delegates.find a = none) :
    o.Succeeds ∧ o.after = s.requested env a name address := by
  cases h with
  | requested => exact ⟨rfl, rfl⟩
  | rejected refused => exact absurd fresh refused

theorem released_of_effect {s : State AccountId Ledger} {env : Env} {origin : RawOrigin AccountId}
    {name : DelegatorName} {client : AccountId} {o : CallOutcome AccountId Ledger}
    (h : Effect T env s origin (.unreserve name client) o) : o.after = s.released name client := by
  cases h with
  | released => rfl
  | rejected refused => exact absurd (admitted_unreserve _ _ _ _ _ _) refused

theorem rollback_restores_iff (mode : Bool) (listed : List AccountId32) (balances : Ledger)
    (xs : List (Extrinsic AccountId)) (env env' : Env) (origin : RawOrigin AccountId)
    (a : AccountId) (name : DelegatorName) (address : NetAddress)
    (fresh : (exec (dispatch T) (genesis mode listed balances) xs).final.delegates.find a = none)
    (unnamed : (exec (dispatch T) (genesis mode listed balances)
      xs).final.delegateAccounts.find name = none) :
    let s := (exec (dispatch T) (genesis mode listed balances) xs).final
    let t := fire (dispatch T) s ⟨env, .signed a, .requestDelegate name address⟩
    let u := fire (dispatch T) t.after ⟨env', origin, .unreserve name a⟩
    (t.outcome.Succeeds → SameRegistry s u.after) ↔
      s.clientDelegate.find a = none ∧ s.delegateNetAddress.find a = none := by
  intro s t u
  obtain ⟨accepted, requested⟩ :=
    requested_of_fresh (dispatch_effect T s ⟨env, .signed a, .requestDelegate name address⟩) fresh
  have released : u.after = (s.requested env a name address).released name a := by
    rw [← requested]
    exact released_of_effect (dispatch_effect T t.after ⟨env', origin, .unreserve name a⟩)
  rw [released, ← sameRegistry_released_iff fresh unnamed]
  exact forall_prop_of_true accepted

/-- Alice has no task yet; she applies, and her application is rolled back. -/
theorem rollback_restores_iff_newcomer :
    let s := (exec (dispatch runtime) localTestnet bobDelegates).final
    let t := fire (dispatch runtime) s (submit 2 alice (.requestDelegate [2] [9]))
    let u := fire (dispatch runtime) t.after (submit 3 alice (.unreserve [2] alice))
    s.delegates.find alice = none ∧ s.delegateAccounts.find [2] = none ∧
      ((t.outcome.Succeeds → SameRegistry s u.after) ↔
        s.clientDelegate.find alice = none ∧ s.delegateNetAddress.find alice = none) := by
  intro s t u
  have fresh : s.delegates.find alice = none := by decide +kernel
  have unnamed : s.delegateAccounts.find [2] = none := by decide +kernel
  exact ⟨fresh, unnamed, rollback_restores_iff (T := runtime) false [alice, bob, charlie, dave]
    endowed bobDelegates (firstBlock 2) (firstBlock 3) (.signed alice) alice [2] [9] fresh unnamed⟩

/-- Alice waits for the errand of her task with Bob when she applies as a delegate
herself. The rollback takes the task's delegate off her slot. -/
theorem waitingClient_rollback_loses_delegate :
    let xs := bobDelegates ++ [submit 2 alice (.beginTask [1] [10] 5)]
    let s := (exec (dispatch runtime) localTestnet xs).final
    let t := fire (dispatch runtime) s (submit 3 alice (.requestDelegate [2] [9]))
    let u := fire (dispatch runtime) t.after (submit 4 alice (.unreserve [2] alice))
    s.delegates.find alice = none ∧ s.delegateAccounts.find [2] = none ∧
      t.outcome.Succeeds ∧ ¬ SameRegistry s u.after := by
  intro xs s t u
  refine ⟨by decide +kernel, by decide +kernel, by decide +kernel, fun same => ?_⟩
  have waiting : s.clientDelegate.find alice = some bob := by decide +kernel
  have lost : u.after.clientDelegate.find alice = none := by decide +kernel
  rw [same.clientDelegate, waiting] at lost
  cases lost

end AbcDemo.Registry
