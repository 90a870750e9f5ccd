import AbcDemo.Pallet.Runtime

/-! # Who touches a registration

The three entries under an account are written by that account's own calls,
with one exception: a release removes entries by its arguments and does not
look at its origin. The condition below is what a release must not hit for the
frame law to survive it.
-/

namespace AbcDemo.Registry

open Foundation Pallet

variable {AccountId Ledger : Type} [DecidableEq AccountId] [Inhabited AccountId]
  [Codec AccountId] {T : Trait AccountId Ledger}

/-- The entries under `a` are the same in both states, presence and value. -/
structure KeepsRegistration (a : AccountId) (s s' : State AccountId Ledger) : Prop where
  delegates : s'.delegates.find a = s.delegates.find a
  delegateNetAddress : s'.delegateNetAddress.find a = s.delegateNetAddress.find a
  clientDelegate : s'.clientDelegate.find a = s.clientDelegate.find a

/-- The call is no release that finds something of `a` to remove: neither by
naming `a` as its client nor by a delegator name that reads as `a`. -/
def SparesRegistration (a : AccountId) (s : State AccountId Ledger) : Call AccountId → Prop
  | .unreserve name client =>
      (client = a → s.delegates.find a = none ∧ s.clientDelegate.find a = none) ∧
        (s.delegateAccounts.get name = a → s.delegateNetAddress.find a = none)
  | _ => True

omit [Codec AccountId] in
theorem keepsRegistration_released_iff (s : State AccountId Ledger) (a : AccountId)
    (name : DelegatorName) (client : AccountId) :
    KeepsRegistration a s (s.released name client) ↔
      SparesRegistration a s (.unreserve name client) := by
  constructor
  · intro h
    rcases h with ⟨hd, hn, hc⟩
    exact ⟨fun h => ⟨(StorageMap.find_remove_eq_iff _ _ _).mp hd h,
        (StorageMap.find_remove_eq_iff _ _ _).mp hc h⟩,
      (StorageMap.find_remove_eq_iff _ _ _).mp hn⟩
  · intro h
    rcases h with ⟨hclient, hname⟩
    exact ⟨(StorageMap.find_remove_eq_iff _ _ _).mpr fun h => (hclient h).1,
      (StorageMap.find_remove_eq_iff _ _ _).mpr hname,
      (StorageMap.find_remove_eq_iff _ _ _).mpr fun h => (hclient h).2⟩

/-- A call signed by another account, case by case. -/
theorem keepsRegistration_of_effect {s : State AccountId Ledger} {env : Env} {signer : AccountId}
    {call : Call AccountId} {o : CallOutcome AccountId Ledger}
    (h : Effect T env s (.signed signer) call o) {a : AccountId} (other : signer ≠ a) :
    KeepsRegistration a s o.after ↔ SparesRegistration a s call := by
  cases h
  case released name client => exact keepsRegistration_released_iff s a name client
  case requested name address fresh =>
    exact iff_of_true ⟨by simp [Ne.symm other], by simp [Ne.symm other], rfl⟩ trivial
  case activated active known =>
    exact iff_of_true ⟨by simp [Ne.symm other], rfl, rfl⟩ trivial
  case begun delegator name cid fee balances named active fresh unlisted positive funded =>
    exact iff_of_true ⟨rfl, rfl, by simp [Ne.symm other]⟩ trivial
  case rejected e log unpaid refused =>
    apply iff_of_true ⟨rfl, rfl, rfl⟩
    cases call with
    | unreserve name client => exact absurd (admitted_unreserve _ _ _ _ _ _) refused
    | _ => trivial
  all_goals exact iff_of_true ⟨rfl, rfl, rfl⟩ trivial

theorem registration_kept_iff_spared (mode : Bool) (listed : List AccountId32)
    (balances : Ledger) (xs : List (Extrinsic AccountId)) (env : Env) (call : Call AccountId)
    (a signer : AccountId) (other : signer ≠ a) :
    let s := (exec (dispatch T) (genesis mode listed balances) xs).final
    KeepsRegistration a s (fire (dispatch T) s ⟨env, .signed signer, call⟩).after ↔
      SparesRegistration a s call := by
  intro s
  exact keepsRegistration_of_effect (dispatch_effect T s ⟨env, .signed signer, call⟩) other

/-- A release by somebody else takes a delegate off the registry. -/
def requestedByBob : List (Extrinsic AccountId32) := [submit 0 bob (.requestDelegate [1] [9])]

theorem registration_kept_iff_spared_update :
    let s := (exec (dispatch runtime) localTestnet requestedByBob).final
    alice ≠ bob ∧
      (KeepsRegistration bob s
          (fire (dispatch runtime) s (submit 1 alice (.updateDelegateStatus bob))).after ↔
        SparesRegistration bob s (.updateDelegateStatus bob)) :=
  ⟨by decide, registration_kept_iff_spared (T := runtime) false [alice, bob, charlie, dave] endowed
    requestedByBob ⟨1, List.replicate 32 0, some 1⟩ (.updateDelegateStatus bob) bob alice
    (by decide)⟩

theorem strangerRelease_registration_lost :
    let s := (exec (dispatch runtime) localTestnet requestedByBob).final
    alice ≠ bob ∧
      ¬ KeepsRegistration bob s
        (fire (dispatch runtime) s (submit 1 alice (.unreserve [1] bob))).after := by
  intro s
  refine ⟨by decide, fun h => ?_⟩
  have registered : s.delegates.find bob = some false := by decide +kernel
  have lost : (fire (dispatch runtime) s
      (submit 1 alice (.unreserve [1] bob))).after.delegates.find bob = none := by decide +kernel
  rw [h.delegates, registered] at lost
  cases lost

end AbcDemo.Registry
