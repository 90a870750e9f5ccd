import AbcDemo.Pallet.Runtime

/-! # Who holds a delegator name

A request is checked against the accounts that are registered, not against the
names, and writes the name in any case. A name therefore stays with its account
exactly as long as no unregistered account requests it.
-/

namespace AbcDemo.Registry

open Foundation Pallet

variable {AccountId Ledger : Type}

/-- A call `unreserve(name, _)`. -/
def frees (name : DelegatorName) : Call AccountId → Bool
  | .unreserve name' _ => name' = name
  | _ => false

/-- The call is no request of the name that another account could get through. -/
def SparesName (name : DelegatorName) (a : AccountId) (s : State AccountId Ledger) :
    RawOrigin AccountId → Call AccountId → Prop
  | .signed sender, .requestDelegate name' _ =>
      name' = name → s.delegates.find sender = none → sender = a
  | _, _ => True

variable [DecidableEq AccountId] [Inhabited AccountId] [Codec AccountId]
  {T : Trait AccountId Ledger}

theorem name_kept_of_effect {s : State AccountId Ledger} {env : Env}
    {origin : RawOrigin AccountId} {call : Call AccountId} {o : CallOutcome AccountId Ledger}
    (h : Effect T env s origin call o) {name : DelegatorName} {a : AccountId}
    (bound : s.delegateAccounts.find name = some a) (unfreed : frees name call = false) :
    o.after.delegateAccounts.find name = some a ↔ SparesName name a s origin call := by
  cases h
  case requested sender name' address fresh =>
    by_cases hn : name = name'
    · simp [SparesName, hn, fresh]
    · simp [SparesName, hn, Ne.symm hn, bound]
  case released name' client =>
    have hn : name ≠ name' := by simpa [frees, eq_comm] using unfreed
    apply iff_of_true
    · simp [hn, bound]
    · cases origin <;> trivial
  case rejected e log unpaid refused =>
    apply iff_of_true bound
    cases origin with
    | signed sender =>
        cases call with
        | requestDelegate name' address => exact fun _ fresh => absurd fresh refused
        | _ => trivial
    | root => trivial
    | none => trivial
  all_goals exact iff_of_true bound trivial

/-- A successful `begin_task` naming `name` is for the account the name is bound to. -/
theorem routed_of_bound {g : State AccountId Ledger} {xs : List (Extrinsic AccountId)}
    {t : Step AccountId Ledger} (ht : t ∈ (exec (dispatch T) g xs).transitions)
    {name : DelegatorName} {a c : AccountId} {cid : Cid} {fee : UInt32}
    (bound : t.before.delegateAccounts.find name = some a)
    (begun : t.accepted = some (c, .beginTask name cid fee)) :
    t.after.clientDelegate.find c = some a ∧
      .deposited (.taskBegan c cid a) ∈ t.outcome.log := by
  obtain ⟨heffect, hok⟩ := accepted_effect T ht begun
  obtain ⟨d, _, task⟩ := heffect.beginTask_ok hok
  obtain rfl : d = a := Option.some.inj (task.named.symm.trans bound)
  rw [Transition.after, task.outcome]
  simp

/-- From `s` on the name is bound to `a` in every state, and every successful
`begin_task` naming it is for `a`. -/
structure NameHeld (T : Trait AccountId Ledger) (name : DelegatorName) (a : AccountId)
    (s : State AccountId Ledger) (ys : List (Extrinsic AccountId)) : Prop where
  bound : ∀ ys', ys' <+: ys →
    (exec (dispatch T) s ys').final.delegateAccounts.find name = some a
  routed : ∀ t ∈ (exec (dispatch T) s ys).transitions, ∀ c cid fee,
    Step.accepted t = some (c, .beginTask name cid fee) →
    t.after.clientDelegate.find c = some a ∧ .deposited (.taskBegan c cid a) ∈ t.outcome.log

theorem name_held_iff_spared (mode : Bool) (listed : List AccountId32) (balances : Ledger)
    (xs ys : List (Extrinsic AccountId)) (name : DelegatorName) (a : AccountId)
    (bound : (exec (dispatch T) (genesis mode listed balances)
      xs).final.delegateAccounts.find name = some a)
    (unfreed : ∀ y ∈ ys, frees name y.call = false) :
    let s := (exec (dispatch T) (genesis mode listed balances) xs).final
    NameHeld T name a s ys ↔
      ∀ t ∈ (exec (dispatch T) s ys).transitions,
        SparesName name a t.before t.input.origin t.input.call := by
  intro s
  have step (t) (ht : t ∈ (exec (dispatch T) s ys).transitions)
      (before : t.before.delegateAccounts.find name = some a) :=
    name_kept_of_effect (chain_effect T ht) before (unfreed t.input (exec_mem_input _ ht))
  have kept := exec_kept_iff (dispatch T) (P := fun s => s.delegateAccounts.find name = some a)
    bound ys
  constructor
  · intro held t ht
    obtain ⟨before, after⟩ := exec_kept_at (dispatch T)
      (P := fun s => s.delegateAccounts.find name = some a) held.bound ht
    exact (step t ht before).mp after
  · intro spared
    have held := kept.mpr fun t ht before => (step t ht before).mpr (spared t ht)
    refine ⟨held, fun t ht c cid fee begun => routed_of_bound ht ?_ begun⟩
    exact (exec_kept_at (dispatch T) (P := fun s => s.delegateAccounts.find name = some a)
      held ht).1

/-- Bob holds the name and no other account requests it. -/
theorem name_held_iff_spared_bob :
    let s := (exec (dispatch runtime) localTestnet bobDelegates).final
    let ys := [submit 2 alice (.beginTask [1] [10] 5)]
    s.delegateAccounts.find [1] = some bob ∧ (∀ y ∈ ys, frees [1] y.call = false) ∧
      (NameHeld runtime [1] bob s ys ↔
        ∀ t ∈ (exec (dispatch runtime) s ys).transitions,
          SparesName [1] bob t.before t.input.origin t.input.call) := by
  intro s ys
  have bound : s.delegateAccounts.find [1] = some bob := by decide +kernel
  have unfreed : ∀ y ∈ ys, frees [1] y.call = false := by decide
  exact ⟨bound, unfreed, name_held_iff_spared false [alice, bob, charlie, dave] endowed
    bobDelegates ys [1] bob bound unfreed⟩

/-- Charlie requests the name that Bob registered. -/
theorem bobDelegates_name_taken :
    let s := (exec (dispatch runtime) localTestnet bobDelegates).final
    let ys := [submit 2 charlie (.requestDelegate [1] [9])]
    s.delegateAccounts.find [1] = some bob ∧ (∀ y ∈ ys, frees [1] y.call = false) ∧
      ¬ NameHeld runtime [1] bob s ys := by
  intro s ys
  refine ⟨by decide +kernel, by decide, fun held => ?_⟩
  have bound := held.bound ys (List.prefix_refl ys)
  revert bound
  decide +kernel

end AbcDemo.Registry
