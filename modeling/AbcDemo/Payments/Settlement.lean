import AbcDemo.Errands.Lifecycle
import AbcDemo.Errands.Provenance

/-! # What a completed errand pays

The payment of a completed errand is read from the present slots of its client,
not from the task the errand was opened for. It is the payment of that task
exactly when the slots, the reserve and the ledger still agree with the task.
-/

namespace AbcDemo.Payments

open Foundation Pallet Errands

variable {AccountId Ledger : Type} [DecidableEq AccountId] [Inhabited AccountId]
  [Codec AccountId] {T : Trait AccountId Ledger}

/-- The errand under `cid` was last opened for a task of `c`: one begun with
`fee` while its name resolved to `d`, under the identifier generated then. -/
def OpenedFor (T : Trait AccountId Ledger) (c d : AccountId) (cid : Cid) (fee : UInt32)
    (ts : List (Step AccountId Ledger)) : Prop :=
  ∃ (pre mid post : List (Step AccountId Ledger)) (b i : Step AccountId Ledger)
    (name : DelegatorName) (signer : AccountId),
    ts = pre ++ b :: mid ++ i :: post ∧
      b.accepted = some (c, .beginTask name cid fee) ∧
      b.before.delegateAccounts.find name = some d ∧
      i.accepted = some (signer, .initErrand c (generateErrandId T b.input.env d) cid) ∧
      ∀ u ∈ post, u.inits cid = false

/-- The delegate slot of `c` reads `d`, who can receive, and the fee slot and
the reserve of `c` leave `fee` to be moved. -/
structure SlotsYield (T : Trait AccountId Ledger) (c d : AccountId) (fee : UInt32)
    (s : State AccountId Ledger) : Prop where
  delegate : s.clientDelegate.get c = d
  receives : c = d ∨ T.currency.accountExists s.balances d
  amount :
    (s.clientTaskFee.get c = fee ∧ fee.toNat ≤ T.currency.reservedBalance s.balances c) ∨
      (fee < s.clientTaskFee.get c ∧ T.currency.reservedBalance s.balances c = fee.toNat)

theorem min_eq_fee_iff (slot fee : UInt32) (reserved : Nat) :
    min slot.toNat reserved = fee.toNat ↔
      (slot = fee ∧ fee.toNat ≤ reserved) ∨ (fee < slot ∧ reserved = fee.toNat) := by
  rw [← UInt32.toNat_inj, UInt32.lt_iff_toNat_lt]
  omega

/-- The client of the payment is the one the errand was last opened for. -/
theorem settlement_of_openedFor {g : State AccountId Ledger}
    (hg : ∀ cid, g.errands.find cid = none) {c d : AccountId} {cid : Cid} {fee : UInt32}
    {xs : List (Extrinsic AccountId)}
    (h : OpenedFor T c d cid fee (exec (dispatch T) g xs).transitions) :
    let s := (exec (dispatch T) g xs).final
    s.settlement cid = some (c, s.clientDelegate.get c, (s.clientTaskFee.get c).toNat) := by
  intro s
  rcases h with ⟨pre, mid, post, b, i, name, signer, hsplit, _, _, hinit, hpost⟩
  have hwrite : lastWrite (identityWrite cid) (exec (dispatch T) g xs).transitions =
      some (some (Codec.encode c, generateErrandId T b.input.env d)) :=
    lastWrite_eq_some_iff.mpr ⟨_, i, post, hsplit,
      identityWrite_eq_some_iff.mpr ⟨signer, c, hinit, rfl⟩,
      fun u hu => identityWrite_eq_none_iff.mpr (hpost u hu)⟩
  have hid := identity_history (T := T) hg cid xs
  rw [hwrite, Option.getD_some] at hid
  obtain ⟨e, he, hpair⟩ := Option.map_eq_some_iff.mp hid
  have haccount : e.accountId = Codec.encode c := congrArg Prod.fst hpair
  simp [State.settlement, s, he, haccount]

theorem fee_pos_of_openedFor {g : State AccountId Ledger} {c d : AccountId} {cid : Cid}
    {fee : UInt32} {xs : List (Extrinsic AccountId)}
    (h : OpenedFor T c d cid fee (exec (dispatch T) g xs).transitions) : 0 < fee.toNat := by
  rcases h with ⟨pre, mid, post, b, i, name, signer, hsplit, hbegun, _⟩
  have hb : b ∈ (exec (dispatch T) g xs).transitions := by simp [hsplit]
  obtain ⟨heffect, hok⟩ := accepted_effect T hb hbegun
  obtain ⟨_, _, task⟩ := heffect.beginTask_ok hok
  exact UInt32.lt_iff_toNat_lt.mp task.positive

theorem payment_exact_iff (lawful : T.currency.Lawful) (mode : Bool) (listed : List AccountId32)
    (balances : Ledger) (xs : List (Extrinsic AccountId)) (env : Env) (sender : AccountId)
    (cid : Cid) (result : Bytes) (c d : AccountId) (fee : UInt32) :
    let r := exec (dispatch T) (genesis mode listed balances) xs
    let t := fire (dispatch T) r.final ⟨env, .signed sender, .updateErrand cid result⟩
    Completes cid t → OpenedFor T c d cid fee r.transitions →
      (T.currency.Releases c d fee.toNat r.final.balances t.after.balances ↔
        SlotsYield T c d fee r.final) := by
  intro r t completes opened
  have heffect := dispatch_effect T r.final ⟨env, .signed sender, .updateErrand cid result⟩
  obtain ⟨_, _, completion⟩ := completing_effect heffect completes.1 completes.2
  have hsettle : r.final.settlement cid =
      some (c, r.final.clientDelegate.get c, (r.final.clientTaskFee.get c).toNat) :=
    settlement_of_openedFor (fun _ => rfl) opened
  have hafter : t.after.balances = T.currency.afterRepatriate c (r.final.clientDelegate.get c)
      (r.final.clientTaskFee.get c).toNat r.final.balances := by
    have hpay : t.after.balances = r.final.paid T cid := completion.paid
    rw [hpay, State.paid, hsettle]
  rw [hafter, lawful.releases_afterRepatriate_iff (fee_pos_of_openedFor opened), min_eq_fee_iff]
  constructor
  · intro h
    exact ⟨h.1, h.2.2, h.2.1⟩
  · intro h
    exact ⟨h.delegate, h.amount, h.receives⟩

/-! ## One task and two -/

/-- The same from the inputs of the run. -/
theorem openedFor_of_inputs {g : State AccountId Ledger} {c d : AccountId} {cid : Cid}
    {fee : UInt32} (name : DelegatorName) (signer : AccountId)
    (is₁ is₂ is₃ : List (Extrinsic AccountId)) (xb xi : Extrinsic AccountId)
    (begun : Step.accepted (fire (dispatch T) (exec (dispatch T) g is₁).final xb) =
      some (c, .beginTask name cid fee))
    (named : (exec (dispatch T) g is₁).final.delegateAccounts.find name = some d)
    (opened : Step.accepted (fire (dispatch T) (exec (dispatch T) g (is₁ ++ xb :: is₂)).final xi) =
      some (signer, .initErrand c (generateErrandId T xb.env d) cid))
    (kept : ∀ u ∈ (exec (dispatch T) (fire (dispatch T)
      (exec (dispatch T) g (is₁ ++ xb :: is₂)).final xi).after is₃).transitions,
      Step.inits u cid = false) :
    OpenedFor T c d cid fee
      (exec (dispatch T) g ((is₁ ++ xb :: is₂) ++ xi :: is₃)).transitions := by
  refine ⟨(exec (dispatch T) g is₁).transitions, (exec (dispatch T) (fire (dispatch T)
    (exec (dispatch T) g is₁).final xb).after is₂).transitions, _, _, _, name, signer, ?_, begun,
    named, opened, kept⟩
  rw [exec_transitions_append_cons, exec_transitions_append_cons]

/-- The identifier generated for Alice's task with the delegate Bob. -/
def taskId : ErrandId := generateErrandId runtime (firstBlock 2) bob

/-- Alice begins a task with a fee of 5, further calls are made, Bob opens the
errand of the task and Alice submits a result. -/
def pendingTask (further : List (Extrinsic AccountId32)) : List (Extrinsic AccountId32) :=
  (bobDelegates ++ submit 2 alice (.beginTask [1] [10] 5) :: further) ++
    submit 8 bob (.initErrand alice taskId [10]) :: [submit 9 alice (.updateErrand [10] [42])]

def lastVote : Extrinsic AccountId32 := submit 10 charlie (.updateErrand [10] [42])

theorem payment_exact_iff_single_task :
    let r := exec (dispatch runtime) localTestnet (pendingTask [])
    let t := fire (dispatch runtime) r.final lastVote
    Completes [10] t ∧ OpenedFor runtime alice bob [10] 5 r.transitions ∧
      (runtime.currency.Releases alice bob 5 r.final.balances t.after.balances ↔
        SlotsYield runtime alice bob 5 r.final) := by
  intro r t
  have completes : Completes [10] t :=
    ⟨⟨⟨Codec.encode alice, taskId, [10], .processing, []⟩, by decide +kernel, rfl⟩,
      ⟨⟨Codec.encode alice, taskId, [10], .done, [42]⟩, by decide +kernel, rfl⟩⟩
  have opened : OpenedFor runtime alice bob [10] 5 r.transitions :=
    openedFor_of_inputs [1] bob bobDelegates [] _ _ _ (by decide +kernel) (by decide +kernel)
      (by decide +kernel) (by decide +kernel)
  exact ⟨completes, opened, payment_exact_iff runtime_lawful false [alice, bob, charlie, dave]
    endowed (pendingTask []) (firstBlock 10) charlie [10] [42] alice bob 5
    completes opened⟩

/-- Alice has meanwhile begun another task with a fee of 7. -/
theorem pendingTask_paid_other_fee :
    let r := exec (dispatch runtime) localTestnet
      (pendingTask [submit 3 alice (.beginTask [1] [12] 7)])
    let t := fire (dispatch runtime) r.final lastVote
    Completes [10] t ∧ OpenedFor runtime alice bob [10] 5 r.transitions ∧ t.outcome.Succeeds ∧
      ¬ runtime.currency.Releases alice bob 5 r.final.balances t.after.balances := by
  intro r t
  refine ⟨⟨⟨⟨Codec.encode alice, taskId, [10], .processing, []⟩, by decide +kernel, rfl⟩,
      ⟨⟨Codec.encode alice, taskId, [10], .done, [42]⟩, by decide +kernel, rfl⟩⟩,
    openedFor_of_inputs [1] bob bobDelegates [submit 3 alice (.beginTask [1] [12] 7)] _ _ _
      (by decide +kernel) (by decide +kernel) (by decide +kernel) (by decide +kernel),
    by decide +kernel, fun moved => ?_⟩
  have before : runtime.currency.reservedBalance r.final.balances alice = 12 := by decide +kernel
  have after : runtime.currency.reservedBalance t.after.balances alice = 5 := by decide +kernel
  have moved := moved.reserved_eq
  omega

end AbcDemo.Payments
