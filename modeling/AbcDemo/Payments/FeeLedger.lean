import AbcDemo.Pallet.Runtime
import AbcDemo.Tasks.Atomicity

/-! # Fees in and payments out

Two kinds of step move balances: a begun task moves its fee into the client's
reserve, and a payment moves what it took out of a reserve to a free balance.
The reserve of an account is therefore its fees less what was taken from it,
in every reachable state.
-/

namespace AbcDemo.Payments

open Foundation Pallet Tasks

variable {AccountId Ledger : Type} [DecidableEq AccountId]

/-! ## What a step shows of fees and payments -/

/-- The fee of a successful `begin_task` by `c`. -/
def begunFee (c : AccountId) (t : Step AccountId Ledger) : Option UInt32 :=
  match t.accepted with
  | some (client, .beginTask _ _ fee) => if client = c then some fee else none
  | _ => none

/-- The sum of the fees of the successful `begin_task` calls of `c`. -/
def feesOf (c : AccountId) (ts : List (Step AccountId Ledger)) : Nat :=
  (ts.map fun t => ((begunFee c t).map UInt32.toNat).getD 0).sum

/-- What one call to the currency took out of the reserve of `c`: the amount it
was asked to move, less what it answered was not there. -/
def taken (c : AccountId) : Observation AccountId → Nat
  | .repatriated slashed _ value (.ok rest) => if slashed = c then value - rest else 0
  | _ => 0

def takenBy (c : AccountId) (log : List (Observation AccountId)) : Nat := (log.map (taken c)).sum

/-- The total amount payments have taken out of the reserve of `c`. -/
def takenFrom (c : AccountId) (ts : List (Step AccountId Ledger)) : Nat :=
  (ts.map fun t => takenBy c t.outcome.log).sum

theorem takenBy_of_unpaid {log : List (Observation AccountId)} (h : Unpaid log) (c : AccountId) :
    takenBy c log = 0 := by
  apply List.sum_eq_zero
  intro v hv
  obtain ⟨x, hx, rfl⟩ := List.mem_map.mp hv
  cases x with
  | repatriated slashed beneficiary value result => exact absurd hx (h _ _ _ _)
  | _ => rfl

variable {T : Trait AccountId Ledger}

/-- What a step did to the balances and to the fee slots. -/
inductive Movement (T : Trait AccountId Ledger) (t : Step AccountId Ledger) : Prop where
  | reserved {c : AccountId} {fee : UInt32} (positive : 0 < fee)
      (moved : T.currency.Reserves c fee.toNat t.before.balances t.after.balances)
      (slots : t.after.clientTaskFee = t.before.clientTaskFee.insert c fee)
      (fees : ∀ a, begunFee a t = if c = a then some fee else none)
      (unpaid : ∀ a, takenBy a t.outcome.log = 0)
  | released {c d : AccountId} {v : Nat}
      (moved : T.currency.Releases c d v t.before.balances t.after.balances)
      (slots : t.after.clientTaskFee = t.before.clientTaskFee)
      (fees : ∀ a, begunFee a t = none)
      (paid : ∀ a, takenBy a t.outcome.log = if c = a then v else 0)

theorem Movement.still [Inhabited AccountId] {t : Step AccountId Ledger}
    (balances : t.after.balances = t.before.balances)
    (slots : t.after.clientTaskFee = t.before.clientTaskFee) (fees : ∀ a, begunFee a t = none)
    (unpaid : ∀ a, takenBy a t.outcome.log = 0) : Movement T t := by
  refine .released (c := default) (d := default) (v := 0) ?_ slots fees ?_
  · rw [balances]
    exact .zero _ _ _ _
  · intro a
    rw [unpaid a, ite_self]

theorem Movement.reserve_eq {t : Step AccountId Ledger} (h : Movement T t) (c : AccountId) :
    T.currency.reservedBalance t.after.balances c + takenBy c t.outcome.log =
      T.currency.reservedBalance t.before.balances c +
        ((begunFee c t).map UInt32.toNat).getD 0 := by
  cases h with
  | @reserved client fee positive moved slots fees unpaid =>
      rw [fees c, unpaid c]
      by_cases hc : client = c
      · subst hc
        simpa using moved.reserved_eq
      · simpa [hc] using moved.reserved_frame c (Ne.symm hc)
  | @released client d v moved slots fees paid =>
      rw [fees c, paid c]
      by_cases hc : client = c
      · subst hc
        simpa using moved.reserved_eq
      · simpa [hc] using moved.reserved_frame c (Ne.symm hc)

theorem Movement.slot_eq {t : Step AccountId Ledger} (h : Movement T t) (c : AccountId) :
    t.after.clientTaskFee.find c = (begunFee c t).or (t.before.clientTaskFee.find c) := by
  cases h with
  | @reserved client fee positive moved slots fees unpaid =>
      rw [fees c, slots]
      by_cases hc : client = c
      · simp [hc]
      · simp [hc, Ne.symm hc]
  | released moved slots fees paid => rw [fees c, slots, Option.none_or]

theorem Movement.fee_pos {t : Step AccountId Ledger} (h : Movement T t) {c : AccountId}
    {fee : UInt32} (hfee : begunFee c t = some fee) : 0 < fee := by
  cases h with
  | @reserved client fee' positive moved slots fees unpaid =>
      rw [fees c] at hfee
      split at hfee
      · cases hfee
        exact positive
      · cases hfee
  | released moved slots fees paid =>
      rw [fees c] at hfee
      cases hfee

theorem Movement.total_eq {t : Step AccountId Ledger} (h : Movement T t) :
    T.currency.total t.after.balances = T.currency.total t.before.balances := by
  cases h with
  | reserved positive moved => exact moved.total_eq
  | released moved => exact moved.total_eq

variable [Inhabited AccountId] [Codec AccountId]

/-- A payment moves exactly what its log says it took, if anything. -/
theorem payment_moves (moves : T.currency.MovesExactly) (s : State AccountId Ledger) (cid : Cid) :
    ∃ c d v, T.currency.Releases c d v s.balances (s.paid T cid) ∧
      ∀ a, takenBy a (s.paymentLog T cid) = if c = a then v else 0 := by
  cases hsettle : s.settlement cid with
  | none =>
      refine ⟨default, default, 0, ?_, ?_⟩
      · simpa [State.paid, hsettle] using .zero _ _ _ _
      · simp [State.paymentLog, hsettle, takenBy]
  | some settlement =>
      rcases settlement with ⟨client, delegator, fee⟩
      have hpaid : s.paid T cid = T.currency.afterRepatriate client delegator fee s.balances := by
        rw [State.paid, hsettle]
      cases hpay : T.currency.repatriateReserved client delegator fee .free s.balances with
      | error e =>
          refine ⟨client, delegator, 0, ?_, ?_⟩
          · rw [hpaid, ReservableCurrency.afterRepatriate_error hpay]
            exact .zero _ _ _ _
          · simp [State.paymentLog, hsettle, hpay, takenBy, taken, Except.map]
      | ok out =>
          rcases out with ⟨rest, balances⟩
          obtain ⟨hrest, moved⟩ := moves.repatriate_ok hpay
          rw [hpaid, ReservableCurrency.afterRepatriate_ok hpay]
          refine ⟨client, delegator, _, moved, fun a => ?_⟩
          simp only [State.paymentLog, hsettle, hpay, takenBy, taken, Except.map, List.map_cons,
            List.map_nil, List.sum_cons, List.sum_nil]
          split <;> omega

theorem movement_of_effect (moves : T.currency.MovesExactly) {s : State AccountId Ledger}
    {env : Env} {origin : RawOrigin AccountId} {call : Call AccountId}
    {o : CallOutcome AccountId Ledger} (h : Effect T env s origin call o) :
    Movement T (⟨s, ⟨env, origin, call⟩, o⟩ : Step AccountId Ledger) := by
  cases h
  case begun client delegator name cid fee balances named active fresh unlisted positive funded =>
    exact .reserved positive (moves.reserve_ok funded) rfl (fun a => rfl) (fun a => rfl)
  case finished sender cid result errand present allowed mode =>
    obtain ⟨c, d, v, moved, paid⟩ := payment_moves moves s cid
    refine .released moved rfl (fun a => rfl) (fun a => ?_)
    simpa [takenBy, taken] using paid a
  case elected sender cid result errand present allowed mode pending enough =>
    obtain ⟨c, d, v, moved, paid⟩ := payment_moves moves s cid
    refine .released moved rfl (fun a => rfl) (fun a => ?_)
    simpa [takenBy, taken] using paid a
  case taskListTaken client delegator name cid fee e log named active fresh listed unpaid =>
    exact .still rfl rfl (fun a => rfl) (takenBy_of_unpaid unpaid)
  case rejected e log unpaid refused =>
    exact .still rfl rfl (fun a => by simp [begunFee, Step.accepted]) (takenBy_of_unpaid unpaid)
  case released name client =>
    exact .still rfl rfl (fun a => by cases origin <;> rfl) (fun a => rfl)
  all_goals exact .still rfl rfl (fun a => rfl) (fun a => rfl)

theorem movement_fire (moves : T.currency.MovesExactly) (s : State AccountId Ledger)
    (x : Extrinsic AccountId) : Movement T (fire (dispatch T) s x) :=
  movement_of_effect moves (dispatch_effect T s x)

/-! ## Balances and slots over a run -/

theorem reserve_account (moves : T.currency.MovesExactly) (g : State AccountId Ledger)
    (c : AccountId) (xs : List (Extrinsic AccountId)) :
    let r := exec (dispatch T) g xs
    T.currency.reservedBalance r.final.balances c + takenFrom c r.transitions =
      T.currency.reservedBalance g.balances c + feesOf c r.transitions :=
  exec_account (dispatch T) (fun s => T.currency.reservedBalance s.balances c) _ _
    (fun s x => (movement_fire moves s x).reserve_eq c) g xs

theorem feeSlot_history (moves : T.currency.MovesExactly) {g : State AccountId Ledger}
    {c : AccountId} (hg : g.clientTaskFee.find c = none) (xs : List (Extrinsic AccountId)) :
    let r := exec (dispatch T) g xs
    r.final.clientTaskFee.find c = lastWrite (begunFee c) r.transitions := by
  intro r
  have h := exec_slot (dispatch T) (fun s => s.clientTaskFee.find c) (begunFee c)
    (fun s x => (movement_fire moves s x).slot_eq c) g xs
  rwa [hg, Option.or_none] at h

theorem total_constant (moves : T.currency.MovesExactly) (g : State AccountId Ledger)
    (xs : List (Extrinsic AccountId)) :
    T.currency.total (exec (dispatch T) g xs).final.balances = T.currency.total g.balances :=
  exec_invariant (dispatch T)
    (P := fun s => T.currency.total s.balances = T.currency.total g.balances) rfl
    (fun s x h => (movement_fire moves s x).total_eq.trans h) xs

/-! ## The fee ledger -/

theorem fee_ledger (moves : T.currency.MovesExactly) (mode : Bool) (listed : List AccountId32)
    (balances : Ledger) (unreserved : ∀ c, T.currency.reservedBalance balances c = 0)
    (xs : List (Extrinsic AccountId)) :
    let r := exec (dispatch T) (genesis mode listed balances) xs
    (∀ c,
      T.currency.reservedBalance r.final.balances c + takenFrom c r.transitions =
          feesOf c r.transitions ∧
        takenFrom c r.transitions ≤ feesOf c r.transitions ∧
        r.final.clientTaskFee.find c = lastWrite (begunFee c) r.transitions ∧
        ∀ fee, r.final.clientTaskFee.find c = some fee → 0 < fee) ∧
    (∀ env origin name cid fee,
      let t := fire (dispatch T) r.final ⟨env, origin, .beginTask name cid fee⟩
      ¬ t.outcome.Succeeds → t.after.balances = r.final.balances ∧
        t.after.clientTaskFee = r.final.clientTaskFee) ∧
    T.currency.total r.final.balances = T.currency.total balances := by
  intro r
  refine ⟨fun c => ?_, ?_, total_constant moves _ xs⟩
  · have account := reserve_account moves (genesis mode listed balances) c xs
    have slot := feeSlot_history moves (g := genesis mode listed balances) (c := c) rfl xs
    simp only [genesis, unreserved c, Nat.zero_add] at account
    refine ⟨account, ?_, slot, ?_⟩
    · exact (Nat.le_add_left _ _).trans_eq account
    · intro fee hfee
      obtain ⟨pre, t, post, hsplit, hwrite, _⟩ := lastWrite_eq_some_iff.mp (slot.symm.trans hfee)
      have ht : t ∈ r.transitions := by simp [r, hsplit]
      obtain ⟨hfire, _⟩ := exec_mem (dispatch T) ht
      rw [hfire] at hwrite
      exact (movement_fire moves t.before t.input).fee_pos hwrite
  · intro env origin name cid fee t failed
    have heffect := dispatch_effect T r.final ⟨env, origin, .beginTask name cid fee⟩
    by_cases reaches : ReachesTaskList env r.final origin name cid
    · have lost : t.after = r.final.taskListTaken env :=
        beginTask_failed_of_reaches heffect failed reaches
      rw [lost]
      exact ⟨rfl, rfl⟩
    · have same : t.after = r.final := beginTask_failed_of_not_reaches heffect failed reaches
      rw [same]
      exact ⟨rfl, rfl⟩

/-- Alice begins two tasks; the second completes and is paid out of her reserve. -/
def twoTasks : List (Extrinsic AccountId32) :=
  bobDelegates ++
    [submit 2 alice (.beginTask [1] [10] 5), submit 3 alice (.beginTask [1] [12] 7),
      submit 4 bob (.initErrand alice [7] [12]), submit 5 alice (.updateErrand [12] [42]),
      submit 6 charlie (.updateErrand [12] [42])]

theorem fee_ledger_twoTasks :
    let r := exec (dispatch runtime) localTestnet twoTasks
    runtime.currency.reservedBalance r.final.balances alice + takenFrom alice r.transitions =
      feesOf alice r.transitions :=
  ((fee_ledger runtime_lawful.toMovesExactly false [alice, bob, charlie, dave] endowed
    endowed_unreserved twoTasks).1 alice).1

end AbcDemo.Payments
