import AbcDemo.Errands.Lifecycle

/-! # How often an errand is paid for

Votes keep arriving after an errand is done, and there are then always enough
of them. An opening is what one payment uses up: a completion is attempted only
while the errand is being processed.
-/

namespace AbcDemo.Payments

open Foundation Pallet Errands

variable {AccountId Ledger : Type}

def isRepatriation : Observation AccountId → Bool
  | .repatriated _ _ _ _ => true
  | _ => false

/-- The calls of `repatriate_reserved` made by an `update_errand` call for `cid`. -/
def payouts (cid : Cid) (t : Step AccountId Ledger) : Nat :=
  match t.input.call with
  | .updateErrand cid' _ => if cid' = cid then t.outcome.log.countP isRepatriation else 0
  | _ => 0

def payoutsOf (cid : Cid) (ts : List (Step AccountId Ledger)) : Nat := (ts.map (payouts cid)).sum

theorem countP_of_unpaid {log : List (Observation AccountId)} (h : Unpaid log) :
    log.countP isRepatriation = 0 := by
  apply List.countP_eq_zero.mpr
  intro w hw
  cases w with
  | repatriated slashed beneficiary value result => exact absurd hw (h _ _ _ _)
  | deposited event => simp [isRepatriation]
  | reserved who value result => simp [isRepatriation]

/-- The payment an errand still has coming. -/
def owed (cid : Cid) (s : State AccountId Ledger) : Nat :=
  match s.errands.find cid with
  | some errand => if errand.status = .processing then 1 else 0
  | none => 0

theorem owed_le_one (cid : Cid) (s : State AccountId Ledger) : owed cid s ≤ 1 := by
  unfold owed
  split
  · split <;> omega
  · omega

variable [DecidableEq AccountId] [Inhabited AccountId] [Codec AccountId]
  {T : Trait AccountId Ledger}

omit [DecidableEq AccountId] in
theorem countP_paymentLog_le (s : State AccountId Ledger) (cid : Cid) :
    (s.paymentLog T cid).countP isRepatriation ≤ 1 := by
  rw [State.paymentLog]
  cases s.settlement cid <;> simp [isRepatriation]

/-- Only an errand in processing is paid for, and the payment completes it. -/
theorem owed_of_effect {s : State AccountId Ledger} {env : Env} {origin : RawOrigin AccountId}
    {call : Call AccountId} {o : CallOutcome AccountId Ledger} (h : Effect T env s origin call o)
    (production : s.developmentMode = false) (cid : Cid) :
    owed cid o.after + payouts cid (⟨s, ⟨env, origin, call⟩, o⟩ : Step AccountId Ledger) ≤
      owed cid s + if Step.inits ⟨s, ⟨env, origin, call⟩, o⟩ cid then 1 else 0 := by
  cases h
  case inited sender client errandId cid' authority =>
    by_cases hc : cid = cid'
    · simp [owed, payouts, Step.inits, Step.accepted, hc]
    · simp [owed, payouts, hc]
  case finished sender cid' result errand present allowed mode =>
    rw [production] at mode
    cases mode
  case elected sender cid' result errand present allowed mode pending enough =>
    by_cases hc : cid' = cid
    · subst hc
      have paid := countP_paymentLog_le (T := T) s cid'
      simpa [owed, payouts, Step.inits, Step.accepted, present, pending, isRepatriation] using paid
    · simp [owed, payouts, hc, Ne.symm hc]
  case rejected e log unpaid refused =>
    have unpaid := countP_of_unpaid unpaid
    cases call <;> simp [payouts, unpaid]
  all_goals simp [owed, payouts]

/-- A call that fails asked for no payment. -/
theorem payouts_of_failed {s : State AccountId Ledger} {env : Env} {origin : RawOrigin AccountId}
    {call : Call AccountId} {o : CallOutcome AccountId Ledger} (h : Effect T env s origin call o)
    (failed : ¬ o.Succeeds) (cid : Cid) :
    payouts cid (⟨s, ⟨env, origin, call⟩, o⟩ : Step AccountId Ledger) = 0 := by
  cases h
  case rejected e log unpaid refused =>
    have unpaid := countP_of_unpaid unpaid
    cases call <;> simp [payouts, unpaid]
  all_goals simp [payouts] at failed ⊢

/-- From any state in production mode on: payments are covered by what was owed
there and by the openings made since. -/
theorem payouts_covered (s : State AccountId Ledger) (production : s.developmentMode = false)
    (cid : Cid) (xs : List (Extrinsic AccountId)) :
    owed cid (exec (dispatch T) s xs).final + payoutsOf cid (exec (dispatch T) s xs).transitions ≤
      owed cid s + (exec (dispatch T) s xs).transitions.countP (Step.inits · cid) := by
  rw [← sum_map_indicator]
  refine exec_budget (dispatch T) (P := fun s => s.developmentMode = false) ?_ (owed cid)
    (fun t => if Step.inits t cid then 1 else 0) (payouts cid) ?_ production xs
  · intro s x production
    exact (configuration_of_effect (dispatch_effect T s x)).1.trans production
  · intro s x production
    exact owed_of_effect (dispatch_effect T s x) production cid

/-- The bounds over a run: payments against openings, at most one payment in any
stretch without an opening, none by a call that fails. -/
theorem payout_per_opening (listed : List AccountId32) (balances : Ledger)
    (xs : List (Extrinsic AccountId)) (cid : Cid) :
    let r := exec (dispatch T) (genesis false listed balances) xs
    payoutsOf cid r.transitions ≤ r.transitions.countP (Step.inits · cid) ∧
    (∀ pre stretch post, r.transitions = pre ++ stretch ++ post →
      (∀ t ∈ stretch, Step.inits t cid = false) → payoutsOf cid stretch ≤ 1) ∧
    ∀ t ∈ r.transitions, ¬ t.outcome.Succeeds → payouts cid t = 0 := by
  intro r
  refine ⟨?_, ?_, ?_⟩
  · have covered := payouts_covered (T := T) (genesis false listed balances) rfl cid xs
    have nothing : owed cid (genesis false listed balances : State AccountId Ledger) = 0 := rfl
    rw [nothing, Nat.zero_add] at covered
    exact (Nat.le_add_left _ _).trans covered
  · intro pre stretch post hsplit unopened
    rw [List.append_assoc] at hsplit
    obtain ⟨is₁, is, _, _, hrest⟩ := exec_split_append (dispatch T) hsplit
    let s := (exec (dispatch T) (genesis false listed balances) is₁).final
    have hlater : (exec (dispatch T) s is).transitions = stretch ++ post := by rw [hrest]
    obtain ⟨is₂, _, _, hstretch, _⟩ := exec_split_append (dispatch T) hlater
    have production : s.developmentMode = false := (configuration_of_run T _ is₁).1
    have covered := payouts_covered (T := T) s production cid is₂
    have owing := owed_le_one cid s
    have none_opened : stretch.countP (Step.inits · cid) = 0 :=
      List.countP_eq_zero.mpr fun t ht => by simp [unopened t ht]
    rw [hstretch, none_opened] at covered
    omega
  · intro t ht failed
    exact payouts_of_failed (chain_effect T ht) failed cid

end AbcDemo.Payments
