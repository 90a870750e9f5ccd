import AbcDemo.Foundation.Commutation
import AbcDemo.Pallet.Runtime
import AbcDemo.Pallet.Verdicts

/-! # The order of submissions for different errands

Submissions under different keys can be exchanged, up to ledgers that read the
same: what they write to the storage is disjoint, and two payments out of one
reserve are payments of one client and therefore equal.
-/

namespace AbcDemo.Errands

open Foundation Pallet

variable {AccountId Ledger : Type}

/-- An `update_errand` call by some sender. -/
structure Submission (AccountId : Type) where
  env : Env
  origin : RawOrigin AccountId
  descriptionCid : Cid
  result : Bytes

/-- The same storage, and ledgers that read the same. -/
structure Alike (T : Trait AccountId Ledger) (s s' : State AccountId Ledger) : Prop where
  storage : s'.storage = s.storage
  balances : T.currency.Agrees s.balances s'.balances

variable [DecidableEq AccountId] [Inhabited AccountId] [Codec AccountId]
  {T : Trait AccountId Ledger}

def submission (T : Trait AccountId Ledger) (u : Submission AccountId) :
    PalletM AccountId Ledger Unit :=
  dispatch T ⟨u.env, u.origin, .updateErrand u.descriptionCid u.result⟩

/-- The verdict of a submission needs the storage only. -/
def judge (s : State AccountId Unit) (u : Submission AccountId) : Verdict AccountId :=
  verdict s u.descriptionCid u.origin

theorem fire_submission (s : State AccountId Ledger) (u : Submission AccountId) :
    (fire (submission T) s u).outcome =
      (judge s.storage u).carryOut T s u.descriptionCid u.result :=
  updateErrand_run T s u.origin u.descriptionCid u.result

/-! ## Payments -/

omit [DecidableEq AccountId] in
/-- The slots of a client decide what is paid out of its reserve, and to whom. -/
theorem settlement_slots {s : State AccountId Ledger} {cid : Cid} {client delegator : AccountId}
    {fee : Nat} (h : s.settlement cid = some (client, delegator, fee)) :
    delegator = s.clientDelegate.get client ∧ fee = (s.clientTaskFee.get client).toNat := by
  obtain ⟨errand, _, h⟩ := Option.bind_eq_some_iff.mp h
  obtain ⟨client', _, h⟩ := Option.bind_eq_some_iff.mp h
  cases h
  exact ⟨rfl, rfl⟩

/-- Two payments out of one reserve are the same payment. -/
theorem pay_comm (keeps : T.currency.KeepsAccounts) (s : State AccountId Unit) (cid cid' : Cid)
    (L : Ledger) :
    T.currency.Agrees
      (Verdict.pay T (Verdict.pay T L (s.settlement cid)) (s.settlement cid'))
      (Verdict.pay T (Verdict.pay T L (s.settlement cid')) (s.settlement cid)) := by
  cases hs : s.settlement cid with
  | none => exact .refl _
  | some payment =>
      cases hs' : s.settlement cid' with
      | none => exact .refl _
      | some payment' =>
          rcases payment with ⟨client, delegator, fee⟩
          rcases payment' with ⟨client', delegator', fee'⟩
          by_cases hc : client = client'
          · subst hc
            obtain ⟨rfl, rfl⟩ := settlement_slots hs
            obtain ⟨rfl, rfl⟩ := settlement_slots hs'
            exact .refl _
          · exact keeps.afterRepatriate_comm hc delegator delegator' fee fee' L

omit [Inhabited AccountId] [Codec AccountId] in
theorem pay_congr (keeps : T.currency.KeepsAccounts) {L L' : Ledger}
    (h : T.currency.Agrees L L') (settlement : Option (AccountId × AccountId × Nat)) :
    T.currency.Agrees (Verdict.pay T L settlement) (Verdict.pay T L' settlement) := by
  rcases settlement with _ | ⟨client, delegator, fee⟩
  · exact h
  · exact keeps.agrees_afterRepatriate h client delegator fee

/-! ## Exchanging two submissions -/

theorem result_submission (s : State AccountId Ledger) (u : Submission AccountId) :
    (fire (submission T) s u).outcome.result = (judge s.storage u).answer := by
  rw [fire_submission, Verdict.carryOut_result]

theorem storage_submission (s : State AccountId Ledger) (u : Submission AccountId) :
    (fire (submission T) s u).after.storage =
      (judge s.storage u).book u.descriptionCid u.result s.storage := by
  rw [Transition.after, fire_submission, Verdict.carryOut_storage]

theorem balances_submission (s : State AccountId Ledger) (u : Submission AccountId) :
    (fire (submission T) s u).after.balances =
      if (judge s.storage u).completes then
        Verdict.pay T s.balances (s.storage.settlement u.descriptionCid)
      else s.balances := by
  rw [Transition.after, fire_submission, Verdict.carryOut_balances]

omit [DecidableEq AccountId] [Inhabited AccountId] in
/-- A booking under another key is not noticed. -/
theorem judge_book (v : Verdict AccountId) {cid : Cid} (result : Bytes)
    (s : State AccountId Unit) {u : Submission AccountId} (hne : u.descriptionCid ≠ cid) :
    judge (v.book cid result s) u = judge s u :=
  Verdict.verdict_book v hne result s u.origin

theorem commutesUpTo_alike (keeps : T.currency.KeepsAccounts) :
    CommutesUpTo (submission T) Submission.descriptionCid (Alike T) where
  refl s := ⟨rfl, .refl s.balances⟩
  trans h h' := ⟨h'.storage.trans h.storage, h.balances.trans h'.balances⟩
  congr := by
    intro s s' u h
    refine ⟨by rw [result_submission, result_submission, h.storage], ?_, ?_⟩
    · rw [storage_submission, storage_submission, h.storage]
    · rw [balances_submission, balances_submission, h.storage]
      split
      · exact pay_congr keeps h.balances _
      · exact h.balances
  unnoticed := by
    intro s u v hne
    rw [result_submission, result_submission, storage_submission, judge_book _ _ _ hne.symm]
  commute := by
    intro s u v hne
    constructor
    · rw [storage_submission, storage_submission, storage_submission, storage_submission,
        judge_book _ _ _ hne, judge_book _ _ _ hne.symm]
      exact Verdict.book_comm _ hne.symm _ _ _ _
    · simp only [balances_submission, storage_submission, judge_book _ _ _ hne,
        judge_book _ _ _ hne.symm, Verdict.settlement_book _ hne,
        Verdict.settlement_book _ hne.symm]
      cases hu : (judge s.storage u).completes <;> cases hv : (judge s.storage v).completes
      · exact .refl _
      · exact .refl _
      · exact .refl _
      · exact pay_comm keeps _ _ _ _

/-! ## The order of submissions -/

/-- The submissions for `cid` in a run, each with what it was answered. -/
def answersFor (T : Trait AccountId Ledger) (s : State AccountId Ledger)
    (us : List (Submission AccountId)) (cid : Cid) :
    List (Submission AccountId × Except DispatchError Unit) :=
  (answers (submission T) s us).filter fun answer => answer.1.descriptionCid = cid

theorem submissions_commute (keeps : T.currency.KeepsAccounts) (mode : Bool)
    (listed : List AccountId32) (balances : Ledger) (xs : List (Extrinsic AccountId))
    (us vs : List (Submission AccountId))
    (reordered : KeepsOrder Submission.descriptionCid us vs) :
    let s := (exec (dispatch T) (genesis mode listed balances) xs).final
    let r := (exec (submission T) s us).final
    let r' := (exec (submission T) s vs).final
    (∀ cid, answersFor T s vs cid = answersFor T s us cid) ∧
      r'.errands = r.errands ∧ r'.processingErrands = r.processingErrands ∧
      r'.completedErrands = r.completedErrands ∧
      ∀ a, T.currency.freeBalance r'.balances a = T.currency.freeBalance r.balances a ∧
        T.currency.reservedBalance r'.balances a = T.currency.reservedBalance r.balances a := by
  intro s r r'
  obtain ⟨same, alike⟩ := (commutesUpTo_alike keeps).run_reorders
    (reorders_of_keepsOrder reordered) s
  have errands := congrArg State.errands alike.storage
  have processing := congrArg State.processingErrands alike.storage
  have completed := congrArg State.completedErrands alike.storage
  exact ⟨fun cid => (same cid).symm, errands, processing, completed,
    fun a => ⟨alike.balances.free a, alike.balances.reserved a⟩⟩

/-- The runtime over a ledger whose accounts are the four endowed ones. -/
def closedRuntime : Trait AccountId32 Balances where
  currency := AccountLedger.currencyAmong
    (fun
      | .insufficientBalance => .foreign 3
      | .deadAccount => .foreign 7)
    fun a => [alice, bob, charlie, dave].contains a
  blake2_128 := Blake2b.hash 16

/-- Bob has opened the errands of two tasks of Alice. -/
def twoErrands : List (Extrinsic AccountId32) :=
  bobDelegates ++
    [submit 2 alice (.beginTask [1] [10] 5), submit 3 alice (.beginTask [1] [12] 7),
      submit 4 bob (.initErrand alice [7] [10]), submit 5 bob (.initErrand alice [8] [12])]

def submitResult (index : UInt32) (who : AccountId32) (cid : Cid) : Submission AccountId32 :=
  ⟨firstBlock index, .signed who, cid, [42]⟩

theorem submissions_commute_two_errands :
    let us := [submitResult 6 alice [10], submitResult 7 charlie [10],
      submitResult 8 alice [12], submitResult 9 charlie [12]]
    let vs := [submitResult 8 alice [12], submitResult 6 alice [10],
      submitResult 9 charlie [12], submitResult 7 charlie [10]]
    let s := (exec (dispatch closedRuntime) localTestnet twoErrands).final
    KeepsOrder Submission.descriptionCid us vs ∧
      (exec (submission closedRuntime) s vs).final.errands =
        (exec (submission closedRuntime) s us).final.errands := by
  intro us vs s
  have reordered : KeepsOrder Submission.descriptionCid us vs := by
    constructor
    · exact .trans (.cons _ (.swap _ _ _))
        (.trans (.swap _ _ _) (.cons _ (.cons _ (.swap _ _ _))))
    · intro k
      by_cases h₁ : [10] = k
      · subst h₁
        rfl
      · by_cases h₂ : [12] = k
        · subst h₂
          rfl
        · simp [us, vs, submitResult, h₁, h₂]
  exact ⟨reordered, (submissions_commute (AccountLedger.currencyAmong_keepsAccounts _ _) false
    [alice, bob, charlie, dave] endowed twoErrands us vs reordered).2.1⟩

end AbcDemo.Errands
