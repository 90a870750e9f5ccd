import AbcDemo.Pallet.History

/-! # Who may open errands for a client

The delegate slot of a client holds the last value its own history wrote: a
begun task fills it with the account the delegator name resolved to, a release
empties it. Opening an errand is permitted to exactly that account.
-/

namespace AbcDemo.Registry

open Foundation Pallet

variable {AccountId Ledger : Type} [DecidableEq AccountId] [Inhabited AccountId]
  [Codec AccountId] {T : Trait AccountId Ledger}

/-- Among the successful `begin_task` calls of `c` and the calls `unreserve(_, c)`
the last one was a `begin_task` whose name resolved to `d` at that moment. -/
def LastBegunWith (c d : AccountId) (ts : List (Step AccountId Ledger)) : Prop :=
  ∃ pre t post, ts = pre ++ t :: post ∧ t.BeginsWith c d ∧
    ∀ u ∈ post, ¬ u.Begins c ∧ u.releases c = false

/-- What a step writes to the delegate slot of `c`. -/
def delegateWrite (c : AccountId) (t : Step AccountId Ledger) : Option (Option AccountId) :=
  match t.accepted, t.input.call with
  | some (client, _), .beginTask name _ _ =>
      if client = c then some (t.before.delegateAccounts.find name) else none
  | _, .unreserve _ client => if client = c then some none else none
  | _, _ => none

theorem delegateWrite_of_effect {s : State AccountId Ledger} {env : Env}
    {origin : RawOrigin AccountId} {call : Call AccountId} {o : CallOutcome AccountId Ledger}
    (h : Effect T env s origin call o) (c : AccountId) :
    o.after.clientDelegate.find c =
      (delegateWrite c (⟨s, ⟨env, origin, call⟩, o⟩ : Step AccountId Ledger)).getD
        (s.clientDelegate.find c) := by
  cases h
  case begun client delegator name cid fee balances named active fresh unlisted positive funded =>
    by_cases hc : c = client
    · simp [delegateWrite, Step.accepted, hc, named]
    · simp [delegateWrite, Step.accepted, hc, Ne.symm hc]
  case released name client =>
    by_cases hc : c = client
    · simp [delegateWrite, hc]
    · simp [delegateWrite, hc, Ne.symm hc]
  case rejected e log unpaid refused =>
    cases call with
    | unreserve name client => exact absurd (admitted_unreserve _ _ _ _ _ _) refused
    | _ => simp [delegateWrite, Step.accepted]
  all_goals simp [delegateWrite]

omit [Inhabited AccountId] [Codec AccountId] in
theorem delegateWrite_eq_delegate_iff {c d : AccountId} {t : Step AccountId Ledger} :
    delegateWrite c t = some (some d) ↔ t.BeginsWith c d := by
  rcases t with ⟨s, ⟨env, origin, call⟩, ⟨result, s', w⟩⟩
  cases origin <;> cases result <;> cases call <;>
    simp [delegateWrite, Step.accepted, Step.BeginsWith]

omit [Inhabited AccountId] [Codec AccountId] in
theorem delegateWrite_eq_none_iff {c : AccountId} {t : Step AccountId Ledger} :
    delegateWrite c t = none ↔ ¬ t.Begins c ∧ t.releases c = false := by
  rcases t with ⟨s, ⟨env, origin, call⟩, ⟨result, s', w⟩⟩
  cases origin <;> cases result <;> cases call <;>
    simp [delegateWrite, Step.accepted, Step.Begins, Step.releases]

/-- The delegate slot is the last begun task's delegate, unless released since. -/
theorem clientDelegate_history {g : State AccountId Ledger}
    (hg : ∀ c, g.clientDelegate.find c = none) (c d : AccountId)
    (xs : List (Extrinsic AccountId)) :
    (exec (dispatch T) g xs).final.clientDelegate.find c = some d ↔
      LastBegunWith c d (exec (dispatch T) g xs).transitions := by
  rw [exec_cell (dispatch T) (fun s => s.clientDelegate.find c) (delegateWrite c)
    (fun s x => delegateWrite_of_effect (dispatch_effect T s x) c) g xs, hg c]
  rw [getD_none_eq_some_iff, lastWrite_eq_some_iff]
  simp only [delegateWrite_eq_delegate_iff, delegateWrite_eq_none_iff, LastBegunWith]

end AbcDemo.Registry
