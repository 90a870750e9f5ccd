import AbcDemo.Errands.Lifecycle

/-! # What a failing `update_errand` leaves behind

All checks but one are made before the first write. The status of the errand is
looked at after the vote has been put on record, so a vote for an errand that is
done fails and stays. Every other failing call leaves the state as it was.
-/

namespace AbcDemo.Errands

open Foundation Pallet

variable {AccountId Ledger : Type} [DecidableEq AccountId] [Inhabited AccountId]
  [Codec AccountId] {T : Trait AccountId Ledger}

/-- In production mode, the vote of a listed account for a done errand. -/
def VotesLate (s : State AccountId Ledger) (origin : RawOrigin AccountId) (cid : Cid) : Prop :=
  ∃ sender, origin = .signed sender ∧ MayUpdateResult s sender ∧ s.developmentMode = false ∧
    IsDone s cid

/-- A late vote fails, but it is on record. -/
theorem updateErrand_of_votesLate {s : State AccountId Ledger} {env : Env}
    {origin : RawOrigin AccountId} {cid : Cid} {result : Bytes} {o : CallOutcome AccountId Ledger}
    (h : Effect T env s origin (.updateErrand cid result) o) (late : VotesLate s origin cid) :
    ¬ o.Succeeds ∧ ∃ sender, o.after = s.voted cid sender := by
  obtain ⟨voter, signed, allowed, production, done⟩ := late
  cases h with
  | finished _ _ mode =>
      rw [production] at mode
      cases mode
  | voted present _ _ pending => exact absurd done (IsProcessing.not_isDone ⟨_, present, pending⟩)
  | elected present _ _ pending => exact absurd done (IsProcessing.not_isDone ⟨_, present, pending⟩)
  | votedLate => exact ⟨by simp, _, rfl⟩
  | rejected refused =>
      subst signed
      obtain ⟨errand, present, _⟩ := done
      exact absurd ⟨by simp [present], allowed⟩ refused

/-- Any other failure happens before anything is written. -/
theorem updateErrand_failed_of_not_votesLate {s : State AccountId Ledger} {env : Env}
    {origin : RawOrigin AccountId} {cid : Cid} {result : Bytes} {o : CallOutcome AccountId Ledger}
    (h : Effect T env s origin (.updateErrand cid result) o) (failed : ¬ o.Succeeds)
    (timely : ¬ VotesLate s origin cid) : o.after = s := by
  cases h with
  | finished => exact absurd (Outcome.succeeds_ok _ _ _) failed
  | voted => exact absurd (Outcome.succeeds_ok _ _ _) failed
  | elected => exact absurd (Outcome.succeeds_ok _ _ _) failed
  | votedLate present allowed mode completed =>
      exact absurd ⟨_, rfl, allowed, mode, _, present, completed⟩ timely
  | rejected => rfl

omit [DecidableEq AccountId] [Inhabited AccountId] [Codec AccountId] in
theorem voted_ne (s : State AccountId Ledger) (cid : Cid) (sender : AccountId) :
    s.voted cid sender ≠ s := by
  intro same
  have votes : (s.voted cid sender).completedErrands.get cid = s.completedErrands.get cid := by
    rw [same]
  have longer := congrArg List.length votes
  simp at longer

theorem updateErrand_error_atomic_iff (mode : Bool) (listed : List AccountId32) (balances : Ledger)
    (xs : List (Extrinsic AccountId)) (env : Env) (origin : RawOrigin AccountId) (cid : Cid)
    (result : Bytes) :
    let s := (exec (dispatch T) (genesis mode listed balances) xs).final
    let t := fire (dispatch T) s ⟨env, origin, .updateErrand cid result⟩
    (¬ t.outcome.Succeeds → t.after = s) ↔ ¬ VotesLate s origin cid := by
  intro s t
  have heffect := dispatch_effect T s ⟨env, origin, .updateErrand cid result⟩
  constructor
  · intro atomic late
    obtain ⟨failed, sender, recorded⟩ := updateErrand_of_votesLate heffect late
    exact voted_ne s cid sender (recorded.symm.trans (atomic failed))
  · intro timely failed
    exact updateErrand_failed_of_not_votesLate heffect failed timely

/-- Dave's vote comes after Alice and Charlie have decided. It is refused, and it
is the third on record. -/
theorem completedOnce_late_vote_recorded :
    let s := (exec (dispatch runtime) localTestnet completedOnce).final
    let t := fire (dispatch runtime) s (submit 6 dave (.updateErrand [10] [42]))
    ¬ t.outcome.Succeeds ∧ t.after ≠ s := by
  intro s t
  refine ⟨by decide +kernel, fun same => ?_⟩
  have before : s.completedErrands.get [10] = [alice, charlie] := by decide +kernel
  have after : t.after.completedErrands.get [10] = [alice, charlie, dave] := by decide +kernel
  rw [same, before] at after
  cases after

end AbcDemo.Errands
