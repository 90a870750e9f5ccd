import AbcDemo.Errands.Quorum
import AbcDemo.Errands.Results

/-! # What the other votes have to do with an accepted result

The votes on record are counted and their results are not kept. The call that
completes an errand stores its own result; the results of all other calls can
be replaced without a trace.
-/

namespace AbcDemo.Errands

open Foundation Pallet

variable {AccountId Ledger : Type} [DecidableEq AccountId] [Inhabited AccountId]
  [Codec AccountId] {T : Trait AccountId Ledger}

/-- The votes on record for `cid` whose call carried this result. -/
def ballotsFor (g : State AccountId Ledger) (cid : Cid) (result : Bytes)
    (ts : List (Step AccountId Ledger)) : List AccountId :=
  (ts.filter fun t => t.input.call = .updateErrand cid result).filterMap (ballotCast g cid)

/-- The input of a step, or the same input with another result where the step is
a vote that completes nothing. -/
inductive Revotes (t : Step AccountId Ledger) : Extrinsic AccountId → Prop where
  | same : Revotes t t.input
  | other {env origin cid result} (result' : Bytes)
      (vote : t.input = ⟨env, origin, .updateErrand cid result⟩) (idle : ¬ Completes cid t) :
      Revotes t ⟨env, origin, .updateErrand cid result'⟩

/-- A vote that completes nothing does the same whatever its result. -/
theorem Revotes.outcome_eq {s : State AccountId Ledger} (production : s.developmentMode = false)
    {x y : Extrinsic AccountId} (h : Revotes (fire (dispatch T) s x) y) :
    (fire (dispatch T) s y).outcome = (fire (dispatch T) s x).outcome := by
  cases h with
  | same => rfl
  | @other env origin cid result result' vote idle =>
      rw [fire_input] at vote
      subst vote
      change (updateErrand T origin cid result').run s = (updateErrand T origin cid result).run s
      rw [updateErrand_run, updateErrand_run]
      cases hv : verdict s cid origin with
      | finish =>
          rw [verdict_finish hv] at production
          cases production
      | elect sender =>
          obtain ⟨errand, present, pending⟩ := verdict_elect hv
          have after : (fire (dispatch T) s ⟨env, origin, .updateErrand cid result⟩).after =
              (s.voted cid sender).finished T cid result := by
            change ((updateErrand T origin cid result).run s).after = _
            rw [updateErrand_run, hv, Verdict.carryOut]
          refine absurd ⟨⟨errand, present, pending⟩, ?_⟩ idle
          rw [after]
          exact ⟨{ errand with status := .done, result := result }, by simp [present], rfl⟩
      | refused e => rfl
      | late sender => rfl
      | count sender => rfl

/-- Replacing such results leaves every state of a run and every answer alone. -/
theorem exec_revotes {s : State AccountId Ledger} (production : s.developmentMode = false)
    (xs : List (Extrinsic AccountId)) {ys : List (Extrinsic AccountId)}
    (h : List.Forall₂ Revotes (exec (dispatch T) s xs).transitions ys) :
    (exec (dispatch T) s ys).final = (exec (dispatch T) s xs).final ∧
      (exec (dispatch T) s ys).transitions.map (·.outcome) =
        (exec (dispatch T) s xs).transitions.map (·.outcome) := by
  induction xs generalizing s ys with
  | nil =>
      cases h
      exact ⟨rfl, rfl⟩
  | cons x xs ih =>
      cases h with
      | @cons _ y _ ys revote rest =>
          have houtcome := revote.outcome_eq production
          have hafter : (fire (dispatch T) s y).after = (fire (dispatch T) s x).after :=
            congrArg Outcome.after houtcome
          have mode : (fire (dispatch T) s x).after.developmentMode = false :=
            (configuration_of_effect (dispatch_effect T s x)).1.trans production
          obtain ⟨hfinal, houtcomes⟩ := ih mode rest
          simp only [exec, List.map_cons, houtcome, hafter]
          exact ⟨hfinal, by rw [houtcomes]⟩

/-- What completes an errand stores its own result, on a number of votes that the
record shows; the results of other votes do not matter. -/
theorem accepted_result_of_completing_vote (listed : List AccountId32) (balances : Ledger)
    (xs : List (Extrinsic AccountId)) :
    let g : State AccountId Ledger := genesis false listed balances
    let r := exec (dispatch T) g xs
    (∀ cid pre t post, r.transitions = pre ++ t :: post → Completes cid t →
      ∃ a e, Step.accepted t = some (a, .updateErrand cid e.result) ∧
        t.after.errands.find cid = some e ∧ e.status = .done ∧ ballotCast g cid t = some a ∧
        t.after.completedErrands.get cid = (pre ++ [t]).filterMap (ballotCast g cid) ∧
        minUpdateResultAccount ≤ (t.after.completedErrands.get cid).length) ∧
    ∀ ys, List.Forall₂ Revotes r.transitions ys →
      (exec (dispatch T) g ys).final = r.final ∧
        (exec (dispatch T) g ys).transitions.map (·.outcome) =
          r.transitions.map (·.outcome) := by
  intro g r
  refine ⟨?_, fun ys h => exec_revotes rfl xs h⟩
  intro cid pre t post hsplit completes
  have ht : t ∈ r.transitions := by simp [hsplit]
  obtain ⟨is₁, _, _, hpre, hfire, _⟩ := exec_split (dispatch T) hsplit
  have recorded : Recorded g cid (pre ++ [t]) t.after := by
    have h : Recorded g cid _ _ := recorded_history (T := T) listed balances (is₁ ++ [t.input]) cid
    rwa [exec_concat, hpre, ← hfire] at h
  obtain ⟨e, stored, done⟩ := completes.2
  -- a result that was not there before was announced by this call
  have written :
      acceptedResult cid t.after = (resultWrite cid t).getD (acceptedResult cid t.before) :=
    acceptedResult_of_effect (chain_effect T ht) (chain_silent T ht) cid
  have nothing : acceptedResult cid t.before = none := by
    obtain ⟨e', he', pending⟩ := completes.1
    simp [acceptedResult, he', pending]
  rw [acceptedResult_eq_some_iff.mpr ⟨e, stored, done, rfl⟩, nothing] at written
  have said := (resultWrite_eq_some_iff.mp (getD_none_eq_some_iff.mp written.symm)).2
  obtain ⟨a, errand, accepted, listed, present⟩ := announced_in_run ht said
  obtain ⟨signed, called, _⟩ := (Step.accepted_eq_some_iff t).mp accepted
  exact ⟨a, e, accepted, stored, done,
    by simp [ballotCast, signed, called, present, listed], recorded.votes,
    recorded.enough ⟨e, stored, done⟩⟩

/-- Charlie's vote first, then Alice's, for the errand of `votedOnce`. -/
def votedApart : List (Extrinsic AccountId32) :=
  bobDelegates ++
    [submit 2 alice (.beginTask [1] [10] 5), submit 3 bob (.initErrand alice [7] [10]),
      submit 4 charlie (.updateErrand [10] [43]), submit 5 alice (.updateErrand [10] [42])]

/-- Alice and Charlie submit different results: whoever comes second decides. -/
theorem votedApart_result_unsupported :
    let r := exec (dispatch runtime) localTestnet votedOnce
    let t := fire (dispatch runtime) r.final (submit 5 charlie (.updateErrand [10] [43]))
    Completes [10] t ∧ (t.after.errands.find [10]).map (·.result) = some [43] ∧
      (ballotsFor localTestnet [10] [43] (r.transitions ++ [t])).length < minUpdateResultAccount ∧
      ((exec (dispatch runtime) localTestnet votedApart).final.errands.find [10]).map (·.result) =
        some [42] := by
  intro r t
  refine ⟨⟨⟨⟨Codec.encode alice, [7], [10], .processing, []⟩, by decide +kernel, rfl⟩,
      ⟨⟨Codec.encode alice, [7], [10], .done, [43]⟩, by decide +kernel, rfl⟩⟩, ?_, ?_, ?_⟩
  · decide +kernel
  · decide +kernel
  · decide +kernel

end AbcDemo.Errands
