import AbcDemo.Errands.Lifecycle

/-! # Votes and voters

In production mode an errand is completed when the list of votes on record
reaches the minimum. The list is not cleared when the errand is opened, and it
does not tell voters apart, so its length is a number of distinct voters only
under the condition stated here.
-/

namespace AbcDemo.Errands

open Foundation Pallet

variable {AccountId Ledger : Type} [DecidableEq AccountId] [Inhabited AccountId]
  [Codec AccountId] {T : Trait AccountId Ledger}

/-- Enough distinct listed accounts have each had a vote for `cid` accepted. -/
def HasQuorum (s : State AccountId Ledger) (cid : Cid) (ts : List (Step AccountId Ledger)) : Prop :=
  ∃ voters : List AccountId, voters.Nodup ∧ minUpdateResultAccount ≤ voters.length ∧
    ∀ a ∈ voters, MayUpdateResult s a ∧ Occurs (Step.Votes · a cid) ts

/-- The votes that were on record when the errand was last opened. -/
def openingVotes (cid : Cid) (ts : List (Step AccountId Ledger)) : Option (List AccountId) :=
  lastWrite (fun t : Step AccountId Ledger =>
    if t.inits cid then some (t.before.completedErrands.get cid) else none) ts

omit [DecidableEq AccountId] [Inhabited AccountId] [Codec AccountId] in
@[simp] theorem openingVotes_concat (cid : Cid) (ts : List (Step AccountId Ledger))
    (t : Step AccountId Ledger) :
    openingVotes cid (ts ++ [t]) =
      if t.inits cid then some (t.before.completedErrands.get cid) else openingVotes cid ts := by
  rw [openingVotes, lastWrite_concat]
  split <;> rfl

abbrev sinceOpening (cid : Cid) (ts : List (Step AccountId Ledger)) :
    List (Step AccountId Ledger) :=
  sinceLast (Step.inits · cid) ts

omit [DecidableEq AccountId] [Inhabited AccountId] in
theorem not_hasQuorum_of_single {s : State AccountId Ledger} {cid : Cid}
    {ts : List (Step AccountId Ledger)} {v : AccountId}
    (single : ∀ a, Occurs (Step.Votes · a cid) ts → a = v) : ¬ HasQuorum s cid ts := by
  intro h
  rcases h with ⟨voters, distinct, enough, hvoters⟩
  have hsub : voters ⊆ [v] := by
    intro a ha
    simpa using single a (hvoters a ha).2
  have hlen := (List.subperm_of_subset distinct hsub).length_le
  simp only [minUpdateResultAccount, List.length_singleton] at enough hlen
  omega

omit [DecidableEq AccountId] [Inhabited AccountId] in
/-- With one or two voters there is a quorum exactly when they are two. -/
theorem hasQuorum_pair_iff {s : State AccountId Ledger} {cid : Cid}
    {ts : List (Step AccountId Ledger)} {v w : AccountId} (hv : MayUpdateResult s v)
    (hw : MayUpdateResult s w)
    (voters : ∀ a, Occurs (Step.Votes · a cid) ts ↔ a = v ∨ a = w) :
    HasQuorum s cid ts ↔ v ≠ w := by
  constructor
  · intro hquorum hsame
    subst hsame
    refine not_hasQuorum_of_single (v := v) (fun a ha => ?_) hquorum
    simpa using (voters a).mp ha
  · intro hne
    refine ⟨[v, w], by simp [hne], Nat.le_refl _, ?_⟩
    intro a ha
    rcases List.mem_pair.mp ha with rfl | rfl
    · exact ⟨hv, (voters a).mpr (.inl rfl)⟩
    · exact ⟨hw, (voters a).mpr (.inr rfl)⟩

/-! ## The ballot of an errand being processed -/

/-- How the votes on record and the votes accepted since the opening compare
while an errand is processed. -/
inductive Ballot (cid : Cid) (ts : List (Step AccountId Ledger)) (s : State AccountId Ledger) :
    Prop where
  | unvoted (opening : openingVotes cid ts = some (s.completedErrands.get cid))
      (nobody : ∀ a, ¬ Occurs (Step.Votes · a cid) (sinceOpening cid ts))
  | voted (v : AccountId) (opening : openingVotes cid ts = some [])
      (recorded : s.completedErrands.get cid = [v]) (allowed : MayUpdateResult s v)
      (voters : ∀ a, Occurs (Step.Votes · a cid) (sinceOpening cid ts) ↔ a = v)

omit [DecidableEq AccountId] [Inhabited AccountId] in
/-- A step that neither opens the errand nor votes for it keeps its ballot. -/
theorem Ballot.keep {cid : Cid} {ts : List (Step AccountId Ledger)} {s s' : State AccountId Ledger}
    {t : Step AccountId Ledger} (h : Ballot cid ts s) (unopened : t.inits cid = false)
    (silent : ∀ a, ¬ t.Votes a cid)
    (votes : s'.completedErrands.get cid = s.completedErrands.get cid)
    (accounts : s'.updateResultAccounts = s.updateResultAccounts) :
    Ballot cid (ts ++ [t]) s' := by
  cases h with
  | unvoted opening nobody =>
      refine .unvoted ?_ (by simpa [unopened, silent] using nobody)
      rw [openingVotes_concat, unopened, votes]
      exact opening
  | voted v opening recorded allowed voters =>
      refine .voted v (by simpa [unopened] using opening) (votes.trans recorded) ?_ ?_
      · simpa [MayUpdateResult, accounts] using allowed
      · simpa [unopened, silent] using voters

omit [DecidableEq AccountId] [Inhabited AccountId] [Codec AccountId] in
/-- An accepted vote is one account's vote and opens nothing. -/
theorem vote_of_accepted {t : Step AccountId Ledger} {sender : AccountId} {cid : Cid}
    {result : Bytes} (h : t.accepted = some (sender, .updateErrand cid result)) :
    t.inits cid = false ∧ ∀ a, t.Votes a cid ↔ a = sender := by
  refine ⟨by rw [Step.inits, h], fun a => ?_⟩
  rw [Step.Votes, h]
  simp [eq_comm]

omit [DecidableEq AccountId] [Inhabited AccountId] in
/-- The first vote after an opening with nothing on record. -/
theorem Ballot.first {cid : Cid} {ts : List (Step AccountId Ledger)} {s : State AccountId Ledger}
    {t : Step AccountId Ledger} {sender : AccountId} {result : Bytes} (h : Ballot cid ts s)
    (accepted : t.accepted = some (sender, .updateErrand cid result))
    (allowed : MayUpdateResult s sender)
    (few : (s.completedErrands.get cid).length + 1 < minUpdateResultAccount) :
    Ballot cid (ts ++ [t]) (s.voted cid sender) := by
  obtain ⟨unopened, votes⟩ := vote_of_accepted accepted
  have empty : s.completedErrands.get cid = [] := by
    rw [minUpdateResultAccount] at few
    exact List.eq_nil_of_length_eq_zero (by omega)
  cases h with
  | unvoted opening nobody =>
      refine .voted sender ?_ ?_ allowed ?_
      · rw [openingVotes_concat, unopened, opening, empty]
        rfl
      · rw [State.voted_completedErrands, empty]
        simp
      · simp [unopened, votes, nobody]
  | voted v _ recorded => cases empty.symm.trans recorded

theorem ballot_of_effect {ts : List (Step AccountId Ledger)} {s : State AccountId Ledger}
    {env : Env} {origin : RawOrigin AccountId} {call : Call AccountId}
    {o : CallOutcome AccountId Ledger} (heffect : Effect T env s origin call o)
    (production : s.developmentMode = false) {cid : Cid} (h : IsProcessing s cid → Ballot cid ts s)
    (after : IsProcessing o.after cid) :
    Ballot cid (ts ++ [⟨s, ⟨env, origin, call⟩, o⟩]) o.after := by
  cases heffect
  case inited sender client errandId cid' authority =>
    by_cases hc : cid' = cid
    · apply Ballot.unvoted <;> simp [Step.inits, Step.accepted, hc]
    · have before : IsProcessing s cid := by simpa [IsProcessing, Ne.symm hc] using after
      refine (h before).keep ?_ ?_ rfl rfl
      · simp [Step.inits, Step.accepted, hc]
      · simp [Step.Votes]
  case voted sender cid' result errand present allowed mode pending few =>
    by_cases hc : cid' = cid
    · subst hc
      have accepted := (Step.accepted_eq_some_iff (⟨s, ⟨env, .signed sender,
        .updateErrand cid' result⟩, ⟨.ok (), s.voted cid' sender, []⟩⟩ : Step AccountId Ledger)).mpr
          ⟨rfl, rfl, rfl⟩
      exact (h after).first accepted allowed few
    · refine (h after).keep rfl ?_ ?_ rfl
      · simp [Step.Votes, hc]
      · simp [Ne.symm hc]
  case elected sender cid' result errand present allowed mode pending enough =>
    by_cases hc : cid' = cid
    · simp [IsProcessing, hc] at after
    · have before : IsProcessing s cid := by simpa [IsProcessing, Ne.symm hc] using after
      refine (h before).keep rfl ?_ ?_ rfl
      · simp [Step.Votes, hc]
      · simp [Ne.symm hc]
  case votedLate sender cid' result errand present allowed mode completed =>
    by_cases hc : cid' = cid
    · subst hc
      exact absurd ⟨errand, present, completed⟩ after.not_isDone
    · refine (h after).keep rfl ?_ ?_ rfl
      · simp [Step.Votes]
      · simp [Ne.symm hc]
  case finished sender cid' result errand present allowed mode =>
    rw [production] at mode
    cases mode
  case rejected e log unpaid refused =>
    refine (h after).keep ?_ ?_ rfl rfl
    · cases origin <;> rfl
    · simp [Step.Votes]
  case released name client =>
    refine (h after).keep ?_ ?_ rfl rfl
    · cases origin <;> rfl
    · simp [Step.Votes]
  all_goals exact (h after).keep rfl (by simp [Step.Votes]) rfl rfl

theorem ballot_history (listed : List AccountId32) (balances : Ledger)
    (xs : List (Extrinsic AccountId)) (cid : Cid) :
    let r := exec (dispatch T) (genesis false listed balances) xs
    r.final.developmentMode = false ∧
      (IsProcessing r.final cid → Ballot cid r.transitions r.final) := by
  refine chain_history T (P := fun ts s =>
    s.developmentMode = false ∧ (IsProcessing s cid → Ballot cid ts s)) ?_ ?_ xs
  · exact ⟨rfl, by simp [IsProcessing, genesis]⟩
  · intro ts s env origin call o heffect hs
    rcases hs with ⟨production, h⟩
    exact ⟨(configuration_of_effect heffect).1.trans production,
      ballot_of_effect heffect production h⟩

/-! ## The quorum law -/

theorem quorum_iff_fresh_ballot (listed : List AccountId32) (balances : Ledger)
    (xs : List (Extrinsic AccountId)) (env : Env) (sender : AccountId) (cid : Cid)
    (result : Bytes) :
    let r := exec (dispatch T) (genesis false listed balances) xs
    let t := fire (dispatch T) r.final ⟨env, .signed sender, .updateErrand cid result⟩
    Completes cid t →
      (HasQuorum r.final cid (sinceOpening cid (r.transitions ++ [t])) ↔
        openingVotes cid r.transitions = some [] ∧
          sender ∉ r.final.completedErrands.get cid) := by
  intro r t completes
  obtain ⟨production, hballot⟩ := ballot_history (T := T) listed balances xs cid
  have heffect := dispatch_effect T r.final ⟨env, .signed sender, .updateErrand cid result⟩
  obtain ⟨_, _, completion⟩ := completing_effect heffect completes.1 completes.2
  cases completion.signed
  cases completion.called
  have allowed := completion.allowed
  have accepted : Step.accepted t = some (sender, .updateErrand cid result) :=
    (Step.accepted_eq_some_iff t).mpr ⟨rfl, rfl, completion.accepted⟩
  obtain ⟨unopened, votes⟩ := vote_of_accepted accepted
  have recent (a : AccountId) :
      Occurs (Step.Votes · a cid) (sinceOpening cid (r.transitions ++ [t])) ↔
        Occurs (Step.Votes · a cid) (sinceOpening cid r.transitions) ∨ a = sender := by
    simp [unopened, votes]
  cases hballot completes.1 with
  | unvoted opening nobody =>
      -- the votes on record are older than the opening: the sender is the only voter since
      have voters (a : AccountId) :
          Occurs (Step.Votes · a cid) (sinceOpening cid (r.transitions ++ [t])) ↔
            a = sender ∨ a = sender := by
        rw [recent, or_self, or_iff_right (nobody a)]
      rw [hasQuorum_pair_iff allowed allowed voters, opening]
      have full := completion.votes production
      refine iff_of_false (fun h => h rfl) ?_
      intro h
      rcases h with ⟨empty, _⟩
      rw [Option.some.inj empty] at full
      simp [minUpdateResultAccount] at full
  | voted v opening recorded allowedv voters =>
      have voters (a : AccountId) := (recent a).trans (or_congr_left (voters a))
      rw [hasQuorum_pair_iff allowedv allowed voters, opening, recorded]
      simp [eq_comm]

/-- Alice's task is opened by its delegate Bob and has one vote by Alice. -/
def votedOnce : List (Extrinsic AccountId32) :=
  bobDelegates ++
    [submit 2 alice (.beginTask [1] [10] 5), submit 3 bob (.initErrand alice [7] [10]),
      submit 4 alice (.updateErrand [10] [42])]

/-- The condition at work: Charlie's vote makes two voters. -/
theorem quorum_iff_fresh_ballot_second_voter :
    let r := exec (dispatch runtime) localTestnet votedOnce
    let t := fire (dispatch runtime) r.final (submit 5 charlie (.updateErrand [10] [42]))
    Completes [10] t ∧
      (HasQuorum r.final [10] (sinceOpening [10] (r.transitions ++ [t])) ↔
        openingVotes [10] r.transitions = some [] ∧
          charlie ∉ r.final.completedErrands.get [10]) := by
  intro r t
  have completes : Completes [10] t :=
    ⟨⟨⟨Codec.encode alice, [7], [10], .processing, []⟩, by decide +kernel, rfl⟩,
      ⟨⟨Codec.encode alice, [7], [10], .done, [42]⟩, by decide +kernel, rfl⟩⟩
  exact ⟨completes, quorum_iff_fresh_ballot (T := runtime) [alice, bob, charlie, dave] endowed
    votedOnce (firstBlock 5) charlie [10] [42] completes⟩

/-- Alice votes a second time, and the errand is done on her word alone. -/
theorem votedOnce_completed_alone :
    let r := exec (dispatch runtime) localTestnet votedOnce
    let t := fire (dispatch runtime) r.final (submit 5 alice (.updateErrand [10] [42]))
    Completes [10] t ∧ ¬ HasQuorum r.final [10] (sinceOpening [10] (r.transitions ++ [t])) := by
  intro r t
  refine ⟨⟨⟨⟨Codec.encode alice, [7], [10], .processing, []⟩, by decide +kernel, rfl⟩,
    ⟨⟨Codec.encode alice, [7], [10], .done, [42]⟩, by decide +kernel, rfl⟩⟩, ?_⟩
  refine not_hasQuorum_of_single (v := alice) ?_
  intro a hvote
  rcases hvote with ⟨u, hu, result, haccepted⟩
  obtain ⟨horigin, hcall, _⟩ := (Step.accepted_eq_some_iff u).mp haccepted
  have hmem : u ∈ (exec (dispatch runtime) localTestnet
      (votedOnce ++ [submit 5 alice (.updateErrand [10] [42])])).transitions := by
    rw [exec_concat]
    exact (sinceLast_suffix _ _).subset hu
  have hinput := exec_mem_input (dispatch runtime) hmem
  simp only [votedOnce, bobDelegates, List.cons_append, List.nil_append, List.mem_cons,
    List.not_mem_nil, or_false] at hinput
  rcases hinput with h | h | h | h | h | h <;> simp [h, submit] at hcall horigin
  all_goals simp [horigin]

end AbcDemo.Errands
