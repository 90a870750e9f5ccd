import AbcDemo.Pallet.Runtime
import AbcDemo.Registry.Authority

/-! # Where stored errands come from

The client and the identifier of a stored errand are those of the last
successful `init_errand` for its key, and that call was signed by the account
the client's last begun task had resolved to.
-/

namespace AbcDemo.Errands

open Foundation Pallet Registry

variable {AccountId Ledger : Type} [DecidableEq AccountId] [Inhabited AccountId]
  [Codec AccountId] {T : Trait AccountId Ledger}

/-- The part of a stored errand that only its opening decides. -/
def identity (cid : Cid) (s : State AccountId Ledger) : Option (ClientAccountId × ErrandId) :=
  (s.errands.find cid).map fun e => (e.accountId, e.errandId)

/-- What a step writes to the identity of the errand under `cid`. -/
def identityWrite (cid : Cid) (t : Step AccountId Ledger) :
    Option (Option (ClientAccountId × ErrandId)) :=
  match t.accepted with
  | some (_, .initErrand client errandId cid') =>
      if cid' = cid then some (some (Codec.encode client, errandId)) else none
  | _ => none

theorem identityWrite_of_effect {s : State AccountId Ledger} {env : Env}
    {origin : RawOrigin AccountId} {call : Call AccountId} {o : CallOutcome AccountId Ledger}
    (h : Effect T env s origin call o) (cid : Cid) :
    identity cid o.after =
      (identityWrite cid (⟨s, ⟨env, origin, call⟩, o⟩ : Step AccountId Ledger)).getD
        (identity cid s) := by
  cases h
  case inited sender client errandId cid' authority =>
    by_cases hc : cid = cid'
    · simp [identity, identityWrite, Step.accepted, hc]
    · simp [identity, identityWrite, Step.accepted, hc, Ne.symm hc]
  case finished sender cid' result errand present allowed mode =>
    by_cases hc : cid = cid'
    · simp [identity, identityWrite, Step.accepted, hc, present]
    · simp [identity, identityWrite, Step.accepted, hc]
  case elected sender cid' result errand present allowed mode pending enough =>
    by_cases hc : cid = cid'
    · simp [identity, identityWrite, Step.accepted, hc, present]
    · simp [identity, identityWrite, Step.accepted, hc]
  case rejected e log unpaid refused => cases origin <;> rfl
  case released name client => cases origin <;> rfl
  all_goals rfl

omit [Inhabited AccountId] [DecidableEq AccountId] in
theorem identityWrite_eq_none_iff {cid : Cid} {t : Step AccountId Ledger} :
    identityWrite cid t = none ↔ t.inits cid = false := by
  rcases t with ⟨s, ⟨env, origin, call⟩, ⟨result, s', w⟩⟩
  cases origin <;> cases result <;> cases call <;>
    simp [identityWrite, Step.inits, Step.accepted]

omit [Inhabited AccountId] [DecidableEq AccountId] in
theorem identityWrite_eq_some_iff {cid : Cid} {t : Step AccountId Ledger}
    {accountId : ClientAccountId} {errandId : ErrandId} :
    identityWrite cid t = some (some (accountId, errandId)) ↔
      ∃ delegator client, t.accepted = some (delegator, .initErrand client errandId cid) ∧
        accountId = Codec.encode client := by
  rcases t with ⟨s, ⟨env, origin, call⟩, ⟨result, s', w⟩⟩
  cases origin <;> cases result <;> cases call <;>
    simp [identityWrite, Step.accepted, eq_comm, and_assoc, and_comm]

/-- An accepted opening was signed by the delegate its client had by then. -/
theorem opening_authority {g : State AccountId Ledger} (hd : ∀ c, g.clientDelegate.find c = none)
    {xs : List (Extrinsic AccountId)} {pre post : List (Step AccountId Ledger)}
    {t : Step AccountId Ledger} {delegator client : AccountId} {errandId : ErrandId} {cid : Cid}
    (hsplit : (exec (dispatch T) g xs).transitions = pre ++ t :: post)
    (haccepted : t.accepted = some (delegator, .initErrand client errandId cid)) :
    LastBegunWith client delegator pre := by
  have ht : t ∈ (exec (dispatch T) g xs).transitions := by simp [hsplit]
  obtain ⟨heffect, hok⟩ := accepted_effect T ht haccepted
  have hlaw : t.before.clientDelegate.find client = some delegator ↔
      LastBegunWith client delegator pre :=
    exec_law_before (dispatch T)
      (P := fun ts s => s.clientDelegate.find client = some delegator ↔
        LastBegunWith client delegator ts)
      (clientDelegate_history hd client delegator) hsplit
  exact hlaw.mp (heffect.initErrand_ok hok)

/-- The identity of a stored errand is that of its last opening. -/
theorem identity_history {g : State AccountId Ledger} (hg : ∀ cid, g.errands.find cid = none)
    (cid : Cid) (xs : List (Extrinsic AccountId)) :
    identity cid (exec (dispatch T) g xs).final =
      (lastWrite (identityWrite cid) (exec (dispatch T) g xs).transitions).getD none := by
  rw [exec_cell (dispatch T) (identity cid) (identityWrite cid)
    (fun s x => identityWrite_of_effect (dispatch_effect T s x) cid) g xs]
  simp [identity, hg]

/-- A stored errand was opened by a call that carried its client and identifier,
signed by the client's delegate of that moment, and not opened again since. -/
theorem errand_opened {g : State AccountId Ledger} (hg : ∀ cid, g.errands.find cid = none)
    (hd : ∀ c, g.clientDelegate.find c = none) {cid : Cid} {xs : List (Extrinsic AccountId)}
    {e : Errand} (h : (exec (dispatch T) g xs).final.errands.find cid = some e) :
    ∃ (pre post : List (Step AccountId Ledger)) (t : Step AccountId Ledger)
      (client delegator : AccountId),
      (exec (dispatch T) g xs).transitions = pre ++ t :: post ∧
      t.accepted = some (delegator, .initErrand client e.errandId cid) ∧
      e.accountId = Codec.encode client ∧ LastBegunWith client delegator pre ∧
      ∀ u ∈ post, u.inits cid = false := by
  have hid := identity_history (T := T) hg cid xs
  rw [identity, h, Option.map_some] at hid
  obtain ⟨pre, t, post, hsplit, hwrite, hpost⟩ :=
    lastWrite_eq_some_iff.mp (getD_none_eq_some_iff.mp hid.symm)
  obtain ⟨delegator, client, haccepted, haccount⟩ := identityWrite_eq_some_iff.mp hwrite
  exact ⟨pre, post, t, client, delegator, hsplit, haccepted, haccount,
    opening_authority hd hsplit haccepted,
    fun u hu => identityWrite_eq_none_iff.mp (hpost u hu)⟩

/-! ## What the delegate is trusted with -/

/-- The identifier and the key of an errand are the delegate's own choice: only
the client is tied to a task that was accepted. -/
theorem errand_of_begun_client (mode : Bool) (listed : List AccountId32) (balances : Ledger)
    (xs : List (Extrinsic AccountId)) :
    let r := exec (dispatch T) (genesis mode listed balances) xs
    ∀ cid e, r.final.errands.find cid = some e →
      ∃ (pre mid post : List (Step AccountId Ledger)) (b t : Step AccountId Ledger)
        (c d : AccountId),
        r.transitions = pre ++ b :: mid ++ t :: post ∧ b.BeginsWith c d ∧
        e.accountId = Codec.encode c ∧
        t.accepted = some (d, .initErrand c e.errandId cid) ∧
        (∀ u ∈ mid, ¬ u.Begins c ∧ u.releases c = false) ∧
        ∀ u ∈ post, u.inits cid = false := by
  intro r cid e he
  obtain ⟨opened, post, t, c, d, hsplit, haccepted, haccount, hlast, hpost⟩ :=
    errand_opened (T := T) (g := genesis mode listed balances) (fun _ => rfl) (fun _ => rfl) he
  rcases hlast with ⟨pre, b, mid, rfl, hbegins, hmid⟩
  exact ⟨pre, mid, post, b, t, c, d, by simpa using hsplit, hbegins, haccount, haccepted, hmid,
    hpost⟩

/-- A delegate opens an errand under a key and an identifier of its own. -/
def strayOpening : List (Extrinsic AccountId32) :=
  bobDelegates ++
    [submit 2 alice (.beginTask [1] [10] 5), submit 3 bob (.initErrand alice [7] [11])]

theorem strayOpening_errand_without_task :
    ∃ e, (exec (dispatch runtime) localTestnet strayOpening).final.errands.find [11] = some e ∧
      ¬ Occurs (fun t : Step AccountId32 Balances =>
          ∃ c, Codec.encode c = e.accountId ∧ t.AcceptsTask runtime c [11] e.errandId)
        (exec (dispatch runtime) localTestnet strayOpening).transitions := by
  refine ⟨⟨Codec.encode alice, [7], [11], .processing, []⟩, by decide +kernel, ?_⟩
  intro h
  rcases h with ⟨t, ht, c, _, name, fee, d, haccepted, _⟩
  have hcall := ((Step.accepted_eq_some_iff t).mp haccepted).2.1
  have hinput := exec_mem_input (dispatch runtime) ht
  simp only [strayOpening, bobDelegates, List.cons_append, List.nil_append, List.mem_cons,
    List.not_mem_nil, or_false] at hinput
  rcases hinput with h | h | h | h <;> simp [h, submit] at hcall

/-! ## The authority law over a run -/

theorem init_authority_iff_history (mode : Bool) (listed : List AccountId32) (balances : Ledger)
    (xs : List (Extrinsic AccountId)) :
    let r := exec (dispatch T) (genesis mode listed balances) xs
    (∀ c d, r.final.clientDelegate.find c = some d ↔ LastBegunWith c d r.transitions) ∧
    (∀ env c errandId cid s,
      (fire (dispatch T) r.final ⟨env, .signed s, .initErrand c errandId cid⟩).outcome.Succeeds ↔
        LastBegunWith c s r.transitions) ∧
    ∀ cid e, r.final.errands.find cid = some e →
      ∃ (c : AccountId) (pre post : List (Step AccountId Ledger)) (t : Step AccountId Ledger),
        Codec.decode e.accountId = some c ∧ r.transitions = pre ++ t :: post ∧
        t.inits cid = true ∧ Occurs (Step.Begins · c) pre := by
  intro r
  have hlaw (c d : AccountId) : r.final.clientDelegate.find c = some d ↔
      LastBegunWith c d r.transitions := clientDelegate_history (T := T) (fun _ => rfl) c d xs
  refine ⟨hlaw, ?_, ?_⟩
  · intro env c errandId cid s
    rw [← hlaw c s]
    exact initErrand_succeeds_iff r.final s c errandId cid
  · intro cid e he
    obtain ⟨pre, post, t, c, d, hsplit, haccepted, haccount, hlast, _⟩ :=
      errand_opened (T := T) (g := genesis mode listed balances) (fun _ => rfl) (fun _ => rfl) he
    rcases hlast with ⟨early, b, mid, rfl, ⟨name, cid', fee, hb, _⟩, _⟩
    refine ⟨c, _, post, t, by simp [haccount], hsplit, by simp [Step.inits, haccepted], ?_⟩
    exact ⟨b, by simp, name, cid', fee, hb⟩

end AbcDemo.Errands
