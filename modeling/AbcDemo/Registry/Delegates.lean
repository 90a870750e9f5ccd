import AbcDemo.Pallet.History

/-! # Delegate status as a function of the history

The registration cell of an account is decided by what happened since the last
release of that account: a request opens it, the account's own update switches
it on, and nothing else writes it.
-/

namespace AbcDemo.Registry

open Foundation Pallet

variable {AccountId Ledger : Type} [DecidableEq AccountId] [Inhabited AccountId]
  [Codec AccountId] {T : Trait AccountId Ledger}

/-- What one call does to the registration of `a`. -/
inductive Registration (a : AccountId) (t : Step AccountId Ledger) : Prop where
  | released (reset : t.releases a = true) (after : t.after.delegates.find a = none)
  | requested (keeps : t.releases a = false) (request : t.Requests a) (other : ¬ t.Activates a)
      (before : t.before.delegates.find a = none) (after : t.after.delegates.find a = some false)
  | activated (keeps : t.releases a = false) (update : t.Activates a) (other : ¬ t.Requests a)
      (before : (t.before.delegates.find a).isSome) (after : t.after.delegates.find a = some true)
  | untouched (keeps : t.releases a = false) (request : ¬ t.Requests a) (update : ¬ t.Activates a)
      (after : t.after.delegates.find a = t.before.delegates.find a)

theorem registration_of_effect {s : State AccountId Ledger} {env : Env}
    {origin : RawOrigin AccountId} {call : Call AccountId} {o : CallOutcome AccountId Ledger}
    (h : Effect T env s origin call o) (a : AccountId) :
    Registration a (⟨s, ⟨env, origin, call⟩, o⟩ : Step AccountId Ledger) := by
  cases h
  case requested sender name address fresh =>
      by_cases ha : a = sender
      · subst ha
        apply Registration.requested rfl ⟨name, address, by simp⟩ _ fresh <;> simp [Step.Activates]
      · have hne : sender ≠ a := Ne.symm ha
        apply Registration.untouched rfl <;> simp [Step.Requests, Step.Activates, ha, hne]
  case activated sender active known =>
      by_cases ha : a = sender
      · subst ha
        apply Registration.activated rfl <;> simp [Step.Activates, Step.Requests, known]
      · have hne : sender ≠ a := Ne.symm ha
        apply Registration.untouched rfl <;> simp [Step.Requests, Step.Activates, ha, hne]
  case released name client =>
      by_cases ha : a = client
      · apply Registration.released <;> simp [Step.releases, ha]
      · have hne : client ≠ a := Ne.symm ha
        apply Registration.untouched <;>
          simp [Step.releases, Step.Requests, Step.Activates, ha, hne]
  case rejected e log unpaid refused =>
      have keeps : Step.releases (⟨s, ⟨env, origin, call⟩, ⟨.error e, s, log⟩⟩ :
          Step AccountId Ledger) a = false := by
        cases call with
        | unreserve name client => exact absurd (admitted_unreserve _ _ _ _ _ _) refused
        | _ => rfl
      apply Registration.untouched keeps _ _ rfl <;> simp [Step.Requests, Step.Activates]
  all_goals apply Registration.untouched rfl _ _ rfl <;> simp [Step.Requests, Step.Activates]

/-! ## The law over a run -/

/-- The registration of `a` says what the past since its last release says:
present from a request on, active from the update that follows it on. -/
def Recorded (a : AccountId) (ts : List (Step AccountId Ledger)) (s : State AccountId Ledger) :
    Prop :=
  ((s.delegates.find a).isSome ↔
      Occurs (Step.Requests · a) (sinceLast (Step.releases · a) ts)) ∧
    (s.delegates.find a = some true ↔
      Followed (Step.Requests · a) (Step.Activates · a) (sinceLast (Step.releases · a) ts))

theorem registration_history {g : State AccountId Ledger} (hg : ∀ a, g.delegates.find a = none)
    (a : AccountId) (xs : List (Extrinsic AccountId)) :
    Recorded a (exec (dispatch T) g xs).transitions (exec (dispatch T) g xs).final := by
  apply chain_history T (P := Recorded a)
  · simp [Recorded, hg a]
  · intro ts s env origin call o heffect h
    rcases h with ⟨present, active⟩
    cases registration_of_effect heffect a with
    | released reset after =>
        rw [Transition.after_mk] at after
        simp [Recorded, reset, after]
    | requested keeps request other before after =>
        -- the account was unknown: nothing it did before counts as activation
        rw [Transition.after_mk] at after
        have inactive : ¬ Followed (Step.Requests · a) (Step.Activates · a)
            (sinceLast (Step.releases · a) ts) := by
          rw [← active, before]
          simp
        simp [Recorded, keeps, after, request, other, inactive]
    | activated keeps update other before after =>
        rw [Transition.after_mk] at after
        have known := present.mp before
        simp [Recorded, keeps, after, update, known]
    | untouched keeps request update after =>
        rw [Transition.after_mk] at after
        simp [Recorded, keeps, after, request, update, present, active]

theorem delegate_status_iff_history (mode : Bool) (listed : List AccountId32) (balances : Ledger)
    (xs : List (Extrinsic AccountId)) :
    let r := exec (dispatch T) (genesis mode listed balances) xs
    (∀ a,
      (r.final.delegates.contains a = true ↔
        Occurs (Step.Requests · a) (sinceLast (Step.releases · a) r.transitions)) ∧
      (r.final.delegates.get a = true ↔
        Followed (Step.Requests · a) (Step.Activates · a)
          (sinceLast (Step.releases · a) r.transitions))) ∧
    ∀ pre t post client name cid fee, r.transitions = pre ++ t :: post →
      t.accepted = some (client, .beginTask name cid fee) →
      ∃ d, t.before.delegateAccounts.find name = some d ∧
        Followed (Step.Requests · d) (Step.Activates · d)
          (sinceLast (Step.releases · d) pre) := by
  intro r
  constructor
  · intro a
    have hlaw : Recorded a r.transitions r.final := registration_history (fun _ => rfl) a xs
    rcases hlaw with ⟨present, active⟩
    refine ⟨present, ?_⟩
    rw [← active, StorageMap.get_eq]
    cases r.final.delegates.find a with
    | none => exact iff_of_false Bool.false_ne_true nofun
    | some status => simp
  · intro pre t post client name cid fee hsplit haccepted
    have ht : t ∈ r.transitions := by simp [hsplit]
    obtain ⟨heffect, hok⟩ := accepted_effect T ht haccepted
    obtain ⟨d, _, task⟩ := heffect.beginTask_ok hok
    have hlaw : Recorded d pre t.before :=
      exec_law_before (dispatch T) (P := Recorded d) (registration_history (fun _ => rfl) d) hsplit
    exact ⟨d, task.named, hlaw.2.mp task.active⟩

end AbcDemo.Registry
