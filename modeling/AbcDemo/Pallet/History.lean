import AbcDemo.Foundation.Execution
import AbcDemo.Pallet.Steps

/-! # Runs of the pallet and what their steps were

A run dispatches extrinsics one after another from a genesis state. Its steps
keep the state before, the extrinsic and the outcome; the predicates below say
which accepted call a step was. A law over runs is proved from the effects of
one call.
-/

namespace AbcDemo.Pallet

open Foundation

variable {AccountId Ledger : Type}

abbrev Step (AccountId Ledger : Type) :=
  Transition (State AccountId Ledger) (Extrinsic AccountId) (Observation AccountId) DispatchError

namespace Step

variable (t : Step AccountId Ledger)

/-- The signed call of a step that returned `Ok`. -/
def accepted : Option (AccountId × Call AccountId) :=
  match t.input.origin, t.outcome.result with
  | .signed account, .ok _ => some (account, t.input.call)
  | _, _ => none

@[simp] theorem accepted_eq_some_iff {a : AccountId} {call : Call AccountId} :
    t.accepted = some (a, call) ↔
      t.input.origin = .signed a ∧ t.input.call = call ∧ t.outcome.Succeeds := by
  rcases t with ⟨s, ⟨env, origin, call'⟩, ⟨result, s', w⟩⟩
  cases origin <;> cases result <;> simp [accepted]

/-- A successful `request_delegate` signed by `a`. -/
def Requests (a : AccountId) : Prop :=
  ∃ name address, t.accepted = some (a, .requestDelegate name address)

/-- A successful `update_delegate_status(a)` signed by `a`. -/
def Activates (a : AccountId) : Prop := t.accepted = some (a, .updateDelegateStatus a)

/-- A successful `begin_task` by `c`. -/
def Begins (c : AccountId) : Prop := ∃ name cid fee, t.accepted = some (c, .beginTask name cid fee)

/-- A successful `begin_task` by `c` whose name resolved to `d` at that moment. -/
def BeginsWith (c d : AccountId) : Prop :=
  ∃ name cid fee, t.accepted = some (c, .beginTask name cid fee) ∧
    t.before.delegateAccounts.find name = some d

/-- A successful `begin_task` by `c` for `cid` that generated the identifier `errandId`. -/
def AcceptsTask [Codec AccountId] (T : Trait AccountId Ledger) (c : AccountId) (cid : Cid)
    (errandId : ErrandId) : Prop :=
  ∃ name fee d, t.accepted = some (c, .beginTask name cid fee) ∧
    t.before.delegateAccounts.find name = some d ∧ generateErrandId T t.input.env d = errandId

/-- A successful `update_errand(cid, _)` signed by `a`. -/
def Votes (a : AccountId) (cid : Cid) : Prop :=
  ∃ result, t.accepted = some (a, .updateErrand cid result)

/-- A call `unreserve(_, a)`, by whatever origin. -/
def releases [DecidableEq AccountId] (a : AccountId) : Bool :=
  match t.input.call with
  | .unreserve _ client => client = a
  | _ => false

/-- A successful `init_errand` for `cid`. -/
def inits (cid : Cid) : Bool :=
  match t.accepted with
  | some (_, .initErrand _ _ cid') => cid' = cid
  | _ => false

end Step

variable [DecidableEq AccountId] [Inhabited AccountId] [Codec AccountId]
  (T : Trait AccountId Ledger)

/-- The history rule of the pallet: extend the law over each effect of one call. -/
theorem chain_history {P : List (Step AccountId Ledger) → State AccountId Ledger → Prop}
    {g : State AccountId Ledger} (h0 : P [] g)
    (hstep : ∀ ts s env origin call o, Effect T env s origin call o → P ts s →
      P (ts ++ [⟨s, ⟨env, origin, call⟩, o⟩]) o.after)
    (xs : List (Extrinsic AccountId)) :
    P (exec (dispatch T) g xs).transitions (exec (dispatch T) g xs).final :=
  exec_history (dispatch T) h0
    (fun ts s x h => hstep ts s x.env x.origin x.call _ (dispatch_effect T s x) h) xs

theorem chain_invariant {P : State AccountId Ledger → Prop} {g : State AccountId Ledger}
    (h0 : P g)
    (hstep : ∀ s env origin call o, Effect T env s origin call o → P s → P o.after)
    (xs : List (Extrinsic AccountId)) : P (exec (dispatch T) g xs).final :=
  chain_history T (P := fun _ s => P s) h0 (fun _ s env origin call o => hstep s env origin call o)
    xs

/-- No call writes the items that genesis configures. -/
theorem configuration_of_effect {T : Trait AccountId Ledger} {s : State AccountId Ledger}
    {env : Env} {origin : RawOrigin AccountId} {call : Call AccountId}
    {o : CallOutcome AccountId Ledger} (h : Effect T env s origin call o) :
    o.after.developmentMode = s.developmentMode ∧
      o.after.updateResultAccounts = s.updateResultAccounts := by
  cases h <;> exact ⟨rfl, rfl⟩

/-- Nor does a run. -/
theorem configuration_of_run (g : State AccountId Ledger) (xs : List (Extrinsic AccountId)) :
    (exec (dispatch T) g xs).final.developmentMode = g.developmentMode ∧
      (exec (dispatch T) g xs).final.updateResultAccounts = g.updateResultAccounts := by
  apply chain_invariant T (P := fun s =>
    s.developmentMode = g.developmentMode ∧ s.updateResultAccounts = g.updateResultAccounts)
  · exact ⟨rfl, rfl⟩
  · intro s env origin call o heffect h
    obtain ⟨mode, accounts⟩ := configuration_of_effect heffect
    exact ⟨mode.trans h.1, accounts.trans h.2⟩

theorem configuration_of_step {g : State AccountId Ledger} {xs : List (Extrinsic AccountId)}
    {t : Step AccountId Ledger} (h : t ∈ (exec (dispatch T) g xs).transitions) :
    t.before.developmentMode = g.developmentMode ∧
      t.before.updateResultAccounts = g.updateResultAccounts := by
  obtain ⟨_, is, hbefore⟩ := exec_mem (dispatch T) h
  rw [← hbefore]
  exact configuration_of_run T g is

/-- Every step of a run is a real dispatch. -/
theorem chain_effect {g : State AccountId Ledger} {xs : List (Extrinsic AccountId)}
    {t : Step AccountId Ledger} (h : t ∈ (exec (dispatch T) g xs).transitions) :
    Effect T t.input.env t.before t.input.origin t.input.call t.outcome := by
  rw [(exec_mem (dispatch T) h).1]
  exact dispatch_effect T _ _

/-- What an accepted call of a run did. -/
theorem accepted_effect {g : State AccountId Ledger} {xs : List (Extrinsic AccountId)}
    {t : Step AccountId Ledger} (ht : t ∈ (exec (dispatch T) g xs).transitions) {a : AccountId}
    {call : Call AccountId} (h : t.accepted = some (a, call)) :
    Effect T t.input.env t.before (.signed a) call t.outcome ∧ t.outcome.Succeeds := by
  obtain ⟨horigin, hcall, hok⟩ := (Step.accepted_eq_some_iff t).mp h
  have heffect := chain_effect T ht
  rw [horigin, hcall] at heffect
  exact ⟨heffect, hok⟩

end AbcDemo.Pallet
