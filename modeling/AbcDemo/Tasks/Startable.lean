import AbcDemo.Errands.Lifecycle
import AbcDemo.Registry.Authority

/-! # Which accepted tasks can still be started

A client has one delegate slot and any number of tasks. A task can be started
by its own delegate as long as no later task of the client goes to another, so
every accepted task can be started exactly when no client changes delegates
with an earlier task still waiting.
-/

namespace AbcDemo.Tasks

open Foundation Pallet Errands Registry

variable {AccountId Ledger : Type}

/-- A successful `begin_task` by `c` for `cid` whose name resolved to `d`. -/
def BeginsFor (c d : AccountId) (cid : Cid) (t : Step AccountId Ledger) : Prop :=
  ∃ name fee, t.accepted = some (c, .beginTask name cid fee) ∧
    t.before.delegateAccounts.find name = some d

def isRelease : Call AccountId → Bool
  | .unreserve _ _ => true
  | _ => false

variable [DecidableEq AccountId] [Inhabited AccountId] [Codec AccountId]
  {T : Trait AccountId Ledger}

/-- In every later state without its errand, an accepted task can be started by
its delegate, under the identifier the task was given. -/
def Startable (T : Trait AccountId Ledger) (g : State AccountId Ledger)
    (xs : List (Extrinsic AccountId)) : Prop :=
  ∀ is₁ x is₂, is₁ ++ x :: is₂ <+: xs → ∀ c d cid,
    BeginsFor c d cid (fire (dispatch T) (exec (dispatch T) g is₁).final x) →
    let s := (exec (dispatch T) g (is₁ ++ x :: is₂)).final
    s.errands.find cid = none → ∀ env,
      (fire (dispatch T) s ⟨env, .signed d,
        .initErrand c (generateErrandId T x.env d) cid⟩).outcome.Succeeds

/-- A client begins a task with another delegate only after the errands of its
tasks with the former one are there. -/
def SwitchesAfterOpening (ts : List (Step AccountId Ledger)) : Prop :=
  ∀ pre b mid b' post c d d' cid, ts = pre ++ b :: mid ++ b' :: post →
    BeginsFor c d cid b → b'.BeginsWith c d' → d' ≠ d → (b'.before.errands.find cid).isSome

/-- The task of `c` with `d` for `cid` needs nothing more, or can be started. -/
def Ready (c d : AccountId) (cid : Cid) (s : State AccountId Ledger) : Prop :=
  s.clientDelegate.find c = some d ∨ (s.errands.find cid).isSome

theorem ready_of_effect {s : State AccountId Ledger} {env : Env} {origin : RawOrigin AccountId}
    {call : Call AccountId} {o : CallOutcome AccountId Ledger} (h : Effect T env s origin call o)
    (unreleased : isRelease call = false) {c d : AccountId} {cid : Cid}
    (switch : ∀ d', Step.BeginsWith ⟨s, ⟨env, origin, call⟩, o⟩ c d' → d' ≠ d →
      (s.errands.find cid).isSome)
    (ready : Ready c d cid s) : Ready c d cid o.after := by
  rcases ready with authority | present
  · cases h
    case begun client delegator name cid' fee balances named active fresh unlisted positive
        funded =>
      by_cases hc : c = client
      · by_cases hd : delegator = d
        · exact .inl (by simp [hc, hd])
        · subst hc
          exact .inr (switch delegator ⟨name, cid', fee, by simp, named⟩ hd)
      · exact .inl (by simpa [hc] using authority)
    case released => cases unreleased
    all_goals exact .inl authority
  · exact .inr (errand_present_of_effect h present)

theorem clientDelegate_of_beginsWith {g : State AccountId Ledger} {xs : List (Extrinsic AccountId)}
    {t : Step AccountId Ledger} (ht : t ∈ (exec (dispatch T) g xs).transitions) {c d : AccountId}
    (h : t.BeginsWith c d) :
    t.after.clientDelegate.find c = some d ∧ t.after.errands = t.before.errands := by
  rcases h with ⟨name, cid, fee, haccepted, named⟩
  obtain ⟨heffect, hok⟩ := accepted_effect T ht haccepted
  obtain ⟨d', _, task⟩ := heffect.beginTask_ok hok
  obtain rfl : d' = d := Option.some.inj (task.named.symm.trans named)
  rw [Transition.after, task.outcome]
  exact ⟨by simp, rfl⟩

/-- While no task is switched too early, an accepted task stays ready. -/
theorem ready_of_run {g : State AccountId Ledger} {xs : List (Extrinsic AccountId)}
    (unreleased : ∀ x ∈ xs, isRelease x.call = false)
    (switches : SwitchesAfterOpening (exec (dispatch T) g xs).transitions)
    {is₁ : List (Extrinsic AccountId)} {x : Extrinsic AccountId} {c d : AccountId} {cid : Cid}
    (begins : BeginsFor c d cid (fire (dispatch T) (exec (dispatch T) g is₁).final x))
    (is₂ : List (Extrinsic AccountId)) (initial : is₁ ++ x :: is₂ <+: xs) :
    Ready c d cid (exec (dispatch T) g (is₁ ++ x :: is₂)).final := by
  induction is₂ using List.reverseRecOn with
  | nil =>
      have ht := fire_mem_exec (dispatch T) (s := g) initial
      obtain ⟨name, fee, haccepted, named⟩ := begins
      obtain ⟨authority, _⟩ := clientDelegate_of_beginsWith ht ⟨name, cid, fee, haccepted, named⟩
      rw [exec_concat]
      exact .inl authority
  | append_singleton is₂ y ih =>
      rw [← List.cons_append, ← List.append_assoc] at initial ⊢
      have ready := ih ((List.prefix_append _ _).trans initial)
      rw [exec_concat]
      obtain ⟨rest, rfl⟩ := initial
      apply ready_of_effect (dispatch_effect T _ y) (unreleased y (by simp)) _ ready
      intro d' switched other
      rw [List.append_assoc (is₁ ++ x :: is₂), List.singleton_append,
        exec_transitions_append_cons, exec_transitions_append_cons] at switches
      exact switches _ _ _ _ _ c d d' cid rfl begins switched other

theorem startable_iff_switches_after_opening (mode : Bool) (listed : List AccountId32)
    (balances : Ledger) (xs : List (Extrinsic AccountId))
    (unreleased : ∀ x ∈ xs, isRelease x.call = false) :
    let g : State AccountId Ledger := genesis mode listed balances
    Startable T g xs ↔ SwitchesAfterOpening (exec (dispatch T) g xs).transitions := by
  intro g
  constructor
  · intro startable pre b mid b' post c d d' cid hsplit begins switches other
    have hb' : b' ∈ (exec (dispatch T) g xs).transitions := by simp [hsplit]
    obtain ⟨authority, errands⟩ := clientDelegate_of_beginsWith hb' switches
    obtain ⟨is, is₃, rfl, hbefore, hfire', _⟩ := exec_split (dispatch T) hsplit
    have hearly : (exec (dispatch T) g is).transitions = pre ++ b :: mid := by rw [hbefore]
    obtain ⟨is₁, is₂, rfl, hpre, hfire, _⟩ := exec_split (dispatch T) hearly
    by_contra missing
    rw [Option.not_isSome_iff_eq_none] at missing
    have later :
        (exec (dispatch T) g (is₁ ++ b.input :: (is₂ ++ [b'.input]))).final = b'.after := by
      rw [← List.cons_append, ← List.append_assoc, exec_concat, hbefore, ← hfire']
    have started := startable is₁ b.input (is₂ ++ [b'.input]) (by simp) c d cid
      (by rw [hpre, ← hfire]; exact begins) (by rw [later, errands, missing]) b.input.env
    rw [later] at started
    have held := (initErrand_succeeds_iff b'.after d c _ cid).mp started
    rw [authority] at held
    exact other (Option.some.inj held)
  · intro switches is₁ x is₂ initial c d cid begins s missing env
    have ready : Ready c d cid s := ready_of_run unreleased switches begins is₂ initial
    exact (initErrand_succeeds_iff s d c _ cid).mpr (ready.resolve_right (by simp [missing]))

/-- Charlie is a delegate too. Alice gives one task to Bob, then one to Charlie. -/
def twoDelegates : List (Extrinsic AccountId32) :=
  bobDelegates ++
    [submit 2 charlie (.requestDelegate [2] [9]), submit 3 charlie (.updateDelegateStatus charlie),
      submit 4 alice (.beginTask [1] [10] 5), submit 5 alice (.beginTask [2] [12] 7)]

theorem startable_iff_switches_after_opening_twoDelegates :
    (∀ x ∈ twoDelegates, isRelease x.call = false) ∧
      (Startable runtime localTestnet twoDelegates ↔
        SwitchesAfterOpening (exec (dispatch runtime) localTestnet twoDelegates).transitions) := by
  have unreleased : ∀ x ∈ twoDelegates, isRelease x.call = false := by decide
  exact ⟨unreleased, startable_iff_switches_after_opening false [alice, bob, charlie, dave] endowed
    twoDelegates unreleased⟩

/-- Bob can no longer start the task he was given first. -/
theorem twoDelegates_task_stranded :
    (∀ x ∈ twoDelegates, isRelease x.call = false) ∧
      ¬ Startable runtime localTestnet twoDelegates := by
  refine ⟨by decide, fun startable => ?_⟩
  have begun : BeginsFor alice bob [10] (fire (dispatch runtime)
      (exec (dispatch runtime) localTestnet (twoDelegates.take 4)).final
      (submit 4 alice (.beginTask [1] [10] 5))) :=
    ⟨[1], 5, by decide +kernel, by decide +kernel⟩
  have started := startable (twoDelegates.take 4) (submit 4 alice (.beginTask [1] [10] 5))
    [submit 5 alice (.beginTask [2] [12] 7)] (List.prefix_refl _) alice bob [10] begun
    (by decide +kernel) (firstBlock 6)
  revert started
  decide +kernel

end AbcDemo.Tasks
