import AbcDemo.Pallet.Runtime
import AbcDemo.Registry.Delegates

/-! # The queue of delegate applications

The applications of a block are its successful requests, in order. The lists of
a block are only written while that block is executing, and an account can only
apply again after its registration has been released.
-/

namespace AbcDemo.Registry

open Foundation Pallet

variable {AccountId Ledger : Type} [DecidableEq AccountId]

/-- The name and sender of a successful `request_delegate` in block `b`. -/
def application (b : BlockNumber) (t : Step AccountId Ledger) :
    Option (DelegatorName × AccountId) :=
  match t.accepted with
  | some (sender, .requestDelegate name _) =>
      if t.input.env.blockNumber = b then some (name, sender) else none
  | _ => none

/-- How often an account occurs among applications. -/
def occurrences (a : AccountId) (applications : List (DelegatorName × AccountId)) : Nat :=
  (applications.map Prod.snd).count a

variable [Inhabited AccountId] [Codec AccountId] {T : Trait AccountId Ledger}

theorem application_of_effect {s : State AccountId Ledger} {env : Env}
    {origin : RawOrigin AccountId} {call : Call AccountId} {o : CallOutcome AccountId Ledger}
    (h : Effect T env s origin call o) (b : BlockNumber) :
    o.after.delegatesApplys.get b =
      s.delegatesApplys.get b ++
        (application b (⟨s, ⟨env, origin, call⟩, o⟩ : Step AccountId Ledger)).toList := by
  cases h
  case requested sender name address fresh =>
    by_cases hb : env.blockNumber = b
    · simp [application, Step.accepted, hb]
    · simp [application, Step.accepted, hb, Ne.symm hb]
  case rejected e log unpaid refused => simp [application, Step.accepted]
  case released name client => cases origin <;> simp [application, Step.accepted]
  all_goals simp [application, Step.accepted]

/-! ## Past blocks -/

/-- The lists of block `b` are the same in both states. -/
structure Frozen (b : BlockNumber) (s s' : State AccountId Ledger) : Prop where
  applications : s'.delegatesApplys.find b = s.delegatesApplys.find b
  tasks : s'.tasks.find b = s.tasks.find b

omit [DecidableEq AccountId] [Inhabited AccountId] [Codec AccountId] in
theorem Frozen.refl (b : BlockNumber) (s : State AccountId Ledger) : Frozen b s s := ⟨rfl, rfl⟩

omit [DecidableEq AccountId] [Inhabited AccountId] [Codec AccountId] in
theorem Frozen.trans {b : BlockNumber} {s s' s'' : State AccountId Ledger} (h : Frozen b s s')
    (h' : Frozen b s' s'') : Frozen b s s'' :=
  ⟨h'.applications.trans h.applications, h'.tasks.trans h.tasks⟩

theorem frozen_of_effect {s : State AccountId Ledger} {env : Env}
    {origin : RawOrigin AccountId} {call : Call AccountId} {o : CallOutcome AccountId Ledger}
    (h : Effect T env s origin call o) {b : BlockNumber} (other : b ≠ env.blockNumber) :
    Frozen b s o.after := by
  cases h
  case requested => exact ⟨by simp [other], rfl⟩
  case begun => exact ⟨rfl, by simp [other]⟩
  case taskListTaken => exact ⟨rfl, by simp [other]⟩
  all_goals exact ⟨rfl, rfl⟩

/-- A run that stays out of block `b` leaves its lists alone. -/
theorem frozen_of_run (s : State AccountId Ledger) {b : BlockNumber}
    {xs : List (Extrinsic AccountId)} (later : ∀ x ∈ xs, b < x.env.blockNumber) :
    Frozen b s (exec (dispatch T) s xs).final := by
  have steps := exec_preorder_iff (dispatch T) (R := Frozen b) (Frozen.refl b) Frozen.trans s xs
  refine steps.mpr ?_ [] xs (List.prefix_refl xs)
  intro t ht
  exact frozen_of_effect (chain_effect T ht) (later t.input (exec_mem_input _ ht)).ne

/-! ## Repeated applications -/

/-- A successful `request_delegate` signed by `a`. -/
def requests (a : AccountId) (t : Step AccountId Ledger) : Nat :=
  match t.accepted with
  | some (sender, .requestDelegate _ _) => if sender = a then 1 else 0
  | _ => 0

omit [Inhabited AccountId] [Codec AccountId] in
theorem occurrences_application (a : AccountId) (b : BlockNumber) (t : Step AccountId Ledger) :
    occurrences a (application b t).toList =
      if t.input.env.blockNumber = b then requests a t else 0 := by
  cases haccepted : t.accepted with
  | none => simp [application, requests, occurrences, haccepted]
  | some signed =>
      rcases signed with ⟨sender, call⟩
      cases call with
      | requestDelegate name address =>
          by_cases hb : t.input.env.blockNumber = b <;>
            simp [application, requests, occurrences, haccepted, hb, List.count_singleton]
      | _ => simp [application, requests, occurrences, haccepted]

omit [Inhabited AccountId] [Codec AccountId] in
/-- An application is made in one block, so the blocks share out the requests. -/
theorem sum_applications_le (a : AccountId) (ts : List (Step AccountId Ledger))
    (blocks : Finset BlockNumber) :
    ∑ b ∈ blocks, occurrences a (ts.filterMap (application b)) ≤ (ts.map (requests a)).sum := by
  induction ts with
  | nil => simp [occurrences]
  | cons t ts ih =>
      have split (b : BlockNumber) : occurrences a ((t :: ts).filterMap (application b)) =
          occurrences a (application b t).toList +
            occurrences a (ts.filterMap (application b)) := by
        cases h : application b t <;> simp [occurrences, h, List.count_cons, Nat.add_comm]
      simp only [split, Finset.sum_add_distrib, occurrences_application, Finset.sum_ite_eq,
        List.map_cons, List.sum_cons]
      split <;> omega

omit [Inhabited AccountId] [Codec AccountId] in
theorem requests_le_one (a : AccountId) (t : Step AccountId Ledger) : requests a t ≤ 1 := by
  unfold requests
  split
  · split <;> omega
  · omega

omit [Inhabited AccountId] [Codec AccountId] in
theorem requests_eq_zero {a : AccountId} {t : Step AccountId Ledger} (h : ¬ t.Requests a) :
    requests a t = 0 := by
  unfold requests
  split
  · rename_i sender name address haccepted
    rw [if_neg]
    intro hs
    subst hs
    exact h ⟨name, address, haccepted⟩
  · rfl

omit [Inhabited AccountId] [Codec AccountId] in
theorem not_requests_of_releases {a : AccountId} {t : Step AccountId Ledger}
    (h : t.releases a = true) : ¬ t.Requests a := by
  rintro ⟨name, address, haccepted⟩
  rw [Step.releases, ((Step.accepted_eq_some_iff t).mp haccepted).2.1] at h
  cases h

/-- Whether `a` may still request. -/
def unregistered (a : AccountId) (s : State AccountId Ledger) : Nat :=
  if (s.delegates.find a).isSome then 0 else 1

theorem unregistered_of_effect {s : State AccountId Ledger} {env : Env}
    {origin : RawOrigin AccountId} {call : Call AccountId} {o : CallOutcome AccountId Ledger}
    (h : Effect T env s origin call o) (a : AccountId) :
    unregistered a o.after + requests a (⟨s, ⟨env, origin, call⟩, o⟩ : Step AccountId Ledger) ≤
      unregistered a s + if Step.releases ⟨s, ⟨env, origin, call⟩, o⟩ a then 1 else 0 := by
  have once := requests_le_one a (⟨s, ⟨env, origin, call⟩, o⟩ : Step AccountId Ledger)
  cases registration_of_effect h a with
  | released reset after =>
      rw [Transition.after_mk] at after
      rw [requests_eq_zero (not_requests_of_releases reset)]
      simp [unregistered, reset, after]
  | requested keeps request other before after =>
      rw [Transition.after_mk] at after
      have before : s.delegates.find a = none := before
      simpa [unregistered, after, keeps, before] using once
  | activated keeps update other before after =>
      rw [Transition.after_mk] at after
      rw [requests_eq_zero other]
      simp [unregistered, after]
  | untouched keeps request update after =>
      rw [Transition.after_mk] at after
      rw [requests_eq_zero request]
      simp [unregistered, after]

/-- A registered account cannot request; it can once more after a release. -/
theorem requests_budget (a : AccountId) (g : State AccountId Ledger)
    (hg : g.delegates.find a = none) (xs : List (Extrinsic AccountId)) :
    ((exec (dispatch T) g xs).transitions.map (requests a)).sum ≤
      1 + (exec (dispatch T) g xs).transitions.countP (Step.releases · a) := by
  have budget := exec_budget (dispatch T) (P := fun _ => True) (fun _ _ _ => trivial)
    (unregistered a) (fun t => if Step.releases t a then 1 else 0) (requests a)
    (fun s x _ => unregistered_of_effect (dispatch_effect T s x) a) (s := g) trivial xs
  have initially : unregistered a g = 1 := by simp [unregistered, hg]
  rw [sum_map_indicator, initially] at budget
  exact (Nat.le_add_left _ _).trans budget

theorem applications_faithful (mode : Bool) (listed : List AccountId32) (balances : Ledger)
    (xs : List (Extrinsic AccountId))
    (ordered : (xs.map (·.env.blockNumber)).Pairwise (· ≤ ·)) :
    let g : State AccountId Ledger := genesis mode listed balances
    let r := exec (dispatch T) g xs
    (∀ b, r.final.delegatesApplys.get b = r.transitions.filterMap (application b)) ∧
    (∀ is₁ x is₂, is₁ ++ x :: is₂ <+: xs → ∀ b, b < x.env.blockNumber →
      Frozen b (exec (dispatch T) g is₁).final (exec (dispatch T) g (is₁ ++ x :: is₂)).final) ∧
    ∀ a (blocks : Finset BlockNumber),
      ∑ b ∈ blocks, occurrences a (r.final.delegatesApplys.get b) ≤
        1 + r.transitions.countP (Step.releases · a) := by
  intro g r
  have queue (b : BlockNumber) :
      r.final.delegatesApplys.get b = r.transitions.filterMap (application b) :=
    exec_journal (dispatch T) (P := fun _ => True) (fun _ _ _ => trivial)
      (fun s => s.delegatesApplys.get b) (application b)
      (fun s x _ => application_of_effect (dispatch_effect T s x) b) trivial xs
  refine ⟨queue, ?_, ?_⟩
  · intro is₁ x is₂ initial b hb
    obtain ⟨rest, rfl⟩ := initial
    rw [exec_append]
    apply frozen_of_run
    intro y hy
    have following : x.env.blockNumber ≤ y.env.blockNumber := by
      rw [List.append_assoc, List.map_append] at ordered
      have ordered := (List.pairwise_append.mp ordered).2.1
      rcases List.mem_cons.mp hy with rfl | hy
      · exact Nat.le_refl _
      · exact List.rel_of_pairwise_cons ordered (List.mem_map.mpr ⟨y, by simp [hy], rfl⟩)
    exact hb.trans_le following
  · intro a blocks
    simp only [queue]
    exact (sum_applications_le a r.transitions blocks).trans (requests_budget a g rfl xs)

/-- Two delegates apply in the first block, and a task begins in the second. -/
def twoBlocks : List (Extrinsic AccountId32) :=
  [submit 0 bob (.requestDelegate [1] [9]), submit 1 charlie (.requestDelegate [2] [9]),
    submit 2 bob (.updateDelegateStatus bob),
    ⟨⟨2, List.replicate 32 0, some 0⟩, .signed alice, .beginTask [1] [10] 5⟩]

theorem applications_faithful_twoBlocks :
    (twoBlocks.map (·.env.blockNumber)).Pairwise (· ≤ ·) ∧
      let r := exec (dispatch runtime) localTestnet twoBlocks
      r.final.delegatesApplys.get 1 = r.transitions.filterMap (application 1) := by
  have ordered : (twoBlocks.map (·.env.blockNumber)).Pairwise (· ≤ ·) := by decide
  exact ⟨ordered, (applications_faithful false [alice, bob, charlie, dave] endowed twoBlocks
    ordered).1 1⟩

end AbcDemo.Registry
