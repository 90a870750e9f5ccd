import AbcDemo.Pallet.Runtime

/-! # The life of an errand

Two stores tell whether an errand is being processed, and they agree in every
reachable state. What an errand has once become is kept by every later call
except two: opening it again, and submitting another result for it in
development mode.
-/

namespace AbcDemo.Errands

open Foundation Pallet

variable {AccountId Ledger : Type} [DecidableEq AccountId] [Inhabited AccountId]
  [Codec AccountId] {T : Trait AccountId Ledger}

/-! ## The processing list and the statuses -/

def IsProcessing (s : State AccountId Ledger) (cid : Cid) : Prop :=
  ∃ e, s.errands.find cid = some e ∧ e.status = .processing

/-- The stored errand is the one its key names, and has no result before it is done. -/
structure StoredUnder (cid : Cid) (e : Errand) : Prop where
  keyed : e.descriptionCid = cid
  pending : e.status = .processing → e.result = []

structure Coherent (s : State AccountId Ledger) : Prop where
  listed : ∀ cid, cid ∈ s.processingErrands ↔ IsProcessing s cid
  formed : ∀ cid e, s.errands.find cid = some e → StoredUnder cid e

omit [DecidableEq AccountId] [Inhabited AccountId] in
theorem coherent_inited {s : State AccountId Ledger} (h : Coherent s) (client : AccountId)
    (errandId : ErrandId) (cid : Cid) : Coherent (s.inited client errandId cid) where
  listed cid' := by
    by_cases hc : cid' = cid
    · simp [IsProcessing, hc]
    · simp [IsProcessing, hc, h.listed cid']
  formed cid' e he := by
    by_cases hc : cid' = cid
    · obtain rfl : _ = e := by simpa [hc] using he
      exact ⟨hc.symm, fun _ => rfl⟩
    · exact h.formed cid' e (by simpa [hc] using he)

omit [DecidableEq AccountId] in
/-- One removal clears every occurrence, so a repeated opening does not matter. -/
theorem coherent_finished {s : State AccountId Ledger} (h : Coherent s) (cid : Cid)
    (result : Bytes) : Coherent (s.finished T cid result) where
  listed cid' := by
    by_cases hc : cid' = cid
    · simp [IsProcessing, hc]
    · simp [IsProcessing, hc, h.listed cid']
  formed cid' e he := by
    by_cases hc : cid' = cid
    · obtain ⟨e', he', rfl⟩ : ∃ e', s.errands.find cid = some e' ∧
          { e' with status := .done, result := result } = e := by simpa [hc] using he
      exact ⟨by rw [hc]; exact (h.formed cid e' he').keyed, by simp⟩
    · exact h.formed cid' e (by simpa [hc] using he)

theorem coherent_of_effect {s : State AccountId Ledger} {env : Env}
    {origin : RawOrigin AccountId} {call : Call AccountId} {o : CallOutcome AccountId Ledger}
    (heffect : Effect T env s origin call o) (h : Coherent s) : Coherent o.after := by
  cases heffect
  case inited sender client errandId cid authority => exact coherent_inited h client errandId cid
  case finished sender cid result errand present allowed mode =>
    exact coherent_finished h cid result
  case elected sender cid result errand present allowed mode pending enough =>
    have hvoted : Coherent (s.voted cid sender) := ⟨h.listed, h.formed⟩
    exact coherent_finished hvoted cid result
  all_goals exact ⟨h.listed, h.formed⟩

theorem processing_listed (mode : Bool) (listed : List AccountId32) (balances : Ledger)
    (xs : List (Extrinsic AccountId)) :
    let s := (exec (dispatch T) (genesis mode listed balances) xs).final
    (∀ cid, cid ∈ s.processingErrands ↔
        ∃ e, s.errands.find cid = some e ∧ e.status = .processing) ∧
      ∀ cid e, s.errands.find cid = some e →
        e.descriptionCid = cid ∧ (e.status = .processing → e.result = []) := by
  have h : Coherent (exec (dispatch T) (genesis mode listed balances) xs).final :=
    chain_invariant T ⟨by simp [genesis, IsProcessing], by simp [genesis]⟩
      (fun s env origin call o => coherent_of_effect) xs
  exact ⟨h.listed, fun cid e he => ⟨(h.formed cid e he).keyed, (h.formed cid e he).pending⟩⟩

/-! ## Presence -/

/-- No call removes an errand. -/
theorem errand_present_of_effect {s : State AccountId Ledger} {env : Env}
    {origin : RawOrigin AccountId} {call : Call AccountId} {o : CallOutcome AccountId Ledger}
    (h : Effect T env s origin call o) {cid : Cid} (present : (s.errands.find cid).isSome) :
    (o.after.errands.find cid).isSome := by
  cases h
  case inited sender client errandId cid' authority =>
    by_cases hc : cid = cid' <;> simp [hc, present]
  case finished sender cid' result errand found allowed mode =>
    by_cases hc : cid = cid' <;> simp [hc, found, present]
  case elected sender cid' result errand found allowed mode pending enough =>
    by_cases hc : cid = cid' <;> simp [hc, found, present]
  all_goals exact present

theorem errand_present_of_run {s : State AccountId Ledger} {cid : Cid}
    (present : (s.errands.find cid).isSome) (xs : List (Extrinsic AccountId)) :
    ((exec (dispatch T) s xs).final.errands.find cid).isSome :=
  chain_invariant T (P := fun s => (s.errands.find cid).isSome) present
    (fun _ _ _ _ _ heffect => errand_present_of_effect heffect) xs

/-! ## Completion -/

def IsDone (s : State AccountId Ledger) (cid : Cid) : Prop :=
  ∃ e, s.errands.find cid = some e ∧ e.status = .done

/-- The step turns the errand under `cid` from processing to done. -/
def Completes (cid : Cid) (t : Step AccountId Ledger) : Prop :=
  IsProcessing t.before cid ∧ IsDone t.after cid

omit [DecidableEq AccountId] [Inhabited AccountId] [Codec AccountId] in
theorem IsProcessing.not_isDone {s : State AccountId Ledger} {cid : Cid}
    (h : IsProcessing s cid) : ¬ IsDone s cid := by
  intro h
  rcases h with ⟨e', he', hdone⟩
  rcases h with ⟨e, he, hprocessing⟩
  rw [he] at he'
  cases he'
  rw [hprocessing] at hdone
  cases hdone

/-- The call that completed an errand: an accepted result, which asked for the
payment and, outside development mode, was not the first on record. -/
structure Completion (T : Trait AccountId Ledger) (s : State AccountId Ledger)
    (origin : RawOrigin AccountId) (call : Call AccountId) (o : CallOutcome AccountId Ledger)
    (cid : Cid) (sender : AccountId) (result : Bytes) : Prop where
  signed : origin = .signed sender
  called : call = .updateErrand cid result
  accepted : o.Succeeds
  allowed : MayUpdateResult s sender
  paid : o.after.balances = s.paid T cid
  votes : s.developmentMode = false →
    minUpdateResultAccount ≤ (s.completedErrands.get cid).length + 1

/-- Nothing else completes an errand. -/
theorem completing_effect {s : State AccountId Ledger} {env : Env}
    {origin : RawOrigin AccountId} {call : Call AccountId} {o : CallOutcome AccountId Ledger}
    {cid : Cid} (h : Effect T env s origin call o) (before : IsProcessing s cid)
    (after : IsDone o.after cid) :
    ∃ sender result, Completion T s origin call o cid sender result := by
  cases h
  case inited sender client errandId cid' authority =>
    obtain ⟨e, he, hdone⟩ := after
    by_cases hc : cid = cid'
    · obtain rfl : _ = e := by simpa [hc] using he
      cases hdone
    · exact absurd ⟨e, by simpa [hc] using he, hdone⟩ before.not_isDone
  case finished sender cid' result errand present allowed mode =>
    by_cases hc : cid = cid'
    · subst hc
      exact ⟨sender, result, rfl, rfl, rfl, allowed, rfl, by simp [mode]⟩
    · obtain ⟨e, he, hdone⟩ := after
      exact absurd ⟨e, by simpa [hc] using he, hdone⟩ before.not_isDone
  case elected sender cid' result errand present allowed mode pending enough =>
    by_cases hc : cid = cid'
    · subst hc
      exact ⟨sender, result, rfl, rfl, rfl, allowed, rfl, fun _ => enough⟩
    · obtain ⟨e, he, hdone⟩ := after
      exact absurd ⟨e, by simpa [hc] using he, hdone⟩ before.not_isDone
  all_goals exact absurd after before.not_isDone

/-! ## Going forward -/

/-- `e'` is `e` at the same moment or later in its life. -/
structure Precedes (e e' : Errand) : Prop where
  accountId : e'.accountId = e.accountId
  errandId : e'.errandId = e.errandId
  settled : e.status = .done → e'.status = .done ∧ e'.result = e.result

theorem Precedes.refl (e : Errand) : Precedes e e :=
  ⟨rfl, rfl, fun h => ⟨h, rfl⟩⟩

theorem Precedes.trans {e e' e'' : Errand} (h : Precedes e e')
    (h' : Precedes e' e'') : Precedes e e'' where
  accountId := h'.accountId.trans h.accountId
  errandId := h'.errandId.trans h.errandId
  settled hdone := by
    obtain ⟨hdone', hresult⟩ := h.settled hdone
    obtain ⟨hdone'', hresult'⟩ := h'.settled hdone'
    exact ⟨hdone'', hresult'.trans hresult⟩

theorem precedes_opened_iff (e : Errand) (accountId : ClientAccountId) (errandId : ErrandId)
    (cid : Cid) :
    Precedes e ⟨accountId, errandId, cid, .processing, []⟩ ↔
      e.status = .processing ∧ e.accountId = accountId ∧ e.errandId = errandId := by
  constructor
  · intro h
    rcases h with ⟨haccount, hid, hsettled⟩
    refine ⟨?_, haccount.symm, hid.symm⟩
    cases hs : e.status with
    | processing => rfl
    | done => exact absurd (hsettled hs).1 (by simp)
  · intro h
    rcases h with ⟨hs, haccount, hid⟩
    exact ⟨haccount.symm, hid.symm, by simp [hs]⟩

theorem precedes_settled_iff (e : Errand) (result : Bytes) :
    Precedes e { e with status := .done, result := result } ↔
      (e.status = .done → e.result = result) := by
  constructor
  · exact fun h hs => (h.settled hs).2.symm
  · exact fun h => ⟨rfl, rfl, fun hs => ⟨rfl, (h hs).symm⟩⟩

/-- Every stored errand is still there, at the same moment or later in its life. -/
def Forward (s s' : State AccountId Ledger) : Prop := s.errands.Grows Precedes s'.errands

omit [DecidableEq AccountId] [Inhabited AccountId] [Codec AccountId] in
theorem Forward.refl (s : State AccountId Ledger) : Forward s s :=
  StorageMap.Grows.refl Precedes.refl s.errands

omit [DecidableEq AccountId] [Inhabited AccountId] [Codec AccountId] in
theorem Forward.trans {s s' s'' : State AccountId Ledger} (h : Forward s s')
    (h' : Forward s' s'') : Forward s s'' :=
  StorageMap.Grows.trans (r := Precedes) Precedes.trans h h'

/-- What a call must not do to an errand it finds: open it once more under
another client or identifier or after it is done, or, in development mode,
replace the result of a done one. -/
def GoesForward (s : State AccountId Ledger) : RawOrigin AccountId → Call AccountId → Prop
  | .signed sender, .initErrand client errandId cid =>
      s.clientDelegate.find client = some sender → ∀ e, s.errands.find cid = some e →
        e.status = .processing ∧ e.accountId = Codec.encode client ∧ e.errandId = errandId
  | .signed sender, .updateErrand cid result =>
      s.developmentMode = true → MayUpdateResult s sender → ∀ e, s.errands.find cid = some e →
        e.status = .done → e.result = result
  | _, _ => True

omit [DecidableEq AccountId] [Inhabited AccountId] in
theorem goesForward_of_refused {s : State AccountId Ledger} {env : Env}
    {origin : RawOrigin AccountId} {call : Call AccountId}
    (refused : ¬ Admitted T env s origin call) : GoesForward s origin call := by
  cases origin with
  | root => trivial
  | none => trivial
  | signed sender =>
      cases call with
      | initErrand client errandId cid => exact fun authority => absurd authority refused
      | updateErrand cid result =>
          intro _ allowed e he
          exact absurd ⟨by simp [he], allowed⟩ refused
      | _ => trivial

theorem forward_of_effect {s : State AccountId Ledger} {env : Env}
    {origin : RawOrigin AccountId} {call : Call AccountId} {o : CallOutcome AccountId Ledger}
    (h : Effect T env s origin call o) : Forward s o.after ↔ GoesForward s origin call := by
  have unchanged := Forward.refl s
  cases h
  case inited sender client errandId cid authority =>
    have hgrows : Forward s (s.inited client errandId cid) ↔ _ :=
      StorageMap.grows_insert_iff Precedes.refl _ _ _
    rw [hgrows]
    simp only [GoesForward, authority, forall_const, precedes_opened_iff]
  case finished sender cid result errand present allowed mode =>
    have hgrows : Forward s (s.finished T cid result) ↔ _ :=
      StorageMap.grows_alter_iff Precedes.refl _ _ _
    rw [hgrows]
    simp only [GoesForward, mode, allowed, forall_const, precedes_settled_iff]
  case elected sender cid result errand present allowed mode pending enough =>
    have hgrows : Forward s ((s.voted cid sender).finished T cid result) := by
      apply (StorageMap.grows_alter_iff Precedes.refl _ _ _).mpr
      intro e he
      have hsame : errand = e := Option.some.inj (present.symm.trans he)
      rw [precedes_settled_iff, ← hsame, pending]
      intro hdone
      cases hdone
    exact iff_of_true hgrows (by simp [GoesForward, mode])
  case voted sender cid result errand present allowed mode pending few =>
    exact iff_of_true unchanged (by simp [GoesForward, mode])
  case votedLate sender cid result errand present allowed mode completed =>
    exact iff_of_true unchanged (by simp [GoesForward, mode])
  case rejected origin call e log unpaid refused =>
    exact iff_of_true unchanged (goesForward_of_refused refused)
  case released name client =>
    exact iff_of_true unchanged (by cases origin <;> trivial)
  all_goals exact iff_of_true unchanged trivial

theorem errand_forward_iff (mode : Bool) (listed : List AccountId32) (balances : Ledger)
    (xs : List (Extrinsic AccountId)) :
    let g := genesis mode listed balances
    (∀ is₁ is₂, is₁ ++ is₂ <+: xs →
        Forward (exec (dispatch T) g is₁).final (exec (dispatch T) g (is₁ ++ is₂)).final) ↔
      ∀ t ∈ (exec (dispatch T) g xs).transitions,
        GoesForward t.before t.input.origin t.input.call := by
  intro g
  rw [exec_preorder_iff (dispatch T) (R := Forward) Forward.refl Forward.trans g xs]
  exact forall₂_congr fun t ht => forward_of_effect (chain_effect T ht)

/-- An errand is opened, voted done by two accounts, and opened again. -/
def completedOnce : List (Extrinsic AccountId32) :=
  bobDelegates ++
    [submit 2 alice (.beginTask [1] [10] 5), submit 3 bob (.initErrand alice [7] [10]),
      submit 4 alice (.updateErrand [10] [42]), submit 5 charlie (.updateErrand [10] [42])]

theorem completedOnce_reopened :
    let xs := completedOnce ++ [submit 6 bob (.initErrand alice [7] [10])]
    ¬ ∀ is₁ is₂, is₁ ++ is₂ <+: xs →
      Forward (exec (dispatch runtime) localTestnet is₁).final
        (exec (dispatch runtime) localTestnet (is₁ ++ is₂)).final := by
  intro xs h
  have hdone : (exec (dispatch runtime) localTestnet completedOnce).final.errands.find [10] =
      some ⟨Codec.encode alice, [7], [10], .done, [42]⟩ := by decide +kernel
  have hopen : (exec (dispatch runtime) localTestnet xs).final.errands.find [10] =
      some ⟨Codec.encode alice, [7], [10], .processing, []⟩ := by decide +kernel
  obtain ⟨e', he', hle⟩ := h completedOnce _ (List.prefix_refl xs) [10] _ hdone
  rw [hopen] at he'
  cases he'
  exact absurd (hle.settled rfl).1 (by decide)

end AbcDemo.Errands
