import AbcDemo.Errands.Lifecycle
import AbcDemo.Errands.Provenance
import AbcDemo.Pallet.Events

/-! # Where accepted results and recorded votes come from

The result of a done errand is what the last call that announced one for its
key carried, and that call came after the last opening. The votes on record
are another matter: they accumulate over all openings, late votes included.
-/

namespace AbcDemo.Errands

open Foundation Pallet Registry

variable {AccountId Ledger : Type}

/-! ## What a step announces -/

/-- The result an observation reports for `cid`. -/
def updatedResult (cid : Cid) : Observation AccountId → Option Bytes
  | .deposited (.errandUpdated cid' result) => if cid' = cid then some result else none
  | _ => none

/-- The argument of the `ErrandUpdated` that a step emitted for `cid`. -/
def announced (cid : Cid) (t : Step AccountId Ledger) : Option Bytes :=
  t.outcome.log.findSome? (updatedResult cid)

theorem announced_eq_none {cid : Cid} {t : Step AccountId Ledger}
    (silent : ∀ event, .deposited event ∉ t.outcome.log) : announced cid t = none := by
  apply List.findSome?_eq_none_iff.mpr
  intro w hw
  cases w with
  | deposited event => exact absurd hw (silent event)
  | reserved who value result => rfl
  | repatriated slashed beneficiary value result => rfl

variable [DecidableEq AccountId] [Inhabited AccountId] [Codec AccountId]
  {T : Trait AccountId Ledger}

omit [DecidableEq AccountId] in
@[simp] theorem findSome?_paymentLog (s : State AccountId Ledger) (cid cid' : Cid) :
    (s.paymentLog T cid').findSome? (updatedResult cid) = none := by
  rw [State.paymentLog]
  cases s.settlement cid' <;> rfl

/-- The result of the errand under `cid`, once it is done. -/
def acceptedResult (cid : Cid) (s : State AccountId Ledger) : Option Bytes :=
  (s.errands.find cid).bind fun e => if e.status = .done then some e.result else none

/-- What a step does to the accepted result: an opening clears it. -/
def resultWrite (cid : Cid) (t : Step AccountId Ledger) : Option (Option Bytes) :=
  if t.inits cid then some none else (announced cid t).map some

omit [DecidableEq AccountId] [Inhabited AccountId] [Codec AccountId] in
theorem resultWrite_eq_some_iff {cid : Cid} {t : Step AccountId Ledger} {result : Bytes} :
    resultWrite cid t = some (some result) ↔
      t.inits cid = false ∧ announced cid t = some result := by
  cases h : t.inits cid <;> simp [resultWrite, h]

omit [DecidableEq AccountId] [Inhabited AccountId] [Codec AccountId] in
theorem resultWrite_eq_none_iff {cid : Cid} {t : Step AccountId Ledger} :
    resultWrite cid t = none ↔ t.inits cid = false ∧ announced cid t = none := by
  cases h : t.inits cid <;> simp [resultWrite, h]

omit [DecidableEq AccountId] [Inhabited AccountId] [Codec AccountId] in
theorem acceptedResult_eq_some_iff {cid : Cid} {s : State AccountId Ledger} {result : Bytes} :
    acceptedResult cid s = some result ↔
      ∃ e, s.errands.find cid = some e ∧ e.status = .done ∧ e.result = result := by
  simp [acceptedResult, Option.bind_eq_some_iff]

omit [DecidableEq AccountId] in
@[simp] theorem acceptedResult_finished (s : State AccountId Ledger) (cid cid' : Cid)
    (result : Bytes) :
    acceptedResult cid (s.finished T cid' result) =
      if cid' = cid then (s.errands.find cid).map fun _ => result else acceptedResult cid s := by
  by_cases hc : cid' = cid
  · cases he : s.errands.find cid <;> simp [acceptedResult, hc, he]
  · simp [acceptedResult, hc, Ne.symm hc]

omit [DecidableEq AccountId] [Inhabited AccountId] [Codec AccountId] in
@[simp] theorem acceptedResult_voted (s : State AccountId Ledger) (cid cid' : Cid)
    (sender : AccountId) : acceptedResult cid (s.voted cid' sender) = acceptedResult cid s := rfl

theorem acceptedResult_of_effect {s : State AccountId Ledger} {env : Env}
    {origin : RawOrigin AccountId} {call : Call AccountId} {o : CallOutcome AccountId Ledger}
    (h : Effect T env s origin call o)
    (silent : ¬ o.Succeeds → ∀ event, .deposited event ∉ o.log) (cid : Cid) :
    acceptedResult cid o.after =
      (resultWrite cid (⟨s, ⟨env, origin, call⟩, o⟩ : Step AccountId Ledger)).getD
        (acceptedResult cid s) := by
  cases h
  case inited sender client errandId cid' authority =>
    by_cases hc : cid = cid'
    · simp [acceptedResult, resultWrite, Step.inits, Step.accepted, hc]
    · simp [acceptedResult, resultWrite, announced, updatedResult, Step.inits, Step.accepted, hc,
        Ne.symm hc]
  case finished sender cid' result errand present allowed mode =>
    by_cases hc : cid' = cid
    · subst hc
      simp [resultWrite, announced, updatedResult, Step.inits, Step.accepted, present]
    · simp [resultWrite, announced, updatedResult, Step.inits, Step.accepted, hc]
  case elected sender cid' result errand present allowed mode pending enough =>
    by_cases hc : cid' = cid
    · subst hc
      simp [resultWrite, announced, updatedResult, Step.inits, Step.accepted, present]
    · simp [resultWrite, announced, updatedResult, Step.inits, Step.accepted, hc]
  case rejected e log unpaid refused =>
    have quiet : announced cid (⟨s, ⟨env, origin, call⟩, ⟨.error e, s, log⟩⟩ :
        Step AccountId Ledger) = none := announced_eq_none (silent (by simp))
    cases origin <;> simp [resultWrite, quiet, Step.inits, Step.accepted]
  case taskListTaken client delegator name cid' fee e log named active fresh listed unpaid =>
    have quiet : announced cid (⟨s, ⟨env, .signed client, .beginTask name cid' fee⟩,
        ⟨.error e, s.taskListTaken env, log⟩⟩ : Step AccountId Ledger) = none :=
      announced_eq_none (silent (by simp))
    simp [acceptedResult, resultWrite, quiet, Step.inits, Step.accepted]
  case released name client => cases origin <;> rfl
  all_goals rfl

/-- The accepted result is what was last announced, unless cleared since. -/
theorem acceptedResult_history {g : State AccountId Ledger}
    (hg : ∀ cid, g.errands.find cid = none) (cid : Cid) (xs : List (Extrinsic AccountId)) :
    acceptedResult cid (exec (dispatch T) g xs).final =
      (lastWrite (resultWrite cid) (exec (dispatch T) g xs).transitions).getD none := by
  rw [exec_cell (dispatch T) (acceptedResult cid) (resultWrite cid)
    (fun s x => acceptedResult_of_effect (dispatch_effect T s x) (dispatch_failed_silent T x s) cid)
    g xs]
  simp [acceptedResult, hg]

/-! ## What a vote on record is -/

instance (s : State AccountId Ledger) (account : AccountId) :
    Decidable (MayUpdateResult s account) :=
  decidable_of_iff (∃ bytes ∈ s.updateResultAccounts,
      (accountToBytes account).toOption = some bytes) <| by
    cases h : accountToBytes account <;> simp [MayUpdateResult, h, Except.toOption]

/-- The sender of an `update_errand` call for `cid`, whatever the call returned,
when the errand was present and the sender listed. -/
def ballotCast (g : State AccountId Ledger) (cid : Cid) (t : Step AccountId Ledger) :
    Option AccountId :=
  match t.input.origin, t.input.call with
  | .signed sender, .updateErrand cid' _ =>
      if cid' = cid ∧ t.before.errands.contains cid ∧ MayUpdateResult g sender then some sender
      else none
  | _, _ => none

omit [DecidableEq AccountId] [Inhabited AccountId] in
theorem ballotCast_congr {s g : State AccountId Ledger}
    (accounts : s.updateResultAccounts = g.updateResultAccounts) :
    ballotCast s = ballotCast g := by
  have same : MayUpdateResult s = MayUpdateResult g := by
    funext a
    rw [MayUpdateResult, MayUpdateResult, accounts]
  funext cid t
  simp only [ballotCast, same]

omit [DecidableEq AccountId] [Inhabited AccountId] in
/-- A vote for a present errand by a listed account goes on record, whatever the
call returns. -/
theorem ballotCast_recorded {s : State AccountId Ledger} (env : Env) {sender : AccountId}
    {cid' : Cid} (result : Bytes) {errand : Errand} (o : CallOutcome AccountId Ledger)
    (present : s.errands.find cid' = some errand) (allowed : MayUpdateResult s sender) (cid : Cid) :
    (s.voted cid' sender).completedErrands.get cid =
      s.completedErrands.get cid ++
        (ballotCast s cid (⟨s, ⟨env, .signed sender, .updateErrand cid' result⟩, o⟩ :
          Step AccountId Ledger)).toList := by
  by_cases hc : cid' = cid
  · subst hc
    simp [ballotCast, present, allowed]
  · simp [ballotCast, hc, Ne.symm hc]

theorem ballotCast_of_effect {s : State AccountId Ledger} {env : Env}
    {origin : RawOrigin AccountId} {call : Call AccountId} {o : CallOutcome AccountId Ledger}
    (h : Effect T env s origin call o) (production : s.developmentMode = false) (cid : Cid) :
    o.after.completedErrands.get cid =
      s.completedErrands.get cid ++
        (ballotCast s cid (⟨s, ⟨env, origin, call⟩, o⟩ : Step AccountId Ledger)).toList := by
  cases h
  case finished sender cid' result errand present allowed mode =>
    rw [production] at mode
    cases mode
  case voted sender cid' result errand present allowed mode pending few =>
    exact ballotCast_recorded env result _ present allowed cid
  case elected sender cid' result errand present allowed mode pending enough =>
    exact ballotCast_recorded env result _ present allowed cid
  case votedLate sender cid' result errand present allowed mode completed =>
    exact ballotCast_recorded env result _ present allowed cid
  case rejected e log unpaid refused =>
    have uncast : ballotCast s cid (⟨s, ⟨env, origin, call⟩, ⟨.error e, s, log⟩⟩ :
        Step AccountId Ledger) = none := by
      cases origin with
      | signed sender =>
          cases call with
          | updateErrand cid' result =>
              simp only [ballotCast]
              rw [if_neg]
              rintro ⟨rfl, present, allowed⟩
              exact refused ⟨present, allowed⟩
          | _ => rfl
      | root => rfl
      | none => rfl
    simp [uncast]
  case released name client => cases origin <;> simp [ballotCast]
  all_goals simp [ballotCast]

/-- The votes on record and the mode they were cast in. -/
structure Recorded (g : State AccountId Ledger) (cid : Cid) (ts : List (Step AccountId Ledger))
    (s : State AccountId Ledger) : Prop where
  mode : s.developmentMode = false
  accounts : s.updateResultAccounts = g.updateResultAccounts
  votes : s.completedErrands.get cid = ts.filterMap (ballotCast g cid)
  enough : IsDone s cid → minUpdateResultAccount ≤ (s.completedErrands.get cid).length

/-- A done errand was done before, or this step has just counted enough votes. -/
theorem enough_of_effect {s : State AccountId Ledger} {env : Env} {origin : RawOrigin AccountId}
    {call : Call AccountId} {o : CallOutcome AccountId Ledger} (h : Effect T env s origin call o)
    (production : s.developmentMode = false) {cid : Cid} (done : IsDone o.after cid) :
    IsDone s cid ∨ minUpdateResultAccount ≤ (o.after.completedErrands.get cid).length := by
  cases h
  case inited sender client errandId cid' authority =>
    obtain ⟨e, he, hdone⟩ := done
    by_cases hc : cid = cid'
    · obtain rfl : _ = e := by simpa [hc] using he
      cases hdone
    · exact .inl ⟨e, by simpa [hc] using he, hdone⟩
  case finished sender cid' result errand present allowed mode =>
    rw [production] at mode
    cases mode
  case elected sender cid' result errand present allowed mode pending enough =>
    by_cases hc : cid = cid'
    · right
      simpa [hc] using enough
    · obtain ⟨e, he, hdone⟩ := done
      exact .inl ⟨e, by simpa [hc] using he, hdone⟩
  all_goals exact .inl done

theorem recorded_history (listed : List AccountId32) (balances : Ledger)
    (xs : List (Extrinsic AccountId)) (cid : Cid) :
    let g : State AccountId Ledger := genesis false listed balances
    Recorded g cid (exec (dispatch T) g xs).transitions (exec (dispatch T) g xs).final := by
  intro g
  apply chain_history T (P := Recorded g cid)
  · exact ⟨rfl, rfl, rfl, by simp [IsDone, g, genesis]⟩
  · intro ts s env origin call o heffect h
    obtain ⟨mode, accounts⟩ := configuration_of_effect heffect
    have cast := ballotCast_of_effect heffect h.mode cid
    refine ⟨mode.trans h.mode, accounts.trans h.accounts, ?_, ?_⟩
    · rw [cast, ballotCast_congr h.accounts, h.votes, List.filterMap_append, List.filterMap_cons,
        List.filterMap_nil]
      cases ballotCast g cid (⟨s, ⟨env, origin, call⟩, o⟩ : Step AccountId Ledger) <;> rfl
    · intro done
      rcases enough_of_effect heffect h.mode done with before | enough
      · have grown := congrArg List.length cast
        have enough := h.enough before
        rw [List.length_append] at grown
        omega
      · exact enough

/-! ## The provenance law -/

/-- Only an accepted result is announced, by the call that carried it. -/
theorem announced_of_effect {s : State AccountId Ledger} {env : Env}
    {origin : RawOrigin AccountId} {call : Call AccountId} {o : CallOutcome AccountId Ledger}
    (h : Effect T env s origin call o)
    (silent : ¬ o.Succeeds → ∀ event, .deposited event ∉ o.log) {cid : Cid} {result : Bytes}
    (said : announced cid (⟨s, ⟨env, origin, call⟩, o⟩ : Step AccountId Ledger) = some result) :
    ∃ sender errand, origin = .signed sender ∧ call = .updateErrand cid result ∧ o.Succeeds ∧
      MayUpdateResult s sender ∧ s.errands.find cid = some errand := by
  by_cases hok : o.Succeeds
  · cases h
    case finished sender cid' result' errand present allowed mode =>
      obtain ⟨rfl, rfl⟩ : cid' = cid ∧ result' = result := by
        simpa [announced, updatedResult] using said
      exact ⟨sender, errand, rfl, rfl, hok, allowed, present⟩
    case elected sender cid' result' errand present allowed mode pending enough =>
      obtain ⟨rfl, rfl⟩ : cid' = cid ∧ result' = result := by
        simpa [announced, updatedResult] using said
      exact ⟨sender, errand, rfl, rfl, hok, allowed, present⟩
    all_goals simp [announced, updatedResult, List.findSome?_cons] at said hok
  · rw [announced_eq_none (silent hok)] at said
    cases said

/-- In a run, the announcing call is accepted, from a listed account and for an
errand that is there. -/
theorem announced_in_run {g : State AccountId Ledger} {xs : List (Extrinsic AccountId)}
    {t : Step AccountId Ledger} (ht : t ∈ (exec (dispatch T) g xs).transitions) {cid : Cid}
    {result : Bytes} (said : announced cid t = some result) :
    ∃ a errand, t.accepted = some (a, .updateErrand cid result) ∧ MayUpdateResult g a ∧
      t.before.errands.find cid = some errand := by
  obtain ⟨a, errand, signed, called, hok, allowed, present⟩ :=
    announced_of_effect (chain_effect T ht) (chain_silent T ht) said
  have accounts := (configuration_of_step T ht).2
  refine ⟨a, errand, (Step.accepted_eq_some_iff t).mpr ⟨signed, called, hok⟩, ?_, present⟩
  rwa [MayUpdateResult, accounts] at allowed

/-- The accepted result was announced, and neither replaced nor cleared since. -/
theorem accepted_result_announced {g : State AccountId Ledger}
    (hg : ∀ cid, g.errands.find cid = none) {xs : List (Extrinsic AccountId)} {cid : Cid}
    {e : Errand} (he : (exec (dispatch T) g xs).final.errands.find cid = some e)
    (done : e.status = .done) :
    ∃ before t post, (exec (dispatch T) g xs).transitions = before ++ t :: post ∧
      announced cid t = some e.result ∧ (∀ u ∈ t :: post, u.inits cid = false) ∧
      ∀ u ∈ post, announced cid u = none := by
  have result : acceptedResult cid (exec (dispatch T) g xs).final = some e.result :=
    acceptedResult_eq_some_iff.mpr ⟨e, he, done, rfl⟩
  rw [acceptedResult_history hg cid xs] at result
  have last := getD_none_eq_some_iff.mp result
  obtain ⟨before, t, post, hsplit, hwrite, hpost⟩ := lastWrite_eq_some_iff.mp last
  obtain ⟨unopened, said⟩ := resultWrite_eq_some_iff.mp hwrite
  have later (u : Step AccountId Ledger) (hu : u ∈ post) := resultWrite_eq_none_iff.mp (hpost u hu)
  refine ⟨before, t, post, hsplit, said, ?_, fun u hu => (later u hu).2⟩
  intro u hu
  rcases List.mem_cons.mp hu with rfl | hu
  · exact unopened
  · exact (later u hu).1

theorem result_provenance (mode : Bool) (listed : List AccountId32) (balances : Ledger)
    (xs : List (Extrinsic AccountId)) :
    let g : State AccountId Ledger := genesis mode listed balances
    let r := exec (dispatch T) g xs
    (∀ cid e, r.final.errands.find cid = some e → e.status = .done →
      ∃ (pre mid post : List (Step AccountId Ledger)) (i t : Step AccountId Ledger)
        (a : AccountId),
        r.transitions = pre ++ i :: mid ++ t :: post ∧ i.inits cid = true ∧
        (∀ u ∈ mid ++ t :: post, u.inits cid = false) ∧
        t.accepted = some (a, .updateErrand cid e.result) ∧ MayUpdateResult g a ∧
        announced cid t = some e.result ∧ ∀ u ∈ post, announced cid u = none) ∧
    (mode = false → ∀ cid,
      r.final.completedErrands.get cid = r.transitions.filterMap (ballotCast g cid) ∧
      (IsDone r.final cid → 2 ≤ (r.final.completedErrands.get cid).length)) := by
  intro g r
  constructor
  · intro cid e he hdone
    obtain ⟨before, t, post, hsplit, said, unopened, unsaid⟩ :=
      accepted_result_announced (T := T) (g := g) (fun _ => rfl) he hdone
    have ht : t ∈ r.transitions := by simp [r, hsplit]
    obtain ⟨a, errand, accepted, allowed, present⟩ := announced_in_run ht said
    -- the errand was there when the result came, so it had been opened before
    obtain ⟨is₁, _, _, hbefore, _, _⟩ := exec_split (dispatch T) hsplit
    have stored : (exec (dispatch T) g is₁).final.errands.find cid = some errand := by
      rw [hbefore]
      exact present
    obtain ⟨pre, mid, i, client, delegator, hopened, haccepted, _, _, hmid⟩ :=
      errand_opened (T := T) (g := g) (fun _ => rfl) (fun _ => rfl) stored
    replace hopened : before = pre ++ i :: mid := by rw [← hopened, hbefore]
    refine ⟨pre, mid, post, i, t, a, by rw [hsplit, hopened], by simp [Step.inits, haccepted], ?_,
      accepted, allowed, said, unsaid⟩
    intro u hu
    rcases List.mem_append.mp hu with hu | hu
    · exact hmid u hu
    · exact unopened u hu
  · intro production cid
    subst production
    have h : Recorded g cid r.transitions r.final := recorded_history listed balances xs cid
    exact ⟨h.votes, h.enough⟩

end AbcDemo.Errands
