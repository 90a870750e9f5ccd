import AbcDemo.Pallet.Events
import AbcDemo.Pallet.Runtime

/-! # What the events tell

Whoever reads nothing but the deposited events can keep the errands and the list
of those in processing exactly as the chain does. Of the delegates, the names and
the clients he misses nothing that is there; what `unreserve` removes it removes
without an event.
-/

namespace AbcDemo.Pallet

open Foundation Dispatch

variable {AccountId Ledger : Type}

/-- An errand without its identifier, which no event carries. -/
structure Outline where
  accountId : ClientAccountId
  descriptionCid : Cid
  status : ErrandStatus
  result : Cid
  deriving DecidableEq

def Errand.outline (errand : Errand) : Outline :=
  ⟨errand.accountId, errand.descriptionCid, errand.status, errand.result⟩

structure Observer (AccountId : Type) where
  errands : StorageMap Cid Outline
  processing : List Cid
  delegates : StorageMap AccountId Bool
  delegateAccounts : StorageMap DelegatorName AccountId
  clientDelegate : StorageMap AccountId AccountId

namespace Observer

def start : Observer AccountId := ⟨.empty, [], .empty, .empty, .empty⟩

variable [DecidableEq AccountId] [Codec AccountId]

def see (o : Observer AccountId) : Event AccountId → Observer AccountId
  | .delegateRequested account name =>
      { o with
        delegates := o.delegates.insert account false
        delegateAccounts := o.delegateAccounts.insert name account }
  | .delegateUpdated account => { o with delegates := o.delegates.insert account true }
  | .taskBegan client _ delegator =>
      { o with clientDelegate := o.clientDelegate.insert client delegator }
  | .errandInited client cid =>
      { o with
        errands := o.errands.insert cid ⟨Codec.encode client, cid, .processing, []⟩
        processing := o.processing ++ [cid] }
  | .errandUpdated cid result =>
      { o with
        errands := o.errands.alter cid fun e => { e with status := .done, result := result }
        processing := o.processing.filter fun item => item ≠ cid }

def seeAll (o : Observer AccountId) (events : List (Event AccountId)) : Observer AccountId :=
  events.foldl see o

end Observer

/-- The events among what a call lets be seen. -/
def deposits (log : List (Observation AccountId)) : List (Event AccountId) :=
  log.filterMap fun
    | .deposited event => some event
    | _ => none

def eventsOf (ts : List (Step AccountId Ledger)) : List (Event AccountId) :=
  ts.flatMap fun t => deposits t.outcome.log

section Maps

variable {K V : Type} [DecidableEq K] {m m' : StorageMap K V}

/-- Every entry of `m'` is in `m` as well. -/
def Knows (m m' : StorageMap K V) : Prop := ∀ k v, m'.find k = some v → m.find k = some v

theorem Knows.insert (h : Knows m m') (k : K) (v : V) : Knows (m.insert k v) (m'.insert k v) := by
  intro k' v' there
  by_cases hk : k' = k
  · simpa [hk] using there
  · simpa [hk] using h k' v' (by simpa [hk] using there)

theorem Knows.remove (h : Knows m m') (k : K) : Knows m (m'.remove k) := by
  intro k' v' there
  by_cases hk : k' = k
  · simp [hk] at there
  · exact h k' v' (by simpa [hk] using there)

end Maps

/-- The observer is right about the errands, and misses no entry of the registry. -/
structure Follows (o : Observer AccountId) (s : State AccountId Ledger) : Prop where
  errands : ∀ cid, o.errands.find cid = (s.errands.find cid).map Errand.outline
  processing : o.processing = s.processingErrands
  delegates : Knows o.delegates s.delegates
  delegateAccounts : Knows o.delegateAccounts s.delegateAccounts
  clientDelegate : Knows o.clientDelegate s.clientDelegate

/-- The observer has the registry as it is. -/
structure Mirrors (o : Observer AccountId) (s : State AccountId Ledger) : Prop where
  delegates : o.delegates = s.delegates
  delegateAccounts : o.delegateAccounts = s.delegateAccounts
  clientDelegate : o.clientDelegate = s.clientDelegate

section Steps

variable [DecidableEq AccountId] [Inhabited AccountId] [Codec AccountId]
  {T : Trait AccountId Ledger} {env : Env} {s : State AccountId Ledger}
  {origin : RawOrigin AccountId} {call : Call AccountId} {outcome : CallOutcome AccountId Ledger}
  {o : Observer AccountId}

omit [DecidableEq AccountId] in
@[simp] theorem deposits_paymentLog (T : Trait AccountId Ledger) (s : State AccountId Ledger)
    (cid : Cid) : deposits (s.paymentLog T cid) = [] := by
  unfold State.paymentLog
  split <;> rfl

omit [DecidableEq AccountId] [Inhabited AccountId] [Codec AccountId] in
@[simp] theorem deposits_append (log log' : List (Observation AccountId)) :
    deposits (log ++ log') = deposits log ++ deposits log' := List.filterMap_append

omit [Inhabited AccountId] in
/-- An errand is opened, or opened again. -/
theorem Follows.inited (follows : Follows o s) (client : AccountId) (errandId : ErrandId)
    (cid : Cid) :
    Follows (o.see (.errandInited client cid)) (s.inited client errandId cid) where
  errands cid' := by
    by_cases hc : cid' = cid <;> simp [Observer.see, hc, follows.errands, Errand.outline]
  processing := by simp [Observer.see, follows.processing]
  delegates := follows.delegates
  delegateAccounts := follows.delegateAccounts
  clientDelegate := follows.clientDelegate

/-- An errand is completed, whatever becomes of the payment. -/
theorem Follows.finished (follows : Follows o s) (cid : Cid) (result : Bytes) :
    Follows (o.see (.errandUpdated cid result)) (s.finished T cid result) where
  errands cid' := by
    by_cases hc : cid' = cid
    · cases he : s.errands.find cid <;>
        simp [Observer.see, hc, follows.errands, he, Errand.outline]
    · simp [Observer.see, hc, follows.errands]
  processing := by simp [Observer.see, follows.processing]
  delegates := follows.delegates
  delegateAccounts := follows.delegateAccounts
  clientDelegate := follows.clientDelegate

/-- One call, and what is read of its events. -/
theorem follows_of_effect (h : Effect T env s origin call outcome)
    (silent : ¬ outcome.Succeeds → deposits outcome.log = []) (follows : Follows o s) :
    Follows (o.seeAll (deposits outcome.log)) outcome.after := by
  obtain ⟨errands, processing, delegates, delegateAccounts, clientDelegate⟩ := id follows
  cases h with
  | requested fresh =>
      exact ⟨errands, processing, delegates.insert _ _, delegateAccounts.insert _ _, clientDelegate⟩
  | activated known =>
      exact ⟨errands, processing, delegates.insert _ _, delegateAccounts, clientDelegate⟩
  | begun named active fresh unlisted positive funded =>
      exact ⟨errands, processing, delegates, delegateAccounts, clientDelegate.insert _ _⟩
  | taskListTaken named active fresh listed unpaid =>
      rw [silent (by simp)]
      exact ⟨errands, processing, delegates, delegateAccounts, clientDelegate⟩
  | inited authority => exact follows.inited _ _ _
  | finished present allowed mode =>
      rw [deposits_append, deposits_paymentLog]
      exact follows.finished _ _
  | voted present allowed mode pending few =>
      exact ⟨errands, processing, delegates, delegateAccounts, clientDelegate⟩
  | @elected sender cid result errand present allowed mode pending enough =>
      rw [deposits_append, deposits_paymentLog]
      have voted : Follows o (s.voted cid sender) :=
        ⟨errands, processing, delegates, delegateAccounts, clientDelegate⟩
      exact voted.finished _ _
  | votedLate present allowed mode completed =>
      exact ⟨errands, processing, delegates, delegateAccounts, clientDelegate⟩
  | released =>
      exact ⟨errands, processing, delegates.remove _, delegateAccounts.remove _,
        clientDelegate.remove _⟩
  | rejected refused unpaid =>
      rw [silent (by simp)]
      exact follows

/-- Every call but `unreserve` leaves the registry as its events tell. -/
theorem mirrors_of_effect (h : Effect T env s origin call outcome)
    (silent : ¬ outcome.Succeeds → deposits outcome.log = [])
    (keeps : ∀ name client, call ≠ .unreserve name client) (mirrors : Mirrors o s) :
    Mirrors (o.seeAll (deposits outcome.log)) outcome.after := by
  obtain ⟨delegates, delegateAccounts, clientDelegate⟩ := id mirrors
  cases h with
  | @requested sender name address fresh =>
      exact ⟨congrArg (·.insert sender false) delegates,
        congrArg (·.insert name sender) delegateAccounts, clientDelegate⟩
  | @activated sender active known =>
      exact ⟨congrArg (·.insert sender true) delegates, delegateAccounts, clientDelegate⟩
  | @begun client delegator name cid fee balances named active fresh unlisted positive funded =>
      exact ⟨delegates, delegateAccounts, congrArg (·.insert client delegator) clientDelegate⟩
  | taskListTaken named active fresh listed unpaid =>
      rw [silent (by simp)]
      exact ⟨delegates, delegateAccounts, clientDelegate⟩
  | inited authority => exact ⟨delegates, delegateAccounts, clientDelegate⟩
  | finished present allowed mode =>
      rw [deposits_append, deposits_paymentLog]
      exact ⟨delegates, delegateAccounts, clientDelegate⟩
  | voted present allowed mode pending few => exact ⟨delegates, delegateAccounts, clientDelegate⟩
  | elected present allowed mode pending enough =>
      rw [deposits_append, deposits_paymentLog]
      exact ⟨delegates, delegateAccounts, clientDelegate⟩
  | votedLate present allowed mode completed =>
      exact ⟨delegates, delegateAccounts, clientDelegate⟩
  | released => exact absurd rfl (keeps _ _)
  | rejected refused unpaid =>
      rw [silent (by simp)]
      exact mirrors

end Steps

section Runs

variable [DecidableEq AccountId] [Inhabited AccountId] [Codec AccountId]
  (T : Trait AccountId Ledger)

/-- A failed call has nothing to be seen. -/
theorem deposits_failed (x : Extrinsic AccountId) (s : State AccountId Ledger)
    (failed : ¬ ((dispatch T x).run s).Succeeds) : deposits ((dispatch T x).run s).log = [] := by
  rw [deposits, List.filterMap_eq_nil_iff]
  intro w there
  cases w with
  | deposited event => exact absurd there (dispatch_failed_silent T x s failed event)
  | _ => rfl

omit [Inhabited AccountId] in
theorem seeAll_concat (ts : List (Step AccountId Ledger)) (t : Step AccountId Ledger) :
    (Observer.start.seeAll (eventsOf (ts ++ [t]))) =
      (Observer.start.seeAll (eventsOf ts)).seeAll (deposits t.outcome.log) := by
  simp [Observer.seeAll, eventsOf, List.foldl_append]

/-- Reading the events from the genesis on gives the errands and the list of those
in processing as they are, and misses no entry of the registry; unless somebody
called `unreserve`, it gives the registry as it is, too. -/
theorem events_tell (mode : Bool) (listed : List AccountId32) (balances : Ledger)
    (xs : List (Extrinsic AccountId)) :
    let run := exec (dispatch T) (genesis mode listed balances) xs
    let o := Observer.start.seeAll (eventsOf run.transitions)
    Follows o run.final ∧
      ((∀ x ∈ xs, ∀ name client, x.call ≠ .unreserve name client) → Mirrors o run.final) := by
  have seen := exec_history (dispatch T) (s := genesis mode listed balances) (P := fun ts s =>
    Follows (Observer.start.seeAll (eventsOf ts)) s ∧
      ((∀ t ∈ ts, ∀ name client, t.input.call ≠ .unreserve name client) →
        Mirrors (Observer.start.seeAll (eventsOf ts)) s)) ?base ?next xs
  case base =>
    refine ⟨⟨fun cid => ?_, rfl, fun k v there => ?_, fun k v there => ?_, fun k v there => ?_⟩,
      fun _ => ⟨rfl, rfl, rfl⟩⟩
    · simp [Observer.seeAll, eventsOf, Observer.start, genesis]
    · simp [genesis] at there
    · simp [genesis] at there
    · simp [genesis] at there
  case next =>
    intro ts s x ⟨follows, mirrors⟩
    have effect := dispatch_effect T s x
    have silent := deposits_failed T x s
    rw [seeAll_concat]
    refine ⟨follows_of_effect effect silent follows, fun keeps => ?_⟩
    refine mirrors_of_effect effect silent (keeps (fire (dispatch T) s x) (by simp)) ?_
    exact mirrors fun t there => keeps t (by simp [there])
  refine ⟨seen.1, fun keeps => seen.2 fun t there => ?_⟩
  exact keeps t.input (exec_mem_input (dispatch T) there)

end Runs

theorem events_tell_bobDelegates :
    let xs := bobDelegates ++ [submit 2 alice (.beginTask [1] [10] 5)]
    let run := exec (dispatch runtime) localTestnet xs
    let o := Observer.start.seeAll (eventsOf run.transitions)
    o.clientDelegate.find alice = some bob ∧ Follows o run.final ∧ Mirrors o run.final := by
  intro xs run o
  have told := events_tell runtime false [alice, bob, charlie, dave] endowed xs
  refine ⟨by decide +kernel, told.1, told.2 fun x there name client => ?_⟩
  simp only [xs, bobDelegates, submit, List.mem_append, List.mem_cons, List.not_mem_nil,
    or_false] at there
  rcases there with (rfl | rfl) | rfl <;> simp

/-- `unreserve` frees the name without a word. -/
example :
    let xs := bobDelegates ++ [submit 2 alice (.unreserve [1] bob)]
    let run := exec (dispatch runtime) localTestnet xs
    let o := Observer.start.seeAll (eventsOf run.transitions)
    o.delegateAccounts.find [1] = some bob ∧ run.final.delegateAccounts.find [1] = none := by
  decide +kernel

end AbcDemo.Pallet
