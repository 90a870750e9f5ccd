import AbcDemo.Errands.Results
import AbcDemo.Network.Causes
import AbcDemo.Registry.Applications
import AbcDemo.Tasks.WellFormed

/-! # Where the chain's errands, results and delegates come from

What the calls themselves do not check holds of accounts that only nodes
operate: their errands are tasks that were accepted and delivered, their results
were answered by the delegate of the errand's client, and their delegates have
answered that they serve.
-/

namespace AbcDemo.Network

open Foundation Pallet Offchain Worker Errands Registry Tasks

variable {N W AccountId Ledger Public : Type} [DecidableEq AccountId] [Inhabited AccountId]
  [Codec AccountId]

/-! ## What the lists of a block come from -/

section Chain

variable {T : Trait AccountId Ledger} {g : State AccountId Ledger}

/-- The successful `begin_task` that listed `item` in block `b`. -/
def Lists (T : Trait AccountId Ledger) (b : BlockNumber) (item : TaskInfo)
    (t : Step AccountId Ledger) : Prop :=
  ∃ client d, t.accepted = some (client, .beginTask item.delegator item.descriptionCid item.fee) ∧
    Codec.encode client = item.client ∧ t.before.delegateAccounts.find item.delegator = some d ∧
    generateErrandId T t.input.env d = item.errandId ∧ t.input.env.blockNumber = b

theorem task_listed_by (empty : ∀ b, g.tasks.get b = []) (xs : List (Extrinsic AccountId)) :
    ∀ b, ∀ item ∈ (exec (dispatch T) g xs).final.tasks.get b,
      Occurs (Lists T b item) (exec (dispatch T) g xs).transitions := by
  apply chain_history T (P := fun ts s => ∀ b, ∀ item ∈ s.tasks.get b, Occurs (Lists T b item) ts)
  · intro b item hitem
    rw [empty b] at hitem
    cases hitem
  · intro ts s env origin call o heffect ih b item hitem
    rw [occurs_concat]
    cases heffect
    case begun client delegator name cid fee balances named active fresh unlisted positive funded =>
      rcases mem_tasks_begun_iff.mp hitem with old | ⟨rfl, rfl⟩
      · exact .inl (ih b item old)
      · exact .inr ⟨client, delegator, by simp, rfl, named, rfl, rfl⟩
    case taskListTaken => exact .inl (ih b item (mem_tasks_taken_iff.mp hitem).2)
    all_goals exact .inl (ih b item hitem)

theorem application_made_by (empty : ∀ b, g.delegatesApplys.get b = [])
    (xs : List (Extrinsic AccountId)) :
    ∀ b, ∀ acc ∈ (exec (dispatch T) g xs).final.delegatesApplys.get b,
      Occurs (fun t => application b t = some acc) (exec (dispatch T) g xs).transitions := by
  apply chain_history T (P := fun ts s => ∀ b, ∀ acc ∈ s.delegatesApplys.get b,
    Occurs (fun t => application b t = some acc) ts)
  · intro b acc hacc
    rw [empty b] at hacc
    cases hacc
  · intro ts s env origin call o heffect ih b acc hacc
    rw [application_of_effect heffect b] at hacc
    rw [occurs_concat]
    rcases List.mem_append.mp hacc with old | new
    · exact .inl (ih b acc old)
    · exact .inr (Option.mem_toList.mp new)

/-- What happened up to a prefix of the chain happened up to now. -/
theorem occurs_of_isPrefix {P : Step AccountId Ledger → Prop} {xs ys : List (Extrinsic AccountId)}
    (h : Occurs P (exec (dispatch T) g xs).transitions) (hxs : xs <+: ys) :
    Occurs P (exec (dispatch T) g ys).transitions := by
  obtain ⟨zs, rfl⟩ := hxs
  obtain ⟨t, ht, hP⟩ := h
  rw [exec_append]
  exact ⟨t, List.mem_append_left _ ht, hP⟩

end Chain

/-! ## What has been is what the chain says -/

section Past

variable {S : Setup N AccountId Ledger Public} {g : State AccountId Ledger}
  {h h' : List (Happening N AccountId Ledger Public)} {s : State AccountId Ledger}

theorem Past.listed (past : Past S g h s) (empty : ∀ b, g.tasks.get b = []) {b : BlockNumber}
    {item : TaskInfo} (hitem : item ∈ s.tasks.get b) :
    Occurs (Lists S.trait b item) (chain S g h).transitions := by
  obtain ⟨xs, hxs, rfl⟩ := past
  exact occurs_of_isPrefix (task_listed_by empty xs b item hitem) hxs

theorem Past.applied (past : Past S g h s) (empty : ∀ b, g.delegatesApplys.get b = [])
    {b : BlockNumber} {acc : DelegatorName × AccountId} (hacc : acc ∈ s.delegatesApplys.get b) :
    Occurs (fun t => application b t = some acc) (chain S g h).transitions := by
  obtain ⟨xs, hxs, rfl⟩ := past
  exact occurs_of_isPrefix (application_made_by empty xs b acc hacc) hxs

omit [DecidableEq AccountId] [Inhabited AccountId] [Codec AccountId] in
theorem included_split {xs₁ xs₂ : List (Extrinsic AccountId)} {x : Extrinsic AccountId}
    (hsplit : included h = xs₁ ++ x :: xs₂) :
    ∃ h₁ h₂, h = h₁ ++ .included x :: h₂ ∧ included h₁ = xs₁ := by
  induction h generalizing xs₁ with
  | nil => cases xs₁ <;> cases hsplit
  | cons what h ih =>
      cases what with
      | noticed n what =>
          obtain ⟨h₁, h₂, rfl, rfl⟩ := ih hsplit
          exact ⟨.noticed n what :: h₁, h₂, rfl, rfl⟩
      | included y =>
          cases xs₁ with
          | nil =>
              cases hsplit
              exact ⟨[], h, rfl, rfl⟩
          | cons z xs₁ =>
              obtain ⟨rfl, rest⟩ := List.cons.inj hsplit
              obtain ⟨h₁, h₂, rfl, rfl⟩ := ih rest
              exact ⟨.included y :: h₁, h₂, rfl, rfl⟩

/-- A step of the chain is an inclusion among everything that happened. -/
theorem happening_of_step {pre post : List (Step AccountId Ledger)} {t : Step AccountId Ledger}
    (hsplit : (chain S g h).transitions = pre ++ t :: post) :
    ∃ h₁ h₂, h = h₁ ++ .included t.input :: h₂ ∧ chain S g h₁ = ⟨t.before, pre⟩ := by
  obtain ⟨xs₁, xs₂, hxs, hbefore, _, _⟩ := exec_split (dispatch S.trait) hsplit
  obtain ⟨h₁, h₂, rfl, rfl⟩ := included_split hxs
  exact ⟨h₁, h₂, rfl, hbefore⟩

variable [Codec DelegateInfo] in
/-- What a held account has signed among the calls of a worker had its cause. -/
theorem Lawful.caused (lawful : Lawful S g h) {pre post : List (Step AccountId Ledger)}
    {t : Step AccountId Ledger} (hsplit : (chain S g h).transitions = pre ++ t :: post)
    {a : AccountId} {call : Call AccountId} (accepted : t.accepted = some (a, call))
    (held : S.held a = true) (made : madeByWorkers call = true) : Caused S g h a call := by
  obtain ⟨signed, rfl, _⟩ := (Step.accepted_eq_some_iff t).mp accepted
  obtain ⟨h₁, h₂, rfl, _⟩ := happening_of_step hsplit
  exact Caused.append (lawful h₁ _ h₂ rfl a signed held made)

end Past

/-! ## Errands -/

section Errands

variable {S : Setup N AccountId Ledger Public} {g : State AccountId Ledger}
  {h : List (Happening N AccountId Ledger Public)} {c d : AccountId} {errandId : ErrandId}
  {cid : Cid}

/-- A node has sent the task to the delegate of its own that the name resolved to. -/
structure Delegated (S : Setup N AccountId Ledger Public) (g : State AccountId Ledger)
    (h : List (Happening N AccountId Ledger Public)) (c d : AccountId) (errandId : ErrandId)
    (cid : Cid) (n : N) (op : Round AccountId Ledger) (item : TaskInfo) : Prop where
  past : Past S g h op.state
  listed : item ∈ op.state.tasks.get op.blockNumber
  named : op.state.delegateAccounts.find item.delegator = some d
  client : Codec.decode item.client = some c
  identified : item.errandId = errandId ∧ item.descriptionCid = cid
  delivered : ∀ account, accountToBytes d = .ok account →
    Delivered (S.hosts n) (evidence n h) op d item

theorem Caused.delegated (caused : Caused S g h d (.initErrand c errandId cid)) :
    ∃ n op item, Delegated S g h c d errandId cid n op item := by
  obtain ⟨n, op, past, may⟩ := caused
  cases may with
  | start listed named decodes delivered =>
      exact ⟨n, op, _, past, listed, named, decodes, ⟨rfl, rfl⟩, delivered⟩

/-- The task was accepted when it was listed. -/
theorem Delegated.accepted {n : N} {op : Round AccountId Ledger} {item : TaskInfo}
    (delegated : Delegated S g h c d errandId cid n op item) (empty : ∀ b, g.tasks.get b = []) :
    Occurs (Step.AcceptsTask · S.trait c cid errandId) (chain S g h).transitions := by
  obtain ⟨t, ht, client, d', accepted, encoded, named, generated, _⟩ :=
    delegated.past.listed empty delegated.listed
  have same : client = c := by
    have decodes := delegated.client
    rw [← encoded, Codec.decode_encode] at decodes
    exact Option.some.inj decodes
  obtain ⟨rfl, rfl⟩ := delegated.identified
  subst same
  exact ⟨t, ht, item.delegator, item.fee, d', accepted, named, generated⟩

end Errands

section Runs

variable [DecidableEq N] [DecidableEq W] {S : Setup N AccountId Ledger Public}
  {stores : N → LocalStorage}

variable [Codec (List ResultEntry)] [Codec DelegateInfo] in
theorem opening_of_held_account (deployed : Deployed S stores) (mode : Bool)
    (listed : List AccountId32) (balances : Ledger) (ms : List (Move N W AccountId Public)) :
    let g := genesis mode listed balances
    let sys := (exec (step S) (System.start g stores) ms).final
    let h := chronicle S g stores ms
    ∀ x d c errandId cid, admits S.held sys.submitted x = true → x.origin = .signed d →
      S.held d = true → x.call = .initErrand c errandId cid →
        (∃ n op item, Delegated S g h c d errandId cid n op item) ∧
          Occurs (Step.AcceptsTask · S.trait c cid errandId) (chain S g h).transitions := by
  intro g sys h x d c errandId cid admitted signed held called
  have accounted := accounted_run (g := g) deployed ms
  have caused : Caused S g h d (.initErrand c errandId cid) := by
    rw [← called]
    apply accounted.submitted
    simpa [admits, signed, held, called, madeByWorkers] using admitted
  obtain ⟨n, op, item, delegated⟩ := caused.delegated
  exact ⟨⟨n, op, item, delegated⟩, delegated.accepted fun _ => rfl⟩

theorem opening_of_held_account_bob :
    admits oneNode.held
        (exec (step oneNode) (System.start oneNodeGenesis fun _ => .empty) taskSent).final.submitted
        bobOpens = true ∧
      ∃ n op item, Delegated oneNode oneNodeGenesis (oneNodeHistory taskSent) alice bob bobsTask
        [10] n op item := by
  have admitted : admits oneNode.held
      (exec (step oneNode) (System.start oneNodeGenesis fun _ => .empty) taskSent).final.submitted
      bobOpens = true := by
    decide +kernel
  exact ⟨admitted, (opening_of_held_account oneNode_deployed false [bob, charlie] endowed taskSent
    bobOpens bob alice bobsTask [10] admitted rfl (by decide) rfl).1⟩

variable [Codec (List ResultEntry)] [Codec DelegateInfo] in
/-- When every delegate is held, an errand is a task that was accepted. -/
theorem errand_of_held_delegates (deployed : Deployed S stores) (mode : Bool)
    (listed : List AccountId32) (balances : Ledger) (ms : List (Move N W AccountId Public))
    (trusted : ∀ c d, Occurs (Step.BeginsWith · c d)
      (chain S (genesis mode listed balances)
        (chronicle S (genesis mode listed balances) stores ms)).transitions → S.held d = true) :
    let g := genesis mode listed balances
    let h := chronicle S g stores ms
    ∀ cid e, (chain S g h).final.errands.find cid = some e →
      ∃ c, e.accountId = Codec.encode c ∧
        (∃ d n op item, Delegated S g h c d e.errandId cid n op item) ∧
        Occurs (Step.AcceptsTask · S.trait c cid e.errandId) (chain S g h).transitions := by
  intro g h cid e he
  have accounted := accounted_run (g := g) deployed ms
  obtain ⟨pre, post, t, c, d, hsplit, accepted, encoded, last, _⟩ :=
    errand_opened (T := S.trait) (g := g) (fun _ => rfl) (fun _ => rfl) he
  have held : S.held d = true := by
    obtain ⟨early, b, mid, rfl, begins, _⟩ := last
    have began : b ∈ (exec (dispatch S.trait) g (included h)).transitions := by simp [hsplit]
    exact trusted c d ⟨b, began, begins⟩
  obtain ⟨n, op, item, delegated⟩ :=
    (accounted.lawful.caused hsplit accepted held rfl).delegated
  exact ⟨c, encoded, ⟨d, n, op, item, delegated⟩, delegated.accepted fun _ => rfl⟩

/-- The delegate that a begun task is for is held. -/
def beginsWithHeld (t : Step AccountId32 Balances) : Bool :=
  match t.accepted with
  | some (_, .beginTask name _ _) => (t.before.delegateAccounts.find name).all oneNode.held
  | _ => true

theorem errand_of_held_delegates_bob :
    ∃ e c, (chain oneNode oneNodeGenesis (oneNodeHistory bobsErrand)).final.errands.find [10] =
        some e ∧
      e.accountId = Codec.encode c ∧
      Occurs (Step.AcceptsTask · runtime c [10] e.errandId)
        (chain oneNode oneNodeGenesis (oneNodeHistory bobsErrand)).transitions := by
  have checked : ∀ r, r = chain oneNode oneNodeGenesis (oneNodeHistory bobsErrand) →
      (r.transitions.all beginsWithHeld && (r.final.errands.find [10]).isSome) = true := by
    rintro _ rfl
    decide +kernel
  specialize checked _ rfl
  rw [Bool.and_eq_true, List.all_eq_true, Option.isSome_iff_exists] at checked
  obtain ⟨begun, e, he⟩ := checked
  have trusted : ∀ c d, Occurs (Step.BeginsWith · c d)
      (chain oneNode oneNodeGenesis (oneNodeHistory bobsErrand)).transitions →
      oneNode.held d = true := by
    intro c d began
    obtain ⟨t, ht, name, cid, fee, accepted, named⟩ := began
    simpa [beginsWithHeld, accepted, named] using begun t ht
  have stored := he
  unfold oneNodeHistory oneNodeGenesis at stored
  obtain ⟨c, encoded, _, accepted⟩ := errand_of_held_delegates oneNode_deployed false
    [bob, charlie] endowed bobsErrand trusted [10] e stored
  exact ⟨e, c, he, encoded, accepted⟩

end Runs

/-! ## Results -/

section Results

variable {S : Setup N AccountId Ledger Public} {g : State AccountId Ledger}
  {h : List (Happening N AccountId Ledger Public)} {cid : Cid}

/-- A node has asked the delegate of the client for the errand while it was in processing, and
was told this result. -/
structure Executed (S : Setup N AccountId Ledger Public) (g : State AccountId Ledger)
    (h : List (Happening N AccountId Ledger Public)) (cid : Cid) (result : Bytes) (n : N)
    (op : Round AccountId Ledger) (errand : Errand) : Prop where
  past : Past S g h op.state
  present : op.state.errands.find cid = some errand
  processing : errand.status = .processing
  completed : ∃ client url text info, Codec.decode errand.accountId = some client ∧
    queryUrl errand.errandId
      (op.state.delegateNetAddress.get (op.state.clientDelegate.get client)) = some url ∧
    Answered (S.hosts n) (evidence n h) op url text ∧
    (S.hosts n).formats.errandResultInfo text = .ok info ∧ info.completed = true ∧
    info.resultCid = result

omit [DecidableEq AccountId] [Inhabited AccountId] [Codec AccountId] in
theorem coherent_genesis (mode : Bool) (listed : List AccountId32) (balances : Ledger) :
    Coherent (genesis mode listed balances : State AccountId Ledger) where
  listed := by simp [genesis, IsProcessing]
  formed _ _ he := nomatch he

theorem Past.coherent {s : State AccountId Ledger} (past : Past S g h s) (initial : Coherent g) :
    Coherent s := by
  obtain ⟨xs, _, rfl⟩ := past
  exact chain_invariant S.trait initial (fun _ _ _ _ _ => coherent_of_effect) xs

variable [Codec DelegateInfo] in
theorem Caused.executed {a : AccountId} {result : Bytes}
    (caused : Caused S g h a (.updateErrand cid result)) (lawful : Lawful S g h)
    (initial : Coherent g) : ∃ n op errand, Executed S g h cid result n op errand := by
  obtain ⟨n, op, _, may⟩ := caused
  cases may with
  | report permitted fetched =>
      obtain ⟨asked, errand, url, text, queries, keyed, answered, parsed, completed⟩ := fetched
      have past : Past S g h asked.state := by
        obtain ⟨_, exchanged, _⟩ := answered
        exact lawful.past exchanged
      obtain ⟨item, processing, found⟩ := queries.processing
      obtain ⟨client, decodes, url⟩ := queries.asked
      have coherent := past.coherent initial
      -- an errand is stored under the key that it names
      obtain rfl : item = cid := ((coherent.formed item errand found).keyed).symm.trans keyed
      obtain ⟨errand', found', status⟩ := (coherent.listed item).mp processing
      obtain rfl : errand' = errand := Option.some.inj (found'.symm.trans found)
      exact ⟨n, asked, errand', past, found, status,
        ⟨client, _, text, _, decodes, url, answered, parsed, completed, rfl⟩⟩

variable [DecidableEq N] [DecidableEq W] {stores : N → LocalStorage}

variable [Codec (List ResultEntry)] [Codec DelegateInfo] in
/-- When every listed account is held, an accepted result is what a delegate answered. -/
theorem result_of_held_accounts (deployed : Deployed S stores) (mode : Bool)
    (listed : List AccountId32) (balances : Ledger)
    (trusted : ∀ a, MayUpdateResult (genesis mode listed balances) a → S.held a = true)
    (ms : List (Move N W AccountId Public)) :
    let g := genesis mode listed balances
    let h := chronicle S g stores ms
    ∀ cid e, (chain S g h).final.errands.find cid = some e → e.status = .done →
      ∃ n op errand, Executed S g h cid e.result n op errand := by
  intro g h cid e he done
  have accounted := accounted_run (g := g) deployed ms
  obtain ⟨before, t, post, hsplit, said, _⟩ :=
    accepted_result_announced (T := S.trait) (g := g) (fun _ => rfl) he done
  have ht : t ∈ (exec (dispatch S.trait) g (included h)).transitions := by simp [hsplit]
  obtain ⟨a, errand, accepted, allowed, _⟩ := announced_in_run ht said
  have caused := accounted.lawful.caused hsplit accepted (trusted a allowed) rfl
  exact caused.executed accounted.lawful (coherent_genesis mode listed balances)

theorem result_of_held_accounts_bob :
    ∃ e n op errand, (chain oneNode oneNodeGenesis (oneNodeHistory bobsResult)).final.errands.find
        [10] = some e ∧
      e.status = .done ∧
      Executed oneNode oneNodeGenesis (oneNodeHistory bobsResult) [10] e.result n op errand := by
  have trusted : ∀ a, MayUpdateResult oneNodeGenesis a → oneNode.held a = true := by
    intro a allowed
    obtain ⟨bytes, converted, listed⟩ := allowed
    obtain rfl : a = bytes := by simpa [accountToBytes, Codec.encode] using converted
    simpa [oneNode, oneNodeGenesis, genesis] using listed
  have completed : ((chain oneNode oneNodeGenesis (oneNodeHistory bobsResult)).final.errands.find
      [10]).map Errand.status = some .done := by
    decide +kernel
  obtain ⟨e, he, done⟩ := Option.map_eq_some_iff.mp completed
  have stored := he
  unfold oneNodeHistory oneNodeGenesis at stored
  obtain ⟨n, op, errand, executed⟩ := result_of_held_accounts oneNode_deployed false
    [bob, charlie] endowed trusted bobsResult [10] e stored done
  exact ⟨e, n, op, errand, he, done, executed⟩

end Results

/-! ## Delegates -/

section Delegates

variable {S : Setup N AccountId Ledger Public} {g : State AccountId Ledger}
  {h : List (Happening N AccountId Ledger Public)} {a : AccountId}

/-- A node has asked the account, where it had said when it applied, whether it serves, and was
told so. -/
structure Serves (S : Setup N AccountId Ledger Public) (g : State AccountId Ledger)
    (h : List (Happening N AccountId Ledger Public)) (a : AccountId) (n : N)
    (op : Round AccountId Ledger) : Prop where
  past : Past S g h op.state
  applied : ∃ name, (name, a) ∈ op.state.delegatesApplys.get op.blockNumber ∧
    Occurs (fun t => application op.blockNumber t = some (name, a)) (chain S g h).transitions
  granted : ∃ account info, Granted (S.hosts n) (evidence n h) op a account info

theorem Caused.serves {updater : AccountId}
    (caused : Caused S g h a (.updateDelegateStatus updater))
    (empty : ∀ b, g.delegatesApplys.get b = []) :
    updater = a ∧ ∃ n op, Serves S g h a n op := by
  obtain ⟨n, op, past, may⟩ := caused
  cases may with
  | activate granted =>
      obtain ⟨url, text, applies, _⟩ := id granted
      obtain ⟨name, applied⟩ := applies.applied
      exact ⟨rfl, n, op, past, ⟨name, applied, past.applied empty applied⟩, _, _, granted⟩

/-- A held account gives up only a registration of its own. -/
theorem Caused.releases {name : DelegatorName} {client : AccountId}
    (caused : Caused S g h a (.unreserve name client)) (empty : ∀ b, g.delegatesApplys.get b = []) :
    client = a ∧ ∃ b, Occurs (fun t => application b t = some (name, a))
      (chain S g h).transitions := by
  obtain ⟨n, op, past, may⟩ := caused
  cases may with
  | release applied denied => exact ⟨rfl, op.blockNumber, past.applied empty applied⟩

variable [Codec DelegateInfo] in
theorem Lawful.initial {h' : List (Happening N AccountId Ledger Public)}
    (lawful : Lawful S g (h ++ h')) : Lawful S g h := by
  intro h₁ what h₂ hsplit
  exact lawful h₁ what (h₂ ++ h') (by simp [hsplit])

variable [Codec DelegateInfo] in
/-- Only a held account's own node switches it on. -/
theorem Lawful.serves (lawful : Lawful S g h) (unknown : ∀ a, g.delegates.find a = none)
    (empty : ∀ b, g.delegatesApplys.get b = []) (held : S.held a = true)
    (active : (chain S g h).final.delegates.find a = some true) : ∃ n op, Serves S g h a n op := by
  have recorded : Recorded a (chain S g h).transitions (chain S g h).final :=
    registration_history unknown a (included h)
  obtain ⟨pre, t, post, hsince, _, activates⟩ := recorded.2.mp active
  have ht : t ∈ (chain S g h).transitions := by
    apply (sinceLast_suffix (Step.releases · a) _).subset
    simp [hsince]
  obtain ⟨before, after, hsplit⟩ := List.append_of_mem ht
  exact ((lawful.caused hsplit activates held rfl).serves empty).2

variable [DecidableEq N] [DecidableEq W] {stores : N → LocalStorage}

variable [Codec (List ResultEntry)] [Codec DelegateInfo] in
/-- No task begins with a held delegate that has not said that it serves. -/
theorem task_of_serving_delegate (deployed : Deployed S stores) (mode : Bool)
    (listed : List AccountId32) (balances : Ledger) (ms : List (Move N W AccountId Public)) :
    let g := genesis mode listed balances
    let sys := (exec (step S) (System.start g stores) ms).final
    let h := chronicle S g stores ms
    (∀ a, S.held a = true → sys.state.delegates.find a = some true → ∃ n op, Serves S g h a n op) ∧
    ∀ (pre post : List (Step AccountId Ledger)) (t : Step AccountId Ledger) client name cid fee,
      (chain S g h).transitions = pre ++ t :: post →
      t.accepted = some (client, .beginTask name cid fee) →
        ∃ d h₁ h₂, t.before.delegateAccounts.find name = some d ∧
          h = h₁ ++ .included t.input :: h₂ ∧ chain S g h₁ = ⟨t.before, pre⟩ ∧
          (S.held d = true → ∃ n op, Serves S g h₁ d n op) := by
  intro g sys h
  have lawful := (accounted_run (g := g) deployed ms).lawful
  constructor
  · intro a held active
    apply lawful.serves (fun _ => rfl) (fun _ => rfl) held
    rw [← state_run deployed ms]
    exact active
  · intro pre post t client name cid fee hsplit accepted
    have ht : t ∈ (chain S g h).transitions := by simp [hsplit]
    obtain ⟨heffect, hok⟩ := accepted_effect S.trait ht accepted
    obtain ⟨d, _, task⟩ := heffect.beginTask_ok hok
    obtain ⟨h₁, h₂, happened, before⟩ := happening_of_step hsplit
    refine ⟨d, h₁, h₂, task.named, happened, before, fun held => ?_⟩
    have lawful₁ : Lawful S g h₁ := by
      have lawful : Lawful S g h := lawful
      rw [happened] at lawful
      exact lawful.initial
    apply lawful₁.serves (fun _ => rfl) (fun _ => rfl) held
    rw [before]
    exact task.active

theorem task_of_serving_delegate_bob :
    ∃ n op, Serves oneNode oneNodeGenesis (oneNodeHistory bobServes) bob n op := by
  have active : (exec (step oneNode) (System.start (genesis false [bob, charlie] endowed)
      fun _ => .empty) bobServes).final.state.delegates.find bob = some true := by
    decide +kernel
  exact (task_of_serving_delegate oneNode_deployed false [bob, charlie] endowed bobServes).1 bob
    (by decide) active

variable [Codec (List ResultEntry)] [Codec DelegateInfo] in
/-- The calls of a held account about delegates are about itself. -/
theorem registration_of_held_account (deployed : Deployed S stores) (mode : Bool)
    (listed : List AccountId32) (balances : Ledger) (ms : List (Move N W AccountId Public)) :
    let g := genesis mode listed balances
    let sys := (exec (step S) (System.start g stores) ms).final
    let h := chronicle S g stores ms
    ∀ x a, admits S.held sys.submitted x = true → x.origin = .signed a → S.held a = true →
      (∀ updater, x.call = .updateDelegateStatus updater →
        updater = a ∧ ∃ n op, Serves S g h a n op) ∧
      ∀ name client, x.call = .unreserve name client →
        client = a ∧ ∃ b, Occurs (fun t => application b t = some (name, a))
          (chain S g h).transitions := by
  intro g sys h x a admitted signed held
  have accounted := accounted_run (g := g) deployed ms
  have caused (made : madeByWorkers x.call = true) : Caused S g h a x.call := by
    apply accounted.submitted
    simpa [admits, signed, held, made] using admitted
  constructor
  · intro updater called
    rw [called] at caused
    exact (caused rfl).serves fun _ => rfl
  · intro name client called
    rw [called] at caused
    exact (caused rfl).releases fun _ => rfl

theorem registration_of_held_account_bob :
    admits oneNode.held
        (exec (step oneNode) (System.start oneNodeGenesis fun _ => .empty) bobAsked).final.submitted
        bobActivates = true ∧
      ∃ n op, Serves oneNode oneNodeGenesis (oneNodeHistory bobAsked) bob n op := by
  have admitted : admits oneNode.held
      (exec (step oneNode) (System.start oneNodeGenesis fun _ => .empty) bobAsked).final.submitted
      bobActivates = true := by
    decide +kernel
  exact ⟨admitted, ((registration_of_held_account oneNode_deployed false [bob, charlie] endowed
    bobAsked bobActivates bob admitted rfl (by decide)).1 bob rfl).2⟩

end Delegates

end AbcDemo.Network
