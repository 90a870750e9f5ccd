import AbcDemo.Worker.Conduct

/-! # The worker keeps the policy

Each function of the worker keeps the policy from any evidence on, whatever the
other workers of the node write in between. The functions are taken in the order
of their calls, and each is looked into once.
-/

namespace AbcDemo.Worker

open Foundation Pallet Offchain

variable {AccountId Ledger Public : Type} [Inhabited AccountId] [Codec AccountId]
  {H : Host AccountId Public} {E : Evidence AccountId Ledger Public}
  {op : Round AccountId Ledger} {ε : Type}

/-! ## Writing to the storage -/

section Storage

variable {store : LocalStorage}

theorem clientCell_ne_tasksResultsCell (client : String) {key key' : Bytes}
    (hkey : key ∈ clientCells client) (hkey' : key' ∈ tasksResultsCells) : key ≠ key' := by
  intro same
  subst same
  exact clientCells_disjoint_tasksResults client hkey hkey'

theorem clientKey_ne_tasksResultsKey (client : String) : clientKey client ≠ tasksResultsKey :=
  clientCell_ne_tasksResultsCell client (by simp [clientCells])
    (by simp [tasksResultsCells])

theorem clientLock_ne_tasksResultsKey (client : String) : clientLock client ≠ tasksResultsKey :=
  clientCell_ne_tasksResultsCell client (by simp [clientCells])
    (by simp [tasksResultsCells])

theorem clientKey_ne_tasksResultsLock (client : String) : clientKey client ≠ tasksResultsLock :=
  clientCell_ne_tasksResultsCell client (by simp [clientCells])
    (by simp [tasksResultsCells])

theorem clientLock_ne_tasksResultsLock (client : String) : clientLock client ≠ tasksResultsLock :=
  clientCell_ne_tasksResultsCell client (by simp [clientCells])
    (by simp [tasksResultsCells])

variable [Codec (List ResultEntry)] [Codec DelegateInfo]

/-- The locks are not looked at. -/
theorem Remembers.insert_other (h : Remembers H E store) {key : Bytes} (value : Bytes)
    (notResults : tasksResultsKey ≠ key)
    (notClient : ∀ account, clientKey (H.formats.text account) ≠ key) :
    Remembers H E (store.insert key value) where
  results entry hentry := by
    apply h.results entry
    simpa [stored, notResults] using hentry
  credentials account info hinfo := by
    apply h.credentials account info
    simpa [notClient account] using hinfo

theorem Remembers.lockResults (h : Remembers H E store) (value : Bytes) :
    Remembers H E (store.insert tasksResultsLock value) :=
  h.insert_other value tasksResultsLock_ne.symm fun _ => clientKey_ne_tasksResultsLock _

theorem Remembers.lockClient (h : Remembers H E store) (hss58 : Ss58Text H.formats.text)
    (account : AccountId32) (value : Bytes) :
    Remembers H E (store.insert (clientLock (H.formats.text account)) value) :=
  h.insert_other value (clientLock_ne_tasksResultsKey _).symm fun account' =>
    hss58.clientKey_ne_clientLock account' account

/-- Writing results that have all been fetched. -/
theorem Remembers.storeResults (h : Remembers H E store) {results : List ResultEntry}
    (fetched : ∀ entry ∈ results, Fetched H E entry.1 entry.2) :
    Remembers H E (store.insert tasksResultsKey (Codec.encode results)) where
  results entry hentry := fetched entry (by simpa using hentry)
  credentials account info hinfo := by
    apply h.credentials account info
    simpa [clientKey_ne_tasksResultsKey] using hinfo

/-- Saving an info that the account's delegate has answered with. -/
theorem Remembers.saveInfo (h : Remembers H E store) (hss58 : Ss58Text H.formats.text)
    {account : AccountId32} {info : DelegateInfo}
    (granted : ∃ op delegator, Granted H E op delegator account info) :
    Remembers H E (store.insert (clientKey (H.formats.text account)) (Codec.encode info)) where
  results entry hentry := by
    apply h.results entry
    simpa [stored, (clientKey_ne_tasksResultsKey _).symm] using hentry
  credentials account' info' hinfo := by
    by_cases same : account' = account
    · obtain rfl : info = info' := by simpa [same] using hinfo
      exact same ▸ granted
    · apply h.credentials account' info'
      simpa [hss58.clientKey_eq_iff, same] using hinfo

end Storage

/-! ## Keys -/

omit [Inhabited AccountId] [Codec AccountId] in
/-- The keys of a filtered signer are those of the account on this node. -/
theorem held_of_signerFilter [DecidableEq AccountId] {account : AccountId}
    {key : AccountId × Public} (h : key ∈ signerFilter H.accounts account) :
    (key.2 ∈ H.keys ∧ H.intoAccount key.2 = key.1) ∧ account = key.1 := by
  obtain ⟨listed, same⟩ := List.mem_filter.mp h
  obtain ⟨own, hown, rfl⟩ := List.mem_map.mp listed
  exact ⟨⟨hown, rfl⟩, (of_decide_eq_true same).symm⟩

omit [Inhabited AccountId] [Codec AccountId] in
theorem own_of_signerFilter [DecidableEq AccountId] {account : AccountId}
    (h : ¬ (signerFilter H.accounts account).length = 0) :
    account ∈ H.keys.map H.intoAccount := by
  obtain ⟨key, hkey⟩ := List.exists_mem_of_length_pos (Nat.pos_of_ne_zero h)
  obtain ⟨⟨held, into⟩, rfl⟩ := held_of_signerFilter hkey
  exact List.mem_map.mpr ⟨key.2, held, into⟩

/-- Whatever response is accepted, its data is a text. -/
theorem asBytes_of_readOutcome {F : Formats} {outcome : HttpOutcome} {resp : Bytes}
    (h : readOutcome F outcome = .ok resp) : ∃ text, resp = asBytes text := by
  unfold readOutcome at h
  split at h
  · cases h
  · cases h
  · cases h
  · split at h
    · cases h
    · split at h
      · cases h
      · split at h
        · cases h
        · exact ⟨_, (Except.ok.inj h).symm⟩

/-- Whether a task has a URL is not up to the signature. -/
theorem taskUrl_eq_none {client : String} {descriptionCid : Cid} {errandId : ErrandId}
    {netAddress : NetAddress} {sig : Bytes}
    (none : taskUrl client descriptionCid errandId netAddress sig = none) (sig' : Bytes) :
    taskUrl client descriptionCid errandId netAddress sig' = .none := by
  unfold taskUrl at none ⊢
  split at none
  · cases none
  · rfl

/-! ## Requests -/

variable [Codec (List ResultEntry)] [Codec DelegateInfo]

/-- Keeping the policy, with nothing promised of the end. -/
abbrev Obeys (op : Round AccountId Ledger) {α : Type} (x : NodeM AccountId Public ε α)
    (E : Evidence AccountId Ledger Public) (H : Host AccountId Public) : Prop :=
  (policy H).Keeps op (fun _ _ => True) (fun _ _ => True) x E

variable {stop : ε → Evidence AccountId Ledger Public → Prop}

/-- A failure among the results is the answer to some key. -/
theorem keeps_sendSignedTransaction {signer : List (AccountId × Public)} {call : Call AccountId}
    (may : ∀ key ∈ signer,
      (key.2 ∈ H.keys ∧ H.intoAccount key.2 = key.1) ∧ MaySubmit H E op key.1 call) :
    (policy H).Keeps op
      (fun result E' => (result.all fun sent => sent.2.isOk) = false →
        ∃ key ∈ signer, .answered ⟨op, .submit key.1 key.2 call, .error ()⟩ ∈ E') stop
      (sendSignedTransaction signer call : NodeM AccountId Public ε _) E := by
  induction signer generalizing E with
  | nil => exact fun failed => nomatch failed
  | cons key signer ih =>
      refine ⟨may key List.mem_cons_self, fun sent E' grown answered => ?_⟩
      have later : ∀ key' ∈ signer,
          (key'.2 ∈ H.keys ∧ H.intoAccount key'.2 = key'.1) ∧ MaySubmit H E' op key'.1 call := by
        intro key' hkey
        obtain ⟨held, submit⟩ := may key' (List.mem_cons_of_mem _ hkey)
        exact ⟨held, submit.mono grown⟩
      apply (ih later).bind
      intro rest E'' grown' known failed
      cases sent with
      | error u => exact ⟨key, List.mem_cons_self, grown' answered⟩
      | ok u =>
          obtain ⟨key', hkey, refused⟩ := known (by simpa [Except.isOk, Except.toBool] using failed)
          exact ⟨key', List.mem_cons_of_mem _ hkey, refused⟩

theorem obeys_sendSignedTransaction {signer : List (AccountId × Public)} {call : Call AccountId}
    (may : ∀ key ∈ signer,
      (key.2 ∈ H.keys ∧ H.intoAccount key.2 = key.1) ∧ MaySubmit H E op key.1 call) :
    (policy H).Keeps op (fun _ _ => True) stop
      (sendSignedTransaction signer call : NodeM AccountId Public ε _) E :=
  (keeps_sendSignedTransaction may).weaken (fun _ _ _ _ => trivial) fun _ _ _ stopped => stopped

theorem keeps_httpPost {url : String} (may : MayPost H E op url) :
    (policy H).Keeps op (fun resp E' => ∃ text, resp = asBytes text ∧ Answered H E' op url text)
      (fun e E' => ∃ outcome, .answered ⟨op, .httpPost url, outcome⟩ ∈ E' ∧
        readOutcome H.formats outcome = .error e)
      (httpPost H.formats url) E := by
  unfold httpPost
  apply (Policy.keeps_request may).bind
  intro outcome E' _ answered
  unfold Program.ofExcept
  split
  · rename_i resp read
    obtain ⟨text, rfl⟩ := asBytes_of_readOutcome read
    exact ⟨text, rfl, outcome, answered, read⟩
  · rename_i e read
    exact ⟨outcome, answered, read⟩

/-! ## Under a lock -/

section UnderLock

variable {R ε' : Type} {lockKey : Bytes} {locked failed : TaskError} {onError : TaskError → ε'}
  {handler : ∀ _ : Call AccountId, NodeM AccountId Public ε' (SendResult AccountId)}
  {stop : ε' → Evidence AccountId Ledger Public → Prop}

/-- A lock that is not looked at may be swapped. If it is not, it was met taken. -/
theorem keeps_takeLock
    (unnoticed : ∀ store value (E' : Evidence AccountId Ledger Public), Remembers H E' store →
      Remembers H E' (store.insert lockKey value))
    (barred : ∀ e E', E ⊆ E' → Barred E' op lockKey → stop e E') :
    (policy H).Keeps op (fun result E' => result = .ok true ∨ Barred E' op lockKey) stop
      ((StorageValueRef.mutate ⟨lockKey⟩ (ifFree locked) : WorkerM AccountId _).translate handler
        onError) E := by
  unfold StorageValueRef.mutate
  simp only [Program.translate]
  intro store E' grown _ seen
  dsimp only
  split
  · rename_i e taken
    apply barred _ _ grown
    refine .inl ⟨store.find lockKey, fun free => ?_, seen⟩
    rw [free locked] at taken
    cases taken
  · rename_i new free
    refine ⟨fun store E'' _ sound _ => unnoticed store _ E'' sound, fun swapped E'' _ late => ?_⟩
    obtain rfl : new = true := ifFree_eq_true free
    cases swapped with
    | true => exact .inl rfl
    | false => exact .inr (.inr (late rfl))

/-- A body that keeps the policy may run under a lock that is not looked at. If it does not get
to run, the lock was met taken. -/
theorem keeps_underLock {body : WorkerM AccountId R}
    {post : R → Evidence AccountId Ledger Public → Prop}
    (unnoticed : ∀ store value (E' : Evidence AccountId Ledger Public), Remembers H E' store →
      Remembers H E' (store.insert lockKey value))
    (barred : ∀ e E', E ⊆ E' → Barred E' op lockKey → stop e E')
    (hbody : ∀ E', E ⊆ E' →
      (policy H).Keeps op post stop (body.translate handler onError) E') :
    (policy H).Keeps op post stop
      ((underLock lockKey locked failed body).translate handler onError) E := by
  unfold underLock
  rw [Program.translate_bind]
  apply (keeps_takeLock unnoticed barred).bind
  intro result E' grown known
  split
  · rw [Program.translate_bind]
    apply (hbody E' grown).bind
    intro rtn E'' _ hpost
    exact ⟨fun store E₃ _ sound => unnoticed store _ E₃ sound, hpost⟩
  · rename_i unlike
    rcases known with rfl | met
    · exact absurd rfl unlike
    · exact barred _ _ grown met

end UnderLock

/-! ## Applications -/

section Applications

variable (hss58 : Ss58Text H.formats.text)
include hss58

theorem keeps_saveDelegateInfo {account : AccountId32} {info : DelegateInfo} {ε' : Type}
    {onError : TaskError → ε'} (granted : ∃ op delegator, Granted H E op delegator account info) :
    (policy H).Keeps op (fun _ _ => True)
      (fun _ E' => Barred E' op (clientLock (H.formats.text account)))
      (onStorage onError (saveDelegateInfo (H.formats.text account) info)) E := by
  unfold onStorage saveDelegateInfo operateLocalStorage
  apply keeps_underLock
  · exact fun store value E' sound => sound.lockClient hss58 account value
  · exact fun _ _ _ met => met
  · intro E' grown
    refine ⟨fun store E'' later sound => ?_, trivial⟩
    exact sound.saveInfo hss58 (credential_mono granted (grown.trans later))

theorem keeps_parseDelegateResponse {delegator : AccountId} {account : AccountId32}
    {url text : String}
    (applies : Applies H op delegator account url) (answered : Answered H E op url text) :
    (policy H).Keeps op (fun _ E' => ∃ info, Granted H E' op delegator account info)
      (fun _ E' => Denied H E' op delegator)
      (parseDelegateResponse H.formats (asBytes text) (H.formats.text account)) E := by
  unfold parseDelegateResponse fromUtf8OrFail parsedOrFail Program.ofExcept
  rw [fromUtf8_asBytes]
  simp only [Program.pure_eq, Program.done_bind]
  cases parsed : H.formats.delegateInfo text with
  | error details =>
      obtain ⟨outcome, there, read⟩ := answered
      apply Denied.refused applies there
      intro text' info read' parsed'
      rw [read, Except.ok.injEq] at read'
      rw [← asBytes_injective read', parsed] at parsed'
      cases parsed'
  | ok info =>
      have granted : Granted H E op delegator account info :=
        ⟨url, text, applies, answered, parsed⟩
      apply (keeps_saveDelegateInfo hss58 ⟨op, delegator, granted⟩).weaken
      · exact fun _ E' grown _ => ⟨info, granted.mono grown⟩
      · exact fun _ E' grown met => .unsaved (granted.mono grown) met

/-- A request that succeeds has been granted, and one that fails has been denied. -/
theorem keeps_requestSingleDelegate {delegator : AccountId} {account : AccountId32}
    (applied : ∃ name, (name, delegator) ∈ op.state.delegatesApplys.get op.blockNumber)
    (own : delegator ∈ H.keys.map H.intoAccount)
    (converted : accountToBytes delegator = .ok account) :
    (policy H).Keeps op
      (fun granted E' => (granted = true → ∃ info, Granted H E' op delegator account info) ∧
        (granted = false → Denied H E' op delegator)) stop
      (requestSingleDelegate H.formats account (op.state.delegateNetAddress.get delegator) :
        NodeM AccountId Public ε Bool) E := by
  rw [requestSingleDelegate_eq]
  cases asked : applyUrl H.formats account (op.state.delegateNetAddress.get delegator) with
  | none => exact ⟨nofun, fun _ => .unaddressed converted asked⟩
  | some url =>
      have applies : Applies H op delegator account url := ⟨applied, own, converted, asked⟩
      apply (keeps_httpPost (.apply applies)).attempt.bind
      intro answer E' _ known
      cases answer with
      | error e =>
          obtain ⟨outcome, answered, read⟩ := known
          refine ⟨nofun, fun _ => .refused applies answered fun text info read' => ?_⟩
          rw [read] at read'
          cases read'
      | ok resp =>
          obtain ⟨text, rfl, answered⟩ := known
          apply (keeps_parseDelegateResponse hss58 applies answered).attempt.bind
          intro result E'' _ known
          cases result with
          | error e => exact ⟨nofun, fun _ => known⟩
          | ok _ => exact ⟨fun _ => known, nofun⟩

theorem keeps_applySingleDelegate {delegator : AccountId}
    (applied : ∃ name, (name, delegator) ∈ op.state.delegatesApplys.get op.blockNumber)
    (own : delegator ∈ H.keys.map H.intoAccount) :
    (policy H).Keeps op
      (fun result E' =>
        (result = .ok () → ∃ account info, Granted H E' op delegator account info) ∧
          ∀ e, result = .error e → Denied H E' op delegator) stop
      (applySingleDelegate H op.state delegator : NodeM AccountId Public ε (Except Error Unit))
      E := by
  unfold applySingleDelegate
  dsimp only
  split
  · rename_i e unconverted
    exact ⟨nofun, fun _ _ => .unconverted unconverted⟩
  · rename_i account converted
    apply (keeps_requestSingleDelegate hss58 applied own converted).bind
    intro granted E' _ known
    cases granted with
    | false => exact ⟨nofun, fun _ _ => known.2 rfl⟩
    | true => exact ⟨fun _ => ⟨account, known.1 rfl⟩, nofun⟩

variable [DecidableEq AccountId]

theorem obeys_applyDelegate {acc : DelegatorName × AccountId}
    (applied : acc ∈ op.state.delegatesApplys.get op.blockNumber) :
    Obeys op (applyDelegate H op.state acc : NodeM AccountId Public ε Unit) E H := by
  unfold applyDelegate
  split
  · trivial
  · rename_i keys
    have own : acc.2 ∈ H.keys.map H.intoAccount := own_of_signerFilter keys
    apply (keeps_applySingleDelegate hss58 ⟨acc.1, applied⟩ own).bind
    intro result E' _ known
    cases result with
    | error e =>
        have denied := known.2 e rfl
        apply Policy.Keeps.andThen (obeys_sendSignedTransaction fun key hkey => ?_)
        · exact fun _ _ _ => trivial
        · obtain ⟨held, signed⟩ := held_of_signerFilter hkey
          exact ⟨held, signed ▸ .release applied denied⟩
    | ok _ =>
        obtain ⟨account, info, granted⟩ := known.1 rfl
        apply Policy.Keeps.andThen (obeys_sendSignedTransaction fun key hkey => ?_)
        · exact fun _ _ _ => trivial
        · obtain ⟨held, signed⟩ := held_of_signerFilter hkey
          exact ⟨held, signed ▸ .activate granted⟩

theorem obeys_applyDelegates :
    Obeys op (applyDelegates H op.state op.blockNumber : NodeM AccountId Public ε Unit) E H := by
  unfold applyDelegates
  split
  · trivial
  · split
    · trivial
    · exact Policy.keeps_forM fun acc applied E' _ => obeys_applyDelegate hss58 applied

end Applications

/-! ## Tasks -/

section Tasks

variable (hss58 : Ss58Text H.formats.text)
include hss58

/-- Whatever is loaded has been granted; and if nothing is, the lock was met taken or the cell
without an info. -/
theorem keeps_loadDelegateInfo (account : AccountId32) :
    (policy H).Keeps op (fun info E' => ∃ op delegator, Granted H E' op delegator account info)
      (fun _ E' => Barred E' op (clientLock (H.formats.text account)) ∨
        ∃ value, .saw op (.read (clientKey (H.formats.text account)) value) ∈ E' ∧
          value.bind (Codec.decode : Bytes → Option DelegateInfo) = none)
      (onStorage .load (loadDelegateInfo (H.formats.text account)) :
        NodeM AccountId Public AnyError DelegateInfo) E := by
  have read : ∀ E' : Evidence AccountId Ledger Public,
      (policy H).Keeps op
        (fun value E'' => ∃ cell, value = cell.map Codec.decode ∧
          .saw op (.read (clientKey (H.formats.text account)) cell) ∈ E'' ∧
          ∀ info, cell.bind Codec.decode = some info →
            ∃ op delegator, Granted H E'' op delegator account info)
        (fun _ E'' => Barred E'' op (clientLock (H.formats.text account)))
        ((StorageValueRef.get DelegateInfo ⟨clientKey (H.formats.text account)⟩ :
            WorkerM AccountId _).translate
          (fun _ => (pure [] : NodeM AccountId Public TaskError _)) id) E' :=
    fun E' store E'' _ sound seen => ⟨_, rfl, seen, fun info => sound.credentials account info⟩
  unfold onStorage loadDelegateInfo operateLocalStorage
  rw [Program.translate_bind, Program.translate_attempt]
  apply (keeps_underLock _ (fun _ _ _ met => met) fun E' _ => read E').attempt.bind
  · intro result E' _ known
    split
    · rename_i info
      obtain ⟨cell, found, _, granted⟩ := known
      exact granted info (by simpa [Option.bind_eq_some_iff] using found.symm)
    · exact .inl known
    · rename_i unlike failed
      cases result with
      | error e => exact absurd rfl (failed e)
      | ok value =>
          obtain ⟨cell, rfl, seen, _⟩ := known
          refine .inr ⟨cell, seen, ?_⟩
          cases cell with
          | none => rfl
          | some bytes =>
              cases decoded : (Codec.decode bytes : Option DelegateInfo) with
              | none => exact decoded
              | some info => exact absurd (by simp [decoded]) (unlike info)
  · exact fun store value E' sound => sound.lockClient hss58 account value

theorem keeps_sendTaskToTeaNetwork {delegator : AccountId} {account : AccountId32} {item : TaskInfo}
    (converted : accountToBytes delegator = .ok account)
    (sends : ∀ sig url, taskUrl (H.formats.text account) item.descriptionCid item.errandId
        (op.state.delegateNetAddress.get delegator) sig = some url →
      Sends H op delegator account item sig url) :
    (policy H).Keeps op
      (fun sent E' => (sent = true → Delivered H E' op delegator item) ∧
        (sent = false → Unsent H E' op delegator item)) stop
      (sendTaskToTeaNetwork H.formats account item.descriptionCid item.errandId
        (op.state.delegateNetAddress.get delegator) : NodeM AccountId Public ε Bool) E := by
  have loads : (policy H).Keeps op
      (fun info E' => ∃ op delegator, Granted H E' op delegator account info)
      (fun _ E' => Unsent H E' op delegator item)
      (onStorage .load (loadDelegateInfo (H.formats.text account)) :
        NodeM AccountId Public AnyError DelegateInfo) E := by
    apply (keeps_loadDelegateInfo hss58 account).weaken fun _ _ _ granted => granted
    rintro _ E' _ (met | ⟨value, seen, missing⟩)
    · exact .unloaded converted met
    · exact .missing converted seen missing
  have delivers : (policy H).Keeps op (fun _ E' => Delivered H E' op delegator item)
      (fun _ E' => Unsent H E' op delegator item)
      (sendTaskInternal H.formats (H.formats.text account) item.descriptionCid item.errandId
        (op.state.delegateNetAddress.get delegator)) E := by
    rw [sendTaskInternal_eq]
    apply loads.bind
    intro info E' _ credential
    split
    · rename_i url asked
      have posts : (policy H).Keeps op
          (fun resp E'' => ∃ text, resp = asBytes text ∧ Answered H E'' op url text)
          (fun _ E'' => Unsent H E'' op delegator item) (httpPost H.formats url) E' := by
        apply (keeps_httpPost (.send (sends _ _ asked) credential)).weaken
          fun _ _ _ posted => posted
        rintro e E'' _ ⟨outcome, answered, read⟩
        exact .refused (sends _ _ asked) answered (by rw [read]; rfl)
      apply posts.bind
      intro resp E'' grown answered
      obtain ⟨text, rfl, answered⟩ := answered
      rw [fromUtf8OrFail, fromUtf8_asBytes]
      exact ⟨account, info, url, text, sends _ _ asked, credential_mono credential grown, answered⟩
    · rename_i unaddressed
      exact .unaddressed converted (taskUrl_eq_none unaddressed)
  unfold sendTaskToTeaNetwork
  apply delivers.attempt.bind
  intro result E' _ known
  cases result with
  | error e => exact ⟨nofun, fun _ => known⟩
  | ok _ => exact ⟨fun _ => known, nofun⟩

variable [DecidableEq AccountId]

omit hss58 in
theorem obeys_submitTask {delegator : AccountId} {fee : UInt32} {item : TaskInfo}
    (listed : item ∈ op.state.tasks.get op.blockNumber)
    (named : op.state.delegateAccounts.find item.delegator = some delegator)
    (price : ∀ client, Codec.decode item.client = some client →
      fee = op.state.clientTaskFee.get client)
    (delivered : ∀ account, accountToBytes delegator = .ok account →
      Delivered H E op delegator item) :
    (policy H).Keeps op (fun _ _ => True) stop
      (submitTask (signerFilter H.accounts delegator) fee item : NodeM AccountId Public ε Unit)
      E := by
  unfold submitTask
  split
  · rename_i client decodes
    obtain rfl := price client decodes
    unfold initSingleErrandTask
    rw [Program.bind_assoc]
    apply Policy.Keeps.bind (keeps_sendSignedTransaction fun key hkey => ?_)
    · intro result E' _ known
      show (policy H).Keeps op _ stop (if _ then unreserveFee client _ else pure ()) E'
      split
      · rename_i failed
        obtain ⟨key, hkey, refused⟩ := known (by simpa using failed)
        obtain ⟨held, signed⟩ := held_of_signerFilter hkey
        rw [← signed] at held refused
        exact ⟨.unopened listed named decodes held refused, fun _ _ _ _ => trivial⟩
      · trivial
    · obtain ⟨held, rfl⟩ := held_of_signerFilter hkey
      exact ⟨held, .start listed named decodes delivered⟩
  · trivial

theorem obeys_sendErrandTask {item : TaskInfo}
    (listed : item ∈ op.state.tasks.get op.blockNumber) :
    Obeys op (sendErrandTask H op.state item) E H := by
  unfold sendErrandTask
  split
  · trivial
  · rename_i known
    split
    · rename_i client decodes
      dsimp only
      split
      · trivial
      · rename_i keys
        have own := own_of_signerFilter keys
        have named : op.state.delegateAccounts.find item.delegator =
            some (op.state.delegateAccounts.get item.delegator) := by
          cases h : op.state.delegateAccounts.find item.delegator with
          | none => simp [h] at known
          | some delegator => simp [h]
        have price : ∀ client', Codec.decode item.client = some client' →
            op.state.clientTaskFee.get client = op.state.clientTaskFee.get client' := by
          intro client' decodes'
          rw [decodes, Option.some.injEq] at decodes'
          rw [decodes']
        generalize op.state.delegateAccounts.get item.delegator = delegator at *
        unfold sendAndSubmit
        split
        · rename_i account converted
          apply (keeps_sendTaskToTeaNetwork hss58 converted fun sig url asked =>
            ⟨listed, named, own, converted, asked⟩).bind
          intro sent E' _ known
          cases sent with
          | false =>
              exact ⟨.unsent listed named decodes (known.2 rfl), fun _ _ _ _ => trivial⟩
          | true => exact obeys_submitTask listed named price fun _ _ => known.1 rfl
        · rename_i e failed
          apply obeys_submitTask listed named price
          intro account converted
          rw [failed] at converted
          cases converted
    · trivial

theorem obeys_sendErrandTasks :
    Obeys op (sendErrandTasks H op.state op.blockNumber) E H := by
  unfold sendErrandTasks
  split
  · trivial
  · split
    · trivial
    · exact Policy.keeps_forM fun item listed E' _ => obeys_sendErrandTask hss58 listed

end Tasks

/-! ## Results -/

section Results

/-- Appending a fetched result to results that have all been fetched. -/
theorem obeys_appendResult {cid : Cid} {info : ErrandResultInfo} (fetched : Fetched H E cid info) :
    Obeys op ((appendResult cid info ⟨tasksResultsKey⟩ : WorkerM AccountId Unit).translate
      (fun _ => (pure [] : NodeM AccountId Public AnyError _)) AnyError.storage) E H := by
  unfold appendResult
  apply Policy.keeps_get
  intro store E' grown sound _
  have fetched := fetched.mono grown
  split
  · rename_i results found
    refine ⟨fun store' E'' later sound' => sound'.storeResults ?_, trivial⟩
    intro entry hentry
    rcases List.mem_append.mp hentry with old | new
    · have known : entry ∈ stored store := by simpa [stored, found] using old
      exact (sound.results entry known).mono later
    · rw [List.mem_singleton.mp new]
      exact fetched.mono later
  · refine ⟨fun store' E'' later sound' => sound'.storeResults ?_, trivial⟩
    intro entry hentry
    rw [List.mem_singleton.mp hentry]
    exact fetched.mono later

theorem obeys_fetchErrandResultInfo {errand : Errand} {client : AccountId}
    (due : op.blockNumber % 10 = 0)
    (permitted : allowToUpdateResult op.state.updateResultAccounts (getAccountIds H) = true)
    (processing : ∃ item ∈ op.state.processingErrands, op.state.errands.find item = some errand)
    (decodes : Codec.decode errand.accountId = some client) :
    Obeys op (fetchErrandResultInfo H.formats errand.errandId errand.descriptionCid
      (op.state.delegateNetAddress.get (op.state.clientDelegate.get client))) E H := by
  unfold fetchErrandResultInfo
  rw [httpQueryTaskResult_eq]
  cases asked : queryUrl errand.errandId
      (op.state.delegateNetAddress.get (op.state.clientDelegate.get client)) with
  | none => trivial
  | some url =>
      have queries : Queries H op errand url :=
        ⟨due, permitted, processing, client, decodes, asked⟩
      have posts : (policy H).Keeps op
          (fun resp E' => ∃ text, resp = asBytes text ∧ Answered H E' op url text)
          (fun _ _ => True) (httpPost H.formats url) E :=
        (keeps_httpPost (.query queries)).weaken (fun _ _ _ posted => posted)
          fun _ _ _ _ => trivial
      apply posts.bind
      intro resp E' _ answered
      obtain ⟨text, rfl, answered⟩ := answered
      unfold fromUtf8OrFail parsedOrFail Program.ofExcept
      rw [fromUtf8_asBytes]
      simp only [Program.pure_eq, Program.done_bind]
      cases parsed : H.formats.errandResultInfo text with
      | error details => trivial
      | ok info =>
          show Obeys op (onStorage AnyError.storage
            (Offchain.fetchErrandResultInfo errand.descriptionCid (some info))) E' H
          unfold Offchain.fetchErrandResultInfo onStorage
          dsimp only
          split
          · trivial
          · rename_i completed
            have fetched : Fetched H E' errand.descriptionCid info :=
              ⟨op, errand, url, text, queries, rfl, answered, parsed, by simpa using completed⟩
            have obeys : Obeys op (onStorage AnyError.storage
                (operateLocalStorage tasksResultsKey tasksResultsLock
                  (appendResult errand.descriptionCid info))) E' H := by
              apply keeps_underLock
              · exact fun store value E'' sound => sound.lockResults value
              · exact fun _ _ _ _ => trivial
              · exact fun E'' later => obeys_appendResult (fetched.mono later)
            rw [Program.translate_bind]
            exact obeys.andThen fun _ _ _ => trivial

theorem obeys_queryErrandTaskResults :
    Obeys op (queryErrandTaskResults H op.state op.blockNumber : NodeM AccountId Public ε Unit)
      E H := by
  unfold queryErrandTaskResults
  split
  · trivial
  · rename_i due
    split
    · trivial
    · split
      · trivial
      · rename_i permitted
        apply Policy.keeps_forM
        intro item listed E' _
        unfold queryErrandTaskResult
        split
        · rename_i errand found
          split
          · rename_i client decodes
            have obeys : Obeys op (fetchErrandResultInfo H.formats errand.errandId
                errand.descriptionCid
                (op.state.delegateNetAddress.get (op.state.clientDelegate.get client))) E' H :=
              obeys_fetchErrandResultInfo (not_not.mp due) (by simpa using permitted)
                ⟨item, listed, found⟩ decodes
            unfold fetchSingleTaskResult
            rw [Program.bind_assoc]
            apply obeys.attempt.bind
            intro result _ _ _
            cases result <;> trivial
          · trivial
        · trivial

/-- Everything that is submitted has been fetched. -/
theorem obeys_submitResults
    (permitted : allowToUpdateResult op.state.updateResultAccounts (getAccountIds H) = true) :
    Obeys op ((submitResults ⟨tasksResultsKey⟩ : WorkerM AccountId Unit).translate
      (sendSignedTransaction H.accounts) id) E H := by
  unfold submitResults
  apply Policy.keeps_get
  intro store E' _ sound _
  split
  · rename_i results found
    rw [Program.translate_bind, Program.translate_forM]
    apply Policy.Keeps.andThen
    · apply Policy.keeps_forM
      intro item hitem E'' later
      have known : item ∈ stored store := by simpa [stored, found] using hitem
      have fetched := (sound.results item known).mono later
      unfold updateSingleErrand
      rw [Program.translate_bind, Program.translate_request]
      apply Policy.Keeps.andThen (obeys_sendSignedTransaction fun key hkey => ?_)
      · exact fun _ _ _ => trivial
      · obtain ⟨own, hown, rfl⟩ := List.mem_map.mp hkey
        exact ⟨⟨hown, rfl⟩, .report permitted fetched⟩
    · intro _ E'' _
      exact ⟨fun store' E₃ _ sound' => sound'.storeResults (by simp), trivial⟩
  · trivial

theorem obeys_updateErrandTaskResults :
    Obeys op (updateErrandTaskResults H op.state : NodeM AccountId Public ε Unit) E H := by
  unfold updateErrandTaskResults
  split
  · trivial
  · split
    · trivial
    · rename_i permitted
      have obeys : Obeys op ((loadTasksResultsInfo : WorkerM AccountId Unit).translate
          (sendSignedTransaction H.accounts) id) E H := by
        apply keeps_underLock
        · exact fun store value E' sound => sound.lockResults value
        · exact fun _ _ _ _ => trivial
        · exact fun E' _ => obeys_submitResults (by simpa using permitted)
      exact obeys.discard

end Results

/-! ## The worker -/

theorem obeys_offchainWorker [DecidableEq AccountId] (hss58 : Ss58Text H.formats.text)
    (op : Round AccountId Ledger) :
    Obeys op (offchainWorker H op.state op.blockNumber) E H := by
  unfold offchainWorker
  apply (obeys_applyDelegates hss58).andThen
  intro _ E' _
  apply (obeys_sendErrandTasks hss58).discard.andThen
  intro _ E'' _
  apply obeys_queryErrandTaskResults.andThen
  exact fun _ _ _ => obeys_updateErrandTaskResults

end AbcDemo.Worker
