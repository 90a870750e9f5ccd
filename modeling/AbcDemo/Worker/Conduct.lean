import AbcDemo.Worker.OffchainWorker

/-! # What a worker may ask, and on what evidence

A node posts nothing but the three requests of the protocol, and submits
nothing but what an answer it has had calls for. It takes back an application,
or gives back a fee, only after something has failed. What it remembers between
the blocks, the signatures of its delegates and the results not yet submitted,
is in the local storage, and is there only because of an answer.
-/

namespace AbcDemo.Worker

open Foundation Pallet Offchain

/-- The block a worker was started for, and the state of the chain there. -/
structure Round (AccountId Ledger : Type) where
  blockNumber : BlockNumber
  state : State AccountId Ledger

/-- What a node has been answered and has met in its storage. -/
abbrev Evidence (AccountId Ledger Public : Type) : Type :=
  Set (Notice (Round AccountId Ledger) (Request AccountId Public) Reply)

variable {AccountId Ledger Public : Type} [Inhabited AccountId] [Codec AccountId]
  (H : Host AccountId Public)

/-! ## The posts of a round -/

section Posts

variable (op : Round AccountId Ledger)

/-- An account of this node applied in the block and is asked at its address. -/
structure Applies (delegator : AccountId) (account : AccountId32) (url : String) : Prop where
  applied : ∃ name, (name, delegator) ∈ op.state.delegatesApplys.get op.blockNumber
  own : delegator ∈ H.keys.map H.intoAccount
  converted : accountToBytes delegator = .ok account
  asked : applyUrl H.formats account (op.state.delegateNetAddress.get delegator) = some url

/-- A task of the block is sent to the account of this node that its name is bound to. -/
structure Sends (delegator : AccountId) (account : AccountId32) (item : TaskInfo) (sig : Bytes)
    (url : String) : Prop where
  listed : item ∈ op.state.tasks.get op.blockNumber
  named : op.state.delegateAccounts.find item.delegator = some delegator
  own : delegator ∈ H.keys.map H.intoAccount
  converted : accountToBytes delegator = .ok account
  asked : taskUrl (H.formats.text account) item.descriptionCid item.errandId
    (op.state.delegateNetAddress.get delegator) sig = some url

/-- An errand in processing is asked for at the delegate its client has at that time. -/
structure Queries (errand : Errand) (url : String) : Prop where
  due : op.blockNumber % 10 = 0
  permitted : allowToUpdateResult op.state.updateResultAccounts (getAccountIds H) = true
  processing : ∃ item ∈ op.state.processingErrands, op.state.errands.find item = some errand
  asked : ∃ client, (Codec.decode errand.accountId : Option AccountId) = some client ∧
    queryUrl errand.errandId
      (op.state.delegateNetAddress.get (op.state.clientDelegate.get client)) = some url

end Posts

/-- The lock was met taken, or somebody else has been faster. -/
def Blocked (met : Set Sight) (lock : Bytes) : Prop :=
  (∃ cell, ¬ LockFree cell ∧ .read lock cell ∈ met) ∨ .changed lock ∈ met

theorem Blocked.mono {met met' : Set Sight} {lock : Bytes} (h : Blocked met lock)
    (grown : met ⊆ met') : Blocked met' lock := by
  rcases h with ⟨cell, taken, seen⟩ | late
  · exact .inl ⟨cell, taken, grown seen⟩
  · exact .inr (grown late)

/-! ## What the answers are evidence of -/

section Answers

variable (E : Evidence AccountId Ledger Public)

/-- A post of the round was answered with this text. -/
def Answered (op : Round AccountId Ledger) (url : String) (text : String) : Prop :=
  ∃ outcome, .answered ⟨op, .httpPost url, outcome⟩ ∈ E ∧
    readOutcome H.formats outcome = .ok (asBytes text)

/-- The application was answered with `info`. -/
def Granted (op : Round AccountId Ledger) (delegator : AccountId) (account : AccountId32)
    (info : DelegateInfo) : Prop :=
  ∃ url text, Applies H op delegator account url ∧ Answered H E op url text ∧
    H.formats.delegateInfo text = .ok info

/-- The delegate has received the task, with a signature it had given out. -/
def Delivered (op : Round AccountId Ledger) (delegator : AccountId) (item : TaskInfo) : Prop :=
  ∃ account info url text, Sends H op delegator account item info.sig url ∧
    (∃ op' delegator', Granted H E op' delegator' account info) ∧ Answered H E op url text

/-- The errand under `cid` was asked for, and was completed with `info`. -/
def Fetched (cid : Cid) (info : ErrandResultInfo) : Prop :=
  ∃ op errand url text, Queries H op errand url ∧ errand.descriptionCid = cid ∧
    Answered H E op url text ∧ H.formats.errandResultInfo text = .ok info ∧ info.completed = true

/-- A worker of the round was kept out by the lock. -/
def Barred (op : Round AccountId Ledger) (lock : Bytes) : Prop :=
  Blocked {sight | .saw op sight ∈ E} lock

/-- The application has come to nothing: there is nobody to ask, the answer is no grant, or
what was granted could not be saved. -/
inductive Denied (op : Round AccountId Ledger) (delegator : AccountId) : Prop where
  | unconverted {e} (failed : accountToBytes delegator = .error e)
  | unaddressed {account} (converted : accountToBytes delegator = .ok account)
      (failed : applyUrl H.formats account (op.state.delegateNetAddress.get delegator) = none)
  | refused {account url outcome} (applies : Applies H op delegator account url)
      (answered : .answered ⟨op, .httpPost url, outcome⟩ ∈ E)
      (failed : ∀ text info, readOutcome H.formats outcome = .ok (asBytes text) →
        H.formats.delegateInfo text ≠ .ok info)
  | unsaved {account info} (granted : Granted H E op delegator account info)
      (failed : Barred E op (clientLock (H.formats.text account)))

/-- What an account of this node may submit in a round. -/
inductive MaySubmit (op : Round AccountId Ledger) (signer : AccountId) : Call AccountId → Prop where
  | activate {account info} (granted : Granted H E op signer account info) :
      MaySubmit op signer (.updateDelegateStatus signer)
  | release {name} (applied : (name, signer) ∈ op.state.delegatesApplys.get op.blockNumber)
      (denied : Denied H E op signer) : MaySubmit op signer (.unreserve name signer)
  | start {item client} (listed : item ∈ op.state.tasks.get op.blockNumber)
      (named : op.state.delegateAccounts.find item.delegator = some signer)
      (decodes : Codec.decode item.client = some client)
      (delivered : ∀ account, accountToBytes signer = .ok account → Delivered H E op signer item) :
      MaySubmit op signer (.initErrand client item.errandId item.descriptionCid)
  | report {cid info}
      (permitted : allowToUpdateResult op.state.updateResultAccounts (getAccountIds H) = true)
      (fetched : Fetched H E cid info) : MaySubmit op signer (.updateErrand cid info.resultCid)

inductive MayPost (op : Round AccountId Ledger) (url : String) : Prop where
  | apply {delegator account} (applies : Applies H op delegator account url)
  | send {delegator account item info} (sends : Sends H op delegator account item info.sig url)
      (credential : ∃ op' delegator', Granted H E op' delegator' account info)
  | query {errand} (queries : Queries H op errand url)

end Answers

section Monotone

variable {H} {E E' : Evidence AccountId Ledger Public} {op : Round AccountId Ledger}

omit [Inhabited AccountId] [Codec AccountId] in
theorem Answered.mono {url text : String} (h : Answered H E op url text) (grown : E ⊆ E') :
    Answered H E' op url text := by
  obtain ⟨outcome, answered, read⟩ := h
  exact ⟨outcome, grown answered, read⟩

omit [Inhabited AccountId] in
theorem Granted.mono {delegator : AccountId} {account : AccountId32} {info : DelegateInfo}
    (h : Granted H E op delegator account info) (grown : E ⊆ E') :
    Granted H E' op delegator account info := by
  obtain ⟨url, text, applies, answered, parsed⟩ := h
  exact ⟨url, text, applies, answered.mono grown, parsed⟩

omit [Inhabited AccountId] in
theorem credential_mono {account : AccountId32} {info : DelegateInfo}
    (h : ∃ op delegator, Granted H E op delegator account info) (grown : E ⊆ E') :
    ∃ op delegator, Granted H E' op delegator account info := by
  obtain ⟨op, delegator, granted⟩ := h
  exact ⟨op, delegator, granted.mono grown⟩

omit [Inhabited AccountId] in
theorem Delivered.mono {delegator : AccountId} {item : TaskInfo}
    (h : Delivered H E op delegator item) (grown : E ⊆ E') : Delivered H E' op delegator item := by
  obtain ⟨account, info, url, text, sends, credential, answered⟩ := h
  exact ⟨account, info, url, text, sends, credential_mono credential grown, answered.mono grown⟩

theorem Fetched.mono {cid : Cid} {info : ErrandResultInfo} (h : Fetched H E cid info)
    (grown : E ⊆ E') : Fetched H E' cid info := by
  obtain ⟨op, errand, url, text, queries, keyed, answered, parsed, completed⟩ := h
  exact ⟨op, errand, url, text, queries, keyed, answered.mono grown, parsed, completed⟩

omit [Inhabited AccountId] [Codec AccountId] in
theorem Barred.mono {lock : Bytes} (h : Barred E op lock) (grown : E ⊆ E') :
    Barred E' op lock :=
  Blocked.mono h fun _ seen => grown seen

omit [Inhabited AccountId] in
theorem Denied.mono {delegator : AccountId} (h : Denied H E op delegator) (grown : E ⊆ E') :
    Denied H E' op delegator := by
  cases h with
  | unconverted failed => exact .unconverted failed
  | unaddressed converted failed => exact .unaddressed converted failed
  | refused applies answered failed => exact .refused applies (grown answered) failed
  | unsaved granted failed => exact .unsaved (granted.mono grown) (failed.mono grown)

theorem MaySubmit.mono {signer : AccountId} {call : Call AccountId}
    (h : MaySubmit H E op signer call) (grown : E ⊆ E') : MaySubmit H E' op signer call := by
  cases h with
  | activate granted => exact .activate (granted.mono grown)
  | release applied denied => exact .release applied (denied.mono grown)
  | start listed named decodes delivered =>
      exact .start listed named decodes fun account converted =>
        (delivered account converted).mono grown
  | report permitted fetched => exact .report permitted (fetched.mono grown)

theorem MayPost.mono {url : String} (h : MayPost H E op url) (grown : E ⊆ E') :
    MayPost H E' op url := by
  cases h with
  | apply applies => exact .apply applies
  | send sends credential => exact .send sends (credential_mono credential grown)
  | query queries => exact .query queries

end Monotone

/-! ## What the storage is evidence of -/

section Storage

variable [Codec (List ResultEntry)] [Codec DelegateInfo]

section Releases

variable (E : Evidence AccountId Ledger Public)

/-- The task was not sent: no signature of the delegate could be loaded, there is nowhere to
send it, or the answer is a failure. -/
inductive Unsent (op : Round AccountId Ledger) (delegator : AccountId) (item : TaskInfo) :
    Prop where
  | unloaded {account} (converted : accountToBytes delegator = .ok account)
      (failed : Barred E op (clientLock (H.formats.text account)))
  | missing {account value} (converted : accountToBytes delegator = .ok account)
      (seen : .saw op (.read (clientKey (H.formats.text account)) value) ∈ E)
      (failed : value.bind (Codec.decode : Bytes → Option DelegateInfo) = none)
  | unaddressed {account} (converted : accountToBytes delegator = .ok account)
      (failed : ∀ sig, taskUrl (H.formats.text account) item.descriptionCid item.errandId
        (op.state.delegateNetAddress.get delegator) sig = none)
  | refused {account sig url outcome} (sends : Sends H op delegator account item sig url)
      (answered : .answered ⟨op, .httpPost url, outcome⟩ ∈ E)
      (failed : (readOutcome H.formats outcome).isOk = false)

/-- Whose reserve, and how much of it, is given back for a task of the round: the delegate's
when the task was not sent, and the client's when a key was refused the errand. -/
inductive MayRelease (op : Round AccountId Ledger) : AccountId → Nat → Prop where
  | unsent {item delegator client} (listed : item ∈ op.state.tasks.get op.blockNumber)
      (named : op.state.delegateAccounts.find item.delegator = some delegator)
      (decodes : Codec.decode item.client = some client) (failed : Unsent H E op delegator item) :
      MayRelease op delegator (op.state.clientTaskFee.get client).toNat
  | unopened {item delegator client key} (listed : item ∈ op.state.tasks.get op.blockNumber)
      (named : op.state.delegateAccounts.find item.delegator = some delegator)
      (decodes : Codec.decode item.client = some client)
      (held : key ∈ H.keys ∧ H.intoAccount key = delegator)
      (refused : .answered ⟨op, .submit delegator key
        (.initErrand client item.errandId item.descriptionCid), .error ()⟩ ∈ E) :
      MayRelease op client (op.state.clientTaskFee.get client).toNat

def MayAsk (op : Round AccountId Ledger) : Request AccountId Public → Prop
  | .httpPost url => MayPost H E op url
  | .submit signer key call =>
      (key ∈ H.keys ∧ H.intoAccount key = signer) ∧ MaySubmit H E op signer call
  | .unreserve who value => MayRelease H E op who value

/-- What the storage remembers, it remembers from answers. -/
structure Remembers (store : LocalStorage) : Prop where
  results : ∀ entry ∈ stored store, Fetched H E entry.1 entry.2
  credentials : ∀ account info,
    (store.find (clientKey (H.formats.text account))).bind Codec.decode = some info →
      ∃ op delegator, Granted H E op delegator account info

end Releases

section Monotone

variable {H} {E E' : Evidence AccountId Ledger Public} {op : Round AccountId Ledger}

omit [Inhabited AccountId] [Codec (List ResultEntry)] in
theorem Unsent.mono {delegator : AccountId} {item : TaskInfo} (h : Unsent H E op delegator item)
    (grown : E ⊆ E') : Unsent H E' op delegator item := by
  cases h with
  | unloaded converted failed => exact .unloaded converted (failed.mono grown)
  | missing converted seen failed => exact .missing converted (grown seen) failed
  | unaddressed converted failed => exact .unaddressed converted failed
  | refused sends answered failed => exact .refused sends (grown answered) failed

omit [Inhabited AccountId] [Codec (List ResultEntry)] in
theorem MayRelease.mono {who : AccountId} {value : Nat} (h : MayRelease H E op who value)
    (grown : E ⊆ E') : MayRelease H E' op who value := by
  cases h with
  | unsent listed named decodes failed => exact .unsent listed named decodes (failed.mono grown)
  | unopened listed named decodes held refused =>
      exact .unopened listed named decodes held (grown refused)

end Monotone

/-- The policy of a node. -/
def policy : Policy (Round AccountId Ledger) (Request AccountId Public) Reply where
  May op E q := MayAsk H E op q
  Sound store E := Remembers H E store
  may_mono {op E E' q} grown h := by
    cases q with
    | httpPost url => exact MayPost.mono h grown
    | submit signer key call => exact ⟨h.1, h.2.mono grown⟩
    | unreserve who value => exact MayRelease.mono h grown
  sound_mono grown h :=
    ⟨fun entry hentry => (h.results entry hentry).mono grown,
      fun account info hinfo => credential_mono (h.credentials account info hinfo) grown⟩

end Storage

end AbcDemo.Worker
