import AbcDemo.Network.Provenance
import AbcDemo.Worker.Posts

/-! # What the posts of a network say

Whatever a node posts says what the chain says, to the address that the chain
has, and what comes of it to the service there can be read in one way only: the
identifiers of the tasks are of a fixed form, for it is the chain that generates
them.
-/

namespace AbcDemo.Network

open Foundation Pallet Offchain Worker

variable {N W AccountId Ledger Public : Type}

section Posts

variable [DecidableEq AccountId] [Inhabited AccountId] [Codec AccountId]

/-- What a node has to say to the delegate `d`, as the state of the round has it. -/
inductive Meant (H : Host AccountId Public) (E : Evidence AccountId Ledger Public)
    (op : Round AccountId Ledger) (d : AccountId) : Message → Prop where
  | application {name account buf}
      (applied : (name, d) ∈ op.state.delegatesApplys.get op.blockNumber)
      (converted : accountToBytes d = .ok account)
      (encoded : H.formats.beMyDelegateRequest (H.formats.text account) [] = .ok buf) :
      Meant H E op d (.application (asBytes (H.formats.base64 buf)))
  | task {account item info} (listed : item ∈ op.state.tasks.get op.blockNumber)
      (named : op.state.delegateAccounts.find item.delegator = some d)
      (converted : accountToBytes d = .ok account)
      (credential : ∃ op' delegator', Granted H E op' delegator' account info) :
      Meant H E op d (.task account item.errandId info.sig item.descriptionCid)
  | query {cid errand client} (processing : cid ∈ op.state.processingErrands)
      (found : op.state.errands.find cid = some errand)
      (decodes : Codec.decode errand.accountId = some client)
      (delegate : op.state.clientDelegate.get client = d) : Meant H E op d (.query errand.errandId)

variable {S : Setup N AccountId Ledger Public} {g : State AccountId Ledger}
  {h : List (Happening N AccountId Ledger Public)}

/-- The identifiers of listed tasks are generated. -/
theorem Past.version4 {s : State AccountId Ledger} (past : Past S g h s)
    (empty : ∀ b, g.tasks.get b = []) {b : BlockNumber} {item : TaskInfo}
    (hitem : item ∈ s.tasks.get b) : ∃ u : Version4, item.errandId = u.text := by
  obtain ⟨t, _, client, d, _, _, _, generated, _⟩ := past.listed empty hitem
  obtain ⟨u, text⟩ := exists_version4 (errandHash S.trait t.input.env d)
  exact ⟨u, generated.symm.trans text.symm⟩

omit [DecidableEq AccountId] in
/-- A post that a node may make says what the state has. -/
theorem meant_of_mayPost {H : Host AccountId Public} {E : Evidence AccountId Ledger Public}
    {op : Round AccountId Ledger} {url : String}
    (generated : ∀ item ∈ op.state.tasks.get op.blockNumber, ∃ u : Version4, item.errandId = u.text)
    (may : MayPost H E op url) :
    ∃ d m, Meant H E op d m ∧ m.Posted H.formats (op.state.delegateNetAddress.get d) url := by
  cases may with
  | @apply delegator account applies =>
      obtain ⟨⟨name, applied⟩, _, converted, asked⟩ := applies
      obtain ⟨buf, encoded, _⟩ := bytes_of_applyUrl asked
      exact ⟨delegator, _, .application applied converted encoded,
        account, buf, encoded, rfl, asked⟩
  | @send delegator account item info sends credential =>
      obtain ⟨listed, named, _, converted, asked⟩ := sends
      exact ⟨delegator, _, .task listed named converted credential, generated item listed, asked⟩
  | @query errand queries =>
      obtain ⟨_, _, ⟨cid, processing, found⟩, client, decodes, asked⟩ := queries
      exact ⟨_, _, .query processing found decodes rfl, asked⟩

variable [Codec (List ResultEntry)] [Codec DelegateInfo] [DecidableEq N] [DecidableEq W]

/-- Whatever a node posts, at whatever time, goes to the address that the state of the round has
for some account, the empty one if it has none, and says what that state has to say to it. Unless
the address holds a `#`, no other message is received like this one by the service there. -/
theorem posts_unambiguous {stores : N → LocalStorage} (deployed : Deployed S stores)
    (empty : ∀ b, g.tasks.get b = []) (ms : List (Move N W AccountId Public)) :
    ∀ h₁ n op url outcome h₂,
      chronicle S g stores ms = h₁ ++ .exchanged n ⟨op, .httpPost url, outcome⟩ :: h₂ →
        Past S g h₁ op.state ∧
          ∃ d m, Meant (S.hosts n) (evidence n h₁) op d m ∧
            m.Posted (S.hosts n).formats (op.state.delegateNetAddress.get d) url ∧
            (35 ∉ op.state.delegateNetAddress.get d → ∀ url' (m' : Message),
              m'.Posted (S.hosts n).formats (op.state.delegateNetAddress.get d) url' →
                beforeHash (asBytes url') = beforeHash (asBytes url) →
                  m'.received = m.received) := by
  intro h₁ n op url outcome h₂ hsplit
  obtain ⟨past, may⟩ := (accounted_run deployed ms).lawful h₁ _ h₂ hsplit
  obtain ⟨d, m, meant, posted⟩ := meant_of_mayPost (fun _ there => past.version4 empty there) may
  refine ⟨past, d, m, meant, posted, fun plain url' m' posted' same => ?_⟩
  exact posted'.unique (deployed.ss58 n) plain posted same

end Posts

def isPost : Happening Unit AccountId32 Balances AccountId32 → Bool
  | .exchanged _ ⟨_, .httpPost _, _⟩ => true
  | _ => false

theorem posts_unambiguous_bob :
    ∃ h₁ n op url outcome h₂,
      oneNodeHistory taskSent = h₁ ++ .exchanged n ⟨op, .httpPost url, outcome⟩ :: h₂ ∧
        ∃ d m, Meant (oneNode.hosts n) (evidence n h₁) op d m ∧
          (35 ∉ op.state.delegateNetAddress.get d → ∀ url' (m' : Message),
            m'.Posted (oneNode.hosts n).formats (op.state.delegateNetAddress.get d) url' →
              beforeHash (asBytes url') = beforeHash (asBytes url) →
                m'.received = m.received) := by
  have asked : (oneNodeHistory taskSent).any isPost = true := by decide +kernel
  obtain ⟨what, hwhat, posts⟩ := List.any_eq_true.mp asked
  obtain ⟨h₁, h₂, hsplit⟩ := List.append_of_mem hwhat
  cases what with
  | included x => cases posts
  | noticed n what =>
    cases what with
    | saw op sight => cases posts
    | answered e =>
      obtain ⟨op, request, outcome⟩ := e
      cases request with
      | httpPost url =>
          obtain ⟨_, d, m, meant, _, only⟩ := posts_unambiguous oneNode_deployed (fun _ => rfl)
            taskSent h₁ n op url outcome h₂ hsplit
          exact ⟨h₁, n, op, url, outcome, h₂, hsplit, d, m, meant, only⟩
      | _ => cases posts

end AbcDemo.Network
