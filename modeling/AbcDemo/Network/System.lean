import AbcDemo.Pallet.History
import AbcDemo.Worker.Locks

/-! # The chain and the nodes around it

The nodes read the chain and answer it: a node starts a worker on the state that
a block has left, the worker's accesses interleave with those of the node's
other workers, and what it submits may be included whenever the chain gets to
it, or never. Everybody else submits what he likes. The accounts that only the
nodes operate make the four calls of a worker through a worker; whatever else
they sign is not restricted.
-/

namespace AbcDemo.Network

open Foundation Pallet Offchain Worker

variable {N W AccountId Ledger Public : Type}

/-- The calls that workers make. -/
def madeByWorkers : Call AccountId → Bool
  | .updateDelegateStatus _ => true
  | .initErrand _ _ _ => true
  | .updateErrand _ _ => true
  | .unreserve _ _ => true
  | .requestDelegate _ _ => false
  | .beginTask _ _ _ => false

/-- The pallet's configuration, the nodes, and the accounts that only they operate. -/
structure Setup (N AccountId Ledger Public : Type) where
  trait : Trait AccountId Ledger
  hosts : N → Host AccountId Public
  held : AccountId → Bool

abbrev HostNode (W AccountId Ledger Public : Type) : Type :=
  Node W (Round AccountId Ledger) (Request AccountId Public) Reply Empty

abbrev HostExchange (AccountId Ledger Public : Type) : Type :=
  Exchange (Round AccountId Ledger) (Request AccountId Public) Reply

abbrev HostNotice (AccountId Ledger Public : Type) : Type :=
  Notice (Round AccountId Ledger) (Request AccountId Public) Reply

structure System (N W AccountId Ledger Public : Type) where
  state : State AccountId Ledger
  submitted : List (AccountId × Call AccountId)
  nodes : N → HostNode W AccountId Ledger Public

/-- The chain is extended by an extrinsic, a node starts a worker for a block on the present
state, or a worker takes a turn. -/
inductive Move (N W AccountId Public : Type) where
  | extend (x : Extrinsic AccountId)
  | start (n : N) (w : W) (blockNumber : BlockNumber)
  | go (n : N) (w : W) (world : ∀ q : Request AccountId Public, Reply q)

/-- What the moves leave behind: the chain has an extrinsic more, or a node has been answered or
has looked into its storage. -/
inductive Happening (N AccountId Ledger Public : Type) where
  | included (x : Extrinsic AccountId)
  | noticed (n : N) (what : HostNotice AccountId Ledger Public)

@[match_pattern] abbrev Happening.exchanged (n : N) (e : HostExchange AccountId Ledger Public) :
    Happening N AccountId Ledger Public := .noticed n (.answered e)

/-- No worker has been started. -/
def System.start (g : State AccountId Ledger) (stores : N → LocalStorage) :
    System N W AccountId Ledger Public :=
  ⟨g, [], fun n => Node.start (stores n)⟩

/-- The transaction that an exchange hands over, whatever became of it. -/
def submission (e : HostExchange AccountId Ledger Public) : Option (AccountId × Call AccountId) :=
  match e.request with
  | .submit signer _ call => some (signer, call)
  | _ => none

/-- Held accounts make the calls of a worker through a worker. -/
def admits [DecidableEq AccountId] (held : AccountId → Bool)
    (submitted : List (AccountId × Call AccountId)) (x : Extrinsic AccountId) : Bool :=
  match x.origin with
  | .signed a => !(held a && madeByWorkers x.call) || submitted.contains (a, x.call)
  | .root => true
  | .none => true

variable [DecidableEq N] [DecidableEq W] [DecidableEq AccountId] [Inhabited AccountId]
  [Codec AccountId] [Codec (List ResultEntry)] [Codec DelegateInfo]
  (S : Setup N AccountId Ledger Public)

/-- The worker of a node, as the operation of its local storage. -/
def worker (n : N) (r : Round AccountId Ledger) : NodeM AccountId Public Empty Unit :=
  offchainWorker (S.hosts n) r.state r.blockNumber

/-- One turn of one node. -/
def nodeTurn (n : N) (t : Turn W (Round AccountId Ledger) (Request AccountId Public) Reply) :
    Dispatch (System N W AccountId Ledger Public) (Happening N AccountId Ledger Public) Empty
      Unit := fun sys =>
  ⟨.ok (),
    { sys with
      submitted := sys.submitted ++ (exchange (sys.nodes n) t).toList.filterMap submission
      nodes := Function.update sys.nodes n (fire (turn (worker S n)) (sys.nodes n) t).after },
    (notice (sys.nodes n) t).toList.map (.noticed n)⟩

def step : Move N W AccountId Public →
    Dispatch (System N W AccountId Ledger Public) (Happening N AccountId Ledger Public) Empty Unit
  | .extend x => fun sys =>
      if admits S.held sys.submitted x then
        ⟨.ok (), { sys with state := ((dispatch S.trait x).run sys.state).after }, [.included x]⟩
      else ⟨.ok (), sys, []⟩
  | .start n w blockNumber => fun sys =>
      (nodeTurn S n (.begin w ⟨blockNumber, sys.state⟩)).run sys
  | .go n w world => nodeTurn S n (.go w world)

/-- Everything that happened in a run, in order. -/
def happened (ts : List (Transition (System N W AccountId Ledger Public) (Move N W AccountId Public)
    (Happening N AccountId Ledger Public) Empty)) : List (Happening N AccountId Ledger Public) :=
  ts.flatMap (·.outcome.log)

/-- The chain, as far as it got. -/
def included (h : List (Happening N AccountId Ledger Public)) : List (Extrinsic AccountId) :=
  h.filterMap fun
    | .included x => some x
    | .noticed _ _ => none

/-- What node `n` has been answered and has met. -/
def evidence (n : N) (h : List (Happening N AccountId Ledger Public)) :
    Evidence AccountId Ledger Public :=
  {what | .noticed n what ∈ h}

/-- The state is one that the chain has been in. -/
def Past (g : State AccountId Ledger) (h : List (Happening N AccountId Ledger Public))
    (s : State AccountId Ledger) : Prop :=
  ∃ xs, xs <+: included h ∧ s = (exec (dispatch S.trait) g xs).final

end AbcDemo.Network
