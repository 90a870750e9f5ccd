import AbcDemo.Network.System

/-! # Everything has its cause

Whatever the nodes ask, and whatever of theirs the chain includes, had its
reason in what had happened before: in a state the chain had been in, and in
what the same node had been answered, or had met in its storage, by then.
-/

namespace AbcDemo.Network

open Foundation Pallet Offchain Worker

variable {N W AccountId Ledger Public : Type}

section Histories

variable {h h' : List (Happening N AccountId Ledger Public)}

@[simp] theorem included_nil :
    included ([] : List (Happening N AccountId Ledger Public)) = [] := rfl

@[simp] theorem included_append : included (h ++ h') = included h ++ included h' :=
  List.filterMap_append

@[simp] theorem included_cons_included (x : Extrinsic AccountId) :
    included (.included x :: h) = x :: included h := rfl

@[simp] theorem included_cons_noticed (n : N) (what : HostNotice AccountId Ledger Public) :
    included (.noticed n what :: h) = included h := rfl

@[simp] theorem included_noticed (n : N) (whats : List (HostNotice AccountId Ledger Public)) :
    included (whats.map (.noticed n)) = [] := by
  induction whats with
  | nil => rfl
  | cons what whats ih => simpa using ih

theorem evidence_subset (n : N) : evidence n h ⊆ evidence n (h ++ h') :=
  fun _ he => List.mem_append_left h' he

end Histories

variable [DecidableEq AccountId] [Inhabited AccountId] [Codec AccountId]
  (S : Setup N AccountId Ledger Public) (g : State AccountId Ledger)
  {h h' : List (Happening N AccountId Ledger Public)}

variable {S g} in
theorem Past.append {s : State AccountId Ledger} (past : Past S g h s) : Past S g (h ++ h') s := by
  obtain ⟨xs, hxs, rfl⟩ := past
  exact ⟨xs, included_append ▸ hxs.trans (List.prefix_append _ _), rfl⟩

/-- A node had reason to submit the call, in a state the chain had been in. -/
def Caused (h : List (Happening N AccountId Ledger Public)) (a : AccountId)
    (call : Call AccountId) : Prop :=
  ∃ n op, Past S g h op.state ∧ MaySubmit (S.hosts n) (evidence n h) op a call

variable {S g} in
theorem Caused.append {a : AccountId} {call : Call AccountId} (caused : Caused S g h a call) :
    Caused S g (h ++ h') a call := by
  obtain ⟨n, op, past, may⟩ := caused
  exact ⟨n, op, past.append, may.mono (evidence_subset n)⟩

section Runs

variable [Codec (List ResultEntry)] [Codec DelegateInfo]

/-- What may come next. -/
def Follows (h : List (Happening N AccountId Ledger Public)) :
    Happening N AccountId Ledger Public → Prop
  | .included x =>
      ∀ a, x.origin = .signed a → S.held a = true → madeByWorkers x.call = true →
        Caused S g h a x.call
  | .noticed n (.answered e) =>
      Past S g h e.op.state ∧ MayAsk (S.hosts n) (evidence n h) e.op e.request
  | .noticed _ (.saw op _) => Past S g h op.state

/-- Everything follows from what came before it. -/
def Lawful (h : List (Happening N AccountId Ledger Public)) : Prop :=
  ∀ h₁ what h₂, h = h₁ ++ what :: h₂ → Follows S g h₁ what

variable {S g}

omit [Codec (List ResultEntry)] in
theorem Lawful.concat (lawful : Lawful S g h) {what : Happening N AccountId Ledger Public}
    (follows : Follows S g h what) : Lawful S g (h ++ [what]) := by
  intro h₁ what' h₂ hsplit
  rcases append_singleton_eq_split hsplit with ⟨_, rfl, rfl⟩ | ⟨h₃, _, rfl⟩
  · exact follows
  · exact lawful h₁ what' h₃ rfl

omit [Codec (List ResultEntry)] in
/-- A round that was answered was started on a state the chain had been in. -/
theorem Lawful.past (lawful : Lawful S g h) {n : N} {e : HostExchange AccountId Ledger Public}
    (he : .answered e ∈ evidence n h) : Past S g h e.op.state := by
  obtain ⟨h₁, h₂, rfl⟩ := List.append_of_mem he
  exact (lawful h₁ _ h₂ rfl).1.append

/-! ## Every run is lawful -/

/-- The nodes, their workers and their submissions are accounted for. -/
structure Accounted (h : List (Happening N AccountId Ledger Public))
    (sys : System N W AccountId Ledger Public) : Prop where
  lawful : Lawful S g h
  state : sys.state = (exec (dispatch S.trait) g (included h)).final
  vouched : ∀ n, Vouched (policy (S.hosts n)) (sys.nodes n) (evidence n h)
  past : ∀ n w op p, (sys.nodes n).running w = some (op, p) → Past S g h op.state
  submitted : ∀ a call, (a, call) ∈ sys.submitted → Caused S g h a call

variable [DecidableEq N] [DecidableEq W] {sys : System N W AccountId Ledger Public}

omit [DecidableEq N] [DecidableEq W] in
theorem obeys_worker (hss58 : ∀ n, Ss58Text (S.hosts n).formats.text) (n : N)
    (op : Round AccountId Ledger) :
    (policy (S.hosts n)).Keeps op (fun _ _ => True) (fun _ _ => True) (worker S n op) ∅ :=
  obeys_offchainWorker (hss58 n) op

omit [DecidableEq N] [DecidableEq W] in
/-- What one turn learns follows from what was before. -/
theorem Accounted.notice (accounted : Accounted (S := S) (g := g) h sys) {n : N}
    {t : Turn W (Round AccountId Ledger) (Request AccountId Public) Reply}
    (may : ∀ e, exchange (sys.nodes n) t = some e →
      MayAsk (S.hosts n) (evidence n h) e.op e.request) :
    Lawful S g (h ++ (notice (sys.nodes n) t).toList.map (.noticed n)) := by
  cases hwhat : Foundation.notice (sys.nodes n) t with
  | none => simpa using accounted.lawful
  | some what =>
      obtain ⟨w, p, busy⟩ := running_of_notice hwhat
      apply accounted.lawful.concat
      cases what with
      | answered e =>
          exact ⟨accounted.past n w e.op p busy, may e (notice_eq_answered.mp hwhat)⟩
      | saw op sight => exact accounted.past n w op p busy

theorem log_nodeTurn (n : N)
    (t : Turn W (Round AccountId Ledger) (Request AccountId Public) Reply) :
    ((nodeTurn S n t).run sys).log = (notice (sys.nodes n) t).toList.map (.noticed n) := rfl

/-- A turn of one node, with the evidence that it adds. -/
theorem accounted_nodeTurn (hss58 : ∀ n, Ss58Text (S.hosts n).formats.text)
    (accounted : Accounted (S := S) (g := g) h sys) (n : N)
    {t : Turn W (Round AccountId Ledger) (Request AccountId Public) Reply}
    (begun : ∀ w op, t = .begin w op → Past S g h op.state) :
    Accounted (S := S) (g := g) (h ++ ((nodeTurn S n t).run sys).log)
      ((nodeTurn S n t).run sys).after := by
  obtain ⟨may, vouched⟩ := (accounted.vouched n).turn (obeys_worker hss58 n) t
  constructor
  · exact accounted.notice may
  · show sys.state = _
    rw [accounted.state, log_nodeTurn, included_append, included_noticed, List.append_nil]
  · intro n'
    show Vouched _ (Function.update sys.nodes n _ n') _
    by_cases same : n' = n
    · subst same
      rw [Function.update_self]
      apply vouched.mono
      rintro e (old | new)
      · exact evidence_subset n' old
      · exact List.mem_append_right h (by simp [nodeTurn, Dispatch.run, show _ = some e from new])
    · rw [Function.update_of_ne same]
      exact (accounted.vouched n').mono (evidence_subset n')
  · intro n' w op p busy
    replace busy : (Function.update sys.nodes n _ n').running w = some (op, p) := busy
    by_cases same : n' = n
    · subst same
      rw [Function.update_self] at busy
      rcases running_of_turn busy with ⟨p', before⟩ | ⟨w', began⟩
      · exact (accounted.past n' w op p' before).append
      · exact (begun w' op began).append
    · rw [Function.update_of_ne same] at busy
      exact (accounted.past n' w op p busy).append
  · intro a call hcall
    rcases List.mem_append.mp hcall with old | new
    · exact (accounted.submitted a call old).append
    · obtain ⟨e, he, hsub⟩ := List.mem_filterMap.mp new
      replace he := Option.mem_toList.mp he
      obtain ⟨w, p, busy⟩ := running_of_notice (notice_eq_answered.mpr he)
      have may := may e he
      unfold submission at hsub
      split at hsub
      · rename_i signer key call' hrequest
        cases hsub
        rw [hrequest] at may
        exact Caused.append ⟨n, e.op, accounted.past n w e.op p busy, may.2⟩
      · cases hsub

omit [DecidableEq N] [DecidableEq W] in
/-- An extrinsic that may be included. -/
theorem accounted_extend (accounted : Accounted (S := S) (g := g) h sys) {x : Extrinsic AccountId}
    (admitted : admits S.held sys.submitted x = true) :
    Accounted (S := S) (g := g) (h ++ [.included x])
      { sys with state := ((dispatch S.trait x).run sys.state).after } where
  lawful := by
    apply accounted.lawful.concat
    intro a signed held made
    simp only [admits, signed, held, made, Bool.and_true, Bool.not_true, Bool.false_or,
      List.contains_iff_mem] at admitted
    exact accounted.submitted a x.call admitted
  state := by
    rw [included_append, included_cons_included, included_nil, exec_concat, ← accounted.state]
    rfl
  vouched n := (accounted.vouched n).mono (evidence_subset n)
  past n w op p busy := (accounted.past n w op p busy).append
  submitted a call hcall := (accounted.submitted a call hcall).append

theorem accounted_step (hss58 : ∀ n, Ss58Text (S.hosts n).formats.text)
    (accounted : Accounted (S := S) (g := g) h sys) (m : Move N W AccountId Public) :
    Accounted (S := S) (g := g) (h ++ (fire (step S) sys m).outcome.log)
      (fire (step S) sys m).after := by
  cases m with
  | extend x =>
      by_cases admitted : admits S.held sys.submitted x = true
      · simpa [fire, Transition.after, Dispatch.run, step, admitted] using
          accounted_extend accounted admitted
      · simpa [fire, Transition.after, Dispatch.run, step, admitted] using accounted
  | start n w blockNumber =>
      apply accounted_nodeTurn hss58 accounted n
      intro w' op began
      cases began
      exact ⟨included h, List.prefix_rfl, accounted.state⟩
  | go n w world =>
      apply accounted_nodeTurn hss58 accounted n
      intro w' op began
      cases began

/-- A node's storage that remembers nothing yet. -/
def Blank (text : AccountId32 → String) (store : LocalStorage) : Prop :=
  stored store = [] ∧
    ∀ account, (store.find (clientKey (text account))).bind
      (Codec.decode : Bytes → Option DelegateInfo) = none

/-- What is taken for granted of the nodes at the beginning. -/
structure Deployed (S : Setup N AccountId Ledger Public) (stores : N → LocalStorage) : Prop where
  ss58 : ∀ n, Ss58Text (S.hosts n).formats.text
  blank : ∀ n, Blank (S.hosts n).formats.text (stores n)

/-- Everything that happens when the moves are made from the start. -/
def chronicle (S : Setup N AccountId Ledger Public) (g : State AccountId Ledger)
    (stores : N → LocalStorage) (ms : List (Move N W AccountId Public)) :
    List (Happening N AccountId Ledger Public) :=
  happened (exec (step S) (System.start g stores) ms).transitions

/-- The chain as it is after what happened. -/
def chain (S : Setup N AccountId Ledger Public) (g : State AccountId Ledger)
    (h : List (Happening N AccountId Ledger Public)) :
    Run (State AccountId Ledger) (Extrinsic AccountId) (Observation AccountId) DispatchError :=
  exec (dispatch S.trait) g (included h)

theorem accounted_run {stores : N → LocalStorage} (deployed : Deployed S stores)
    (ms : List (Move N W AccountId Public)) :
    Accounted (S := S) (g := g) (chronicle S g stores ms)
      (exec (step S) (System.start g stores) ms).final := by
  apply exec_history (step S) (P := fun ts sys => Accounted (S := S) (g := g) (happened ts) sys)
  · constructor
    · intro h₁ what h₂ hsplit
      simp [happened] at hsplit
    · rfl
    · intro n
      obtain ⟨results, credentials⟩ := deployed.blank n
      exact .start ⟨by simp [results], by simp [credentials]⟩
    · intro n w op p busy
      simp [System.start, Node.start] at busy
    · intro a call hcall
      cases hcall
  · intro ts sys m accounted
    have stepped := accounted_step deployed.ss58 accounted m
    simpa [happened] using stepped

/-- The chain of a run is the one that its state is at. -/
theorem state_run {stores : N → LocalStorage} (deployed : Deployed S stores)
    (ms : List (Move N W AccountId Public)) :
    (exec (step S) (System.start g stores) ms).final.state =
      (chain S g (chronicle S g stores ms)).final :=
  (accounted_run deployed ms).state

end Runs

/-! ## One node -/

/-- Bob and Charlie, and nobody else, are operated by a node. -/
def oneNode : Setup Unit AccountId32 Balances AccountId32 where
  trait := runtime
  hosts _ := bobsNode
  held a := a = bob || a = charlie

theorem oneNode_deployed : Deployed oneNode fun _ => .empty where
  ss58 _ := ss58Text_ss58
  blank _ := ⟨rfl, fun _ => rfl⟩

/-- The worker of a block is started, and takes its turns until it has returned. -/
def wholeRound (b : BlockNumber) : List (Move Unit Unit AccountId32 AccountId32) :=
  .start () () b :: List.replicate 16 (.go () () reachable)

def secondBlock : Env := ⟨2, List.replicate 32 0, some 0⟩

def bobsTask : ErrandId := generateErrandId runtime secondBlock bob

/-- Bob applies, and is asked. -/
def bobAsked : List (Move Unit Unit AccountId32 AccountId32) :=
  .extend (submit 0 bob (.requestDelegate [1] [9])) :: wholeRound 1

def bobActivates : Extrinsic AccountId32 := submit 1 bob (.updateDelegateStatus bob)

def bobServes : List (Move Unit Unit AccountId32 AccountId32) := bobAsked ++ [.extend bobActivates]

/-- Alice begins a task that is sent to Bob. -/
def taskSent : List (Move Unit Unit AccountId32 AccountId32) :=
  bobServes ++ .extend ⟨secondBlock, .signed alice, .beginTask [1] [10] 5⟩ :: wholeRound 2

def bobOpens : Extrinsic AccountId32 := submit 2 bob (.initErrand alice bobsTask [10])

def bobsErrand : List (Move Unit Unit AccountId32 AccountId32) := taskSent ++ [.extend bobOpens]

/-- The result is asked for and submitted. -/
def bobsResult : List (Move Unit Unit AccountId32 AccountId32) :=
  bobsErrand ++ wholeRound 10 ++ [.extend (submit 3 bob (.updateErrand [10] [42])),
    .extend (submit 4 charlie (.updateErrand [10] [42]))]

abbrev oneNodeGenesis : State AccountId32 Balances := genesis false [bob, charlie] endowed

abbrev oneNodeHistory (ms : List (Move Unit Unit AccountId32 AccountId32)) :
    List (Happening Unit AccountId32 Balances AccountId32) :=
  chronicle oneNode oneNodeGenesis (fun _ => .empty) ms

/-! ## What the nodes do -/

end AbcDemo.Network
