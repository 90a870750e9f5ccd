import AbcDemo.Foundation.Ss58
import AbcDemo.Pallet.Runtime
import AbcDemo.Offchain.DelegateInfo
import AbcDemo.Offchain.Handoff

/-! # Delegate credentials

The cells of an account are told from those of the others by its text, which is
injective, and from the cells of the task results by a letter of the prefix.
That the prefix of the data cells is a prefix of the prefix of the lock cells
does no harm, because no text contains the dash that would have to follow. So
whatever is completed in between, an account loads what was last saved for it.
-/

namespace AbcDemo.Offchain

open Foundation Pallet

/-! ## The key space -/

/-- What is relied on of the text of an account. -/
structure Ss58Text (text : AccountId32 → String) : Prop where
  injective : Function.Injective text
  base58 : ∀ account, ∀ c ∈ (text account).toList, c ∈ base58Alphabet

def clientCells (client : String) : List Bytes := [clientKey client, clientLock client]

def tasksResultsCells : List Bytes := [tasksResultsKey, tasksResultsLock]

/-- A data cell that is a lock cell belongs to a client that begins as a lock does. -/
theorem clientKey_ne_clientLock {client : String} (noDash : '-' ∉ client.toList)
    (client' : String) : clientKey client ≠ clientLock client' := by
  intro h
  have longer : clientLockPrefix = clientKeyPrefix ++ "lock-" := by decide
  unfold clientKey clientLock at h
  rw [longer, String.append_assoc] at h
  rw [asBytes_append_cancel h, String.toList_append] at noDash
  simp at noDash

/-- The letter behind `local-storage::` tells the clients from the task results. -/
theorem clientCells_letter (client : String) :
    ∀ key ∈ clientCells client, key[15]? = some 'c'.toUInt8 := by
  have letter : (asBytes clientKeyPrefix)[15]? = some 'c'.toUInt8 ∧
      (asBytes clientLockPrefix)[15]? = some 'c'.toUInt8 := by
    decide
  have long : 15 < (asBytes clientKeyPrefix).length ∧ 15 < (asBytes clientLockPrefix).length := by
    decide
  intro key hkey
  simp only [clientCells, List.mem_cons, List.not_mem_nil, or_false] at hkey
  rcases hkey with rfl | rfl
  · rw [clientKey, asBytes_append, List.getElem?_append_left long.1, letter.1]
  · rw [clientLock, asBytes_append, List.getElem?_append_left long.2, letter.2]

theorem tasksResultsCells_letter : ∀ key ∈ tasksResultsCells, key[15]? = some 't'.toUInt8 := by
  decide

theorem clientCells_disjoint_tasksResults (client : String) :
    (clientCells client).Disjoint tasksResultsCells := by
  intro key hclient htasks
  have letter := (clientCells_letter client key hclient).symm.trans
    (tasksResultsCells_letter key htasks)
  exact absurd letter (by decide)

section Accounts

variable {text : AccountId32 → String} (hss58 : Ss58Text text)
include hss58

theorem Ss58Text.noDash (account : AccountId32) : '-' ∉ (text account).toList := by
  intro dash
  have absent : '-' ∉ base58Alphabet := by decide
  exact absent (hss58.base58 account '-' dash)

theorem Ss58Text.clientKey_ne_clientLock (a b : AccountId32) :
    clientKey (text a) ≠ clientLock (text b) :=
  Offchain.clientKey_ne_clientLock (hss58.noDash a) (text b)

theorem Ss58Text.clientKey_eq_iff (a b : AccountId32) :
    clientKey (text a) = clientKey (text b) ↔ a = b :=
  ⟨fun h => hss58.injective (asBytes_append_cancel h), fun h => h ▸ rfl⟩

theorem Ss58Text.clientLock_eq_iff (a b : AccountId32) :
    clientLock (text a) = clientLock (text b) ↔ a = b :=
  ⟨fun h => hss58.injective (asBytes_append_cancel h), fun h => h ▸ rfl⟩

theorem Ss58Text.clientCells_disjoint {a b : AccountId32} (hne : a ≠ b) :
    (clientCells (text a)).Disjoint (clientCells (text b)) := by
  have crossed := (hss58.clientKey_ne_clientLock a b).symm
  simp [clientCells, hss58.clientKey_eq_iff, hss58.clientLock_eq_iff, hne.symm, crossed,
    hss58.clientKey_ne_clientLock b a]

end Accounts

/-! ## The jobs on the task results keep to their cells -/

section Jobs

variable {AccountId : Type} [Codec (List ResultEntry)]

theorem writesOnly_appendResult (descriptionCid : Cid) (resultInfo : ErrandResultInfo) :
    (appendResult descriptionCid resultInfo ⟨tasksResultsKey⟩ :
      WorkerM AccountId Unit).WritesOnly (· ∈ tasksResultsCells) := by
  have key : tasksResultsKey ∈ tasksResultsCells := List.mem_cons_self
  unfold appendResult
  apply (Program.writesOnly_get ⟨tasksResultsKey⟩).bind
  intro value
  split
  · exact Program.writesOnly_set ⟨tasksResultsKey⟩ key _
  · exact Program.writesOnly_set ⟨tasksResultsKey⟩ key _

theorem writesOnly_submitResults :
    (submitResults ⟨tasksResultsKey⟩ : WorkerM AccountId Unit).WritesOnly
      (· ∈ tasksResultsCells) := by
  have key : tasksResultsKey ∈ tasksResultsCells := List.mem_cons_self
  have submitted : ∀ item : ResultEntry,
      (updateSingleErrand item.2.resultCid item.1 : WorkerM AccountId Unit).WritesOnly
        (· ∈ tasksResultsCells) :=
    fun _ _ => trivial
  unfold submitResults
  apply (Program.writesOnly_get ⟨tasksResultsKey⟩).bind
  intro value
  split
  · apply (Program.writesOnly_forM submitted _).bind
    exact fun _ => Program.writesOnly_set ⟨tasksResultsKey⟩ key _
  · trivial

theorem writesOnly_job (work : Job) :
    (work.program : WorkerM AccountId Unit).WritesOnly (· ∈ tasksResultsCells) := by
  have lock : tasksResultsLock ∈ tasksResultsCells := by simp [tasksResultsCells]
  cases work with
  | fetch descriptionCid response =>
      cases response with
      | none => trivial
      | some resultInfo =>
          by_cases completed : resultInfo.completed = true
          · simp only [Job.program, fetchErrandResultInfo, completed, operateLocalStorage, ne_eq,
              not_true_eq_false, ↓reduceIte, Program.bind_assoc]
            apply (writesOnly_underLock lock _ _ (writesOnly_appendResult _ _)).bind
            exact fun _ => trivial
          · simp [Job.program, fetchErrandResultInfo, completed, Program.WritesOnly]
  | load => exact writesOnly_underLock lock _ _ writesOnly_submitResults

end Jobs

/-! ## What one operation leaves in the cells -/

section Steps

variable {AccountId World : Type} [Codec DelegateInfo]
  (respond : ∀ _ : Call AccountId, World → SendResult AccountId × World)

theorem run_saveDelegateInfo {client : String} (info : DelegateInfo) {s : LocalStorage × World}
    (free : LockFree (s.1.find (clientLock client))) :
    ((saveDelegateInfo client info).alone respond).run s =
      ⟨.ok (), (((s.1.insert (clientLock client) (Codec.encode true)).insert (clientKey client)
          (Codec.encode info)).insert (clientLock client) (Codec.encode false), s.2),
        [.swapped (clientLock client) (Codec.encode true),
          .wrote (clientKey client) (Codec.encode info),
          .wrote (clientLock client) (Codec.encode false)]⟩ := by
  unfold saveDelegateInfo operateLocalStorage StorageValueRef.set
  rw [run_underLock respond _ _ _ free]
  simp

/-- A load reads the data cell, and the byte of the lock is not in it. -/
theorem run_loadDelegateInfo {client : String} (own : clientKey client ≠ clientLock client)
    {s : LocalStorage × World} (free : LockFree (s.1.find (clientLock client))) :
    ((loadDelegateInfo client).alone respond).run s =
      ⟨((s.1.find (clientKey client)).bind Codec.decode).elim (.error (.missing client)) .ok,
        ((s.1.insert (clientLock client) (Codec.encode true)).insert (clientLock client)
          (Codec.encode false), s.2),
        [.swapped (clientLock client) (Codec.encode true),
          .wrote (clientLock client) (Codec.encode false)]⟩ := by
  unfold loadDelegateInfo operateLocalStorage StorageValueRef.get
  rw [Program.run_alone_bind, Program.run_alone_attempt, run_underLock respond _ _ _ free]
  cases hdata : s.1.find (clientKey client) with
  | none => simp [own, hdata]
  | some cell =>
      cases hinfo : (Codec.decode cell : Option DelegateInfo) <;> simp [own, hdata, hinfo]

/-- Every account has its saved info in its data cell, and its lock is free. -/
structure Keeps (text : AccountId32 → String) (saved : AccountId32 → Option DelegateInfo)
    (store : LocalStorage) : Prop where
  data : ∀ a, store.find (clientKey (text a)) = (saved a).map Codec.encode
  free : ∀ a, LockFree (store.find (clientLock (text a)))

variable {text : AccountId32 → String} {saved : AccountId32 → Option DelegateInfo}
  {s : LocalStorage × World}

theorem Keeps.save (keeps : Keeps text saved s.1) (hss58 : Ss58Text text)
    (account : AccountId32) (info : DelegateInfo) :
    Keeps text (fun a => if account = a then some info else saved a)
      (((saveDelegateInfo (text account) info).alone respond).run s).after.1 := by
  have crossed := fun a => (hss58.clientKey_ne_clientLock account a).symm
  rw [run_saveDelegateInfo respond info (keeps.free account)]
  constructor
  · intro a
    by_cases ha : a = account
    · simp [ha, hss58.clientKey_ne_clientLock]
    · simp [ha, Ne.symm ha, hss58.clientKey_ne_clientLock, hss58.clientKey_eq_iff, keeps.data a]
  · intro a
    by_cases ha : a = account
    · simpa [ha] using lockFree_false
    · simpa [ha, hss58.clientLock_eq_iff, crossed] using keeps.free a

theorem Keeps.load (keeps : Keeps text saved s.1) (hss58 : Ss58Text text)
    (account : AccountId32) :
    Keeps text saved (((loadDelegateInfo (text account)).alone respond).run s).after.1 := by
  have own := hss58.clientKey_ne_clientLock account account
  rw [run_loadDelegateInfo respond own (keeps.free account)]
  constructor
  · intro a
    simp [hss58.clientKey_ne_clientLock, keeps.data a]
  · intro a
    by_cases ha : a = account
    · simpa [ha] using lockFree_false
    · simpa [ha, hss58.clientLock_eq_iff] using keeps.free a

/-- From a store that keeps the infos, a load returns what is saved. -/
theorem Keeps.result_load (keeps : Keeps text saved s.1) (hss58 : Ss58Text text)
    (c : AccountId32) :
    (((loadDelegateInfo (text c)).alone respond).run s).result =
      (saved c).elim (.error (.missing (text c))) .ok := by
  have own := hss58.clientKey_ne_clientLock c c
  rw [run_loadDelegateInfo respond own (keeps.free c), keeps.data c]
  cases saved c <;> simp

variable [Codec (List ResultEntry)]

theorem Keeps.job (keeps : Keeps text saved s.1) (work : Job) :
    Keeps text saved ((work.program.alone respond).run s).after.1 := by
  have kept : ∀ client, ∀ key ∈ clientCells client,
      ((work.program.alone respond).run s).after.1.find key = s.1.find key := by
    intro client key hkey
    apply Program.find_alone_of_writesOnly respond (writesOnly_job work)
    exact fun htasks => clientCells_disjoint_tasksResults client hkey htasks
  constructor
  · intro a
    rw [kept (text a) _ (by simp [clientCells])]
    exact keeps.data a
  · intro a
    rw [kept (text a) _ (by simp [clientCells])]
    exact keeps.free a

/-- One operation from its begin to its end, with nobody in between. -/
def complete (text : AccountId32 → String) (op : Operation) :
    Dispatch (LocalStorage × World) (Access (Call AccountId)) Empty Unit :=
  (op.program text).alone respond

theorem Keeps.complete (keeps : Keeps text saved s.1) (hss58 : Ss58Text text) (op : Operation) :
    Keeps text (fun a => (op.savedFor a).or (saved a))
      ((complete respond text op).run s).after.1 := by
  unfold Offchain.complete
  cases op with
  | save account info =>
      have same : (fun a => ((Operation.save account info).savedFor a).or (saved a)) =
          fun a => if account = a then some info else saved a := by
        funext a
        by_cases ha : account = a <;> simp [Operation.savedFor, ha]
      rw [same, Operation.program, Program.run_alone_discard]
      exact keeps.save respond hss58 account info
  | load account =>
      rw [Operation.program, Program.run_alone_discard]
      exact keeps.load respond hss58 account
  | job work =>
      rw [Operation.program, Program.run_alone_discard]
      exact keeps.job respond work

end Steps

/-! ## Any sequence of operations -/

section Runs

variable {AccountId World : Type} [Codec DelegateInfo] [Codec (List ResultEntry)]
  (respond : ∀ _ : Call AccountId, World → SendResult AccountId × World)
  {text : AccountId32 → String} {store : LocalStorage}

/-- No account has an info yet, and no lock of an account is held. -/
def Fresh (text : AccountId32 → String) (store : LocalStorage) : Prop :=
  ∀ a, store.find (clientKey (text a)) = none ∧ LockFree (store.find (clientLock (text a)))

theorem exec_keeps (hss58 : Ss58Text text) (fresh : Fresh text store) (world : World)
    (ops : List Operation) :
    Keeps text (fun a => lastSaved a ops)
      (exec (complete respond text) (store, world) ops).final.1 := by
  induction ops using List.reverseRecOn with
  | nil => exact ⟨fun a => (fresh a).1, fun a => (fresh a).2⟩
  | append_singleton ops op ih =>
      have keeps := ih.complete respond hss58 op
      simpa [exec_concat, fire, Transition.after, lastSaved] using keeps

/-- A load returns the info that was last saved for the account, whatever else
was completed since, and no cell of an account is one of another account or of
the task results. -/
theorem load_returns_last_saved (hss58 : Ss58Text text) (fresh : Fresh text store) (world : World)
    (ops : List Operation) :
    let s := (exec (complete respond text) (store, world) ops).final
    (∀ c, (((loadDelegateInfo (text c)).alone respond).run s).result =
        (lastSaved c ops).elim (.error (.missing (text c))) .ok) ∧
      (∀ a b, a ≠ b → (clientCells (text a)).Disjoint (clientCells (text b))) ∧
      ∀ a, (clientCells (text a)).Disjoint tasksResultsCells := by
  intro s
  have keeps := exec_keeps respond hss58 fresh world ops
  exact ⟨fun c => keeps.result_load respond hss58 c, fun a b => hss58.clientCells_disjoint,
    fun a => clientCells_disjoint_tasksResults (text a)⟩

/-- The operations may also be the turns of one worker. -/
theorem load_after_turns {W : Type} [DecidableEq W] (hss58 : Ss58Text text)
    (fresh : Fresh text store) (world : World) (w : W) (ops : List Operation) :
    ∃ (m : Node W Operation (Call AccountId) (fun _ => SendResult AccountId) Empty)
      (h : List (LogEntry W Operation (Call AccountId))),
      Reaches (Operation.program text) w (Node.start store) m h ∧ m.idle w = true ∧
        ∀ c, (((loadDelegateInfo (text c)).alone respond).run (m.store, world)).result =
          (lastSaved c ops).elim (.error (.missing (text c))) .ok := by
  have idle : (Node.start store : Node W Operation (Call AccountId)
      (fun _ => SendResult AccountId) Empty).idle w = true := rfl
  obtain ⟨m, reached, stored, still⟩ :=
    finishes_exec (Operation.program text) respond idle ops world
  have keeps := exec_keeps respond hss58 fresh world ops
  refine ⟨m, _, reached, still, fun c => ?_⟩
  apply Keeps.result_load respond _ hss58
  rw [stored]
  exact keeps

end Runs

/-! ## The texts of the network -/

theorem ss58Text_ss58 : Ss58Text (ss58 42) where
  injective := ss58_injective 42
  base58 _ _ hc := mem_alphabet_of_mem_base58 hc

instance : Codec DelegateInfo := PrefixCodec.codec

def answered (sig : UInt8) : DelegateInfo := ⟨[1], [2], [sig], "rsa"⟩

/-- Alice is saved twice, with the infos of Bob and the task results in between. -/
def savedTwice : List Operation :=
  [.save alice (answered 7), .job (.fetch [10] (some ⟨true, [42], 0⟩)), .save bob (answered 8),
    .load alice, .job .load, .save alice (answered 9), .load charlie]

theorem load_returns_last_saved_savedTwice :
    let respond := fun (_ : Call AccountId32) (world : Nat) => ([], world + 1)
    let s := (exec (complete respond (ss58 42)) (.empty, 0) savedTwice).final
    let result := fun c => (((loadDelegateInfo (ss58 42 c)).alone respond).run s).result
    result alice = .ok (answered 9) ∧ result bob = .ok (answered 8) ∧
      result charlie = .error (.missing (ss58 42 charlie)) := by
  intro respond s result
  have fresh : Fresh (ss58 42) .empty := fun a => ⟨rfl, lockFree_none⟩
  have loads := (load_returns_last_saved respond ss58Text_ss58 fresh 0 savedTwice).1
  have saved : lastSaved alice savedTwice = some (answered 9) ∧
      lastSaved bob savedTwice = some (answered 8) ∧ lastSaved charlie savedTwice = none := by
    decide
  refine ⟨(loads alice).trans ?_, (loads bob).trans ?_, (loads charlie).trans ?_⟩
  · rw [saved.1, Option.elim_some]
  · rw [saved.2.1, Option.elim_some]
  · rw [saved.2.2, Option.elim_none]

end AbcDemo.Offchain
