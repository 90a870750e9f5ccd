import AbcDemo.Foundation.Monitor
import AbcDemo.Offchain.Handoff
import AbcDemo.Worker.Obedience

/-! # The locks of a whole worker

A worker takes the lock of the task results and those of its delegates' infos
between posts and submissions, and never two at a time. What it does outside a
lock does not touch what the lock protects, so what holds of single jobs holds
of whole workers: each result that is appended is handed over once, and no lock
is left behind.
-/

namespace AbcDemo.Worker

open Foundation Pallet Offchain

variable {W AccountId Ledger Public V ε ε' : Type}

/-! ## Taking a lock -/

/-- Whether a lock is held is told from what a worker makes of its cell. -/
structure Latch (Held : Option Bytes → Prop) : Prop where
  vacant : ∀ {cell : Option Bytes} {locked : TaskError},
    ifFree locked (cell.map Codec.decode) = .ok true → ¬ Held cell
  taken : Held (some (Codec.encode true))
  left : ¬ Held (some (Codec.encode false))

theorem latch_lockHeld : Latch LockHeld where
  vacant {cell locked} free held := by
    unfold LockHeld at held
    rw [held] at free
    cases free
  taken := by simp [LockHeld]
  left := by simp [LockHeld]

theorem latch_lockFree : Latch fun cell => ¬ LockFree cell where
  vacant {cell locked} free taken := by
    refine taken fun other => ?_
    rcases hcell : cell.map Codec.decode with _ | _ | _ | _ <;>
      first | rfl | (rw [hcell] at free; cases free)
  taken free := by simpa [ifFree] using free .response
  left taken := taken lockFree_false

section UnderLock

variable {M : Monitor W (Round AccountId Ledger) (Request AccountId Public) V} {w : W}
  {op : Round AccountId Ledger} {R : Type} {lockKey : Bytes} {locked failed : TaskError}
  {body : WorkerM AccountId R}
  {handler : ∀ _ : Call AccountId, NodeM AccountId Public ε (SendResult AccountId)}
  {onError : TaskError → ε}

/-- Another lock may be taken, around anything that may be done without this one. -/
theorem outside_underLock_other (other : lockKey ≠ M.lock)
    (silent : ∀ value, M.Silent w op (.swapped lockKey value) ∧
      M.Silent w op (.wrote lockKey value))
    (hbody : M.Outside w op (body.translate handler onError)) :
    M.Outside w op ((underLock lockKey locked failed body).translate handler onError) := by
  unfold underLock
  rw [Program.translate_bind]
  apply Monitor.Outside.bind
  · unfold StorageValueRef.mutate
    simp only [Program.translate]
    intro value
    dsimp only
    split
    · trivial
    · refine ⟨?_, trivial⟩
      rw [if_neg other]
      exact ⟨(silent _).1, trivial⟩
  · intro result
    split
    · rw [Program.translate_bind]
      apply hbody.bind
      intro rtn
      exact ⟨other, (silent _).2, trivial⟩
    · trivial

/-- The lock may be taken around what restores the invariant. -/
theorem outside_underLock_self (latch : Latch M.Held)
    (hbody : ∀ v, M.Inv v →
      M.Within w op (fun _ v' => M.Inv v') (body.translate handler onError) v) :
    M.Outside w op ((underLock M.lock locked failed body).translate handler onError) := by
  have acquired : ∀ v, M.Inv v →
      M.Inside w op ((body >>= fun rtn => StorageValueRef.set ⟨M.lock⟩ false >>= fun _ =>
        pure rtn).translate handler onError) v := by
    intro v inv
    rw [Program.translate_bind]
    apply Monitor.Inside.after
    apply (hbody v inv).weaken
    intro rtn v' inv'
    show M.Inside w op (.set M.lock (Codec.encode false) (.done rtn)) v'
    unfold Monitor.Inside
    rw [if_pos rfl]
    exact ⟨latch.left, inv', trivial⟩
  unfold underLock StorageValueRef.mutate
  simp only [Program.get_bind, Program.translate, Monitor.Outside]
  intro value
  have vacant := @latch.vacant value locked
  rcases hcell : value.map Codec.decode with _ | _ | _ | _
  · rw [hcell] at vacant
    simpa [ifFree, Program.translate, Monitor.Outside, vacant rfl, latch.taken] using acquired
  · trivial
  · rw [hcell] at vacant
    simpa [ifFree, Program.translate, Monitor.Outside, vacant rfl, latch.taken] using acquired
  · trivial

end UnderLock

/-! ## The business of a worker -/

section Walk

variable {M : Monitor W (Round AccountId Ledger) (Request AccountId Public) V} {w : W}
  {op : Round AccountId Ledger} {H : Host AccountId Public}

/-- The call carries a result. -/
def reports : Call AccountId → Bool
  | .updateErrand _ _ => true
  | _ => false

/-- What is asked of the outside world does not count, results apart. -/
structure Overhears (M : Monitor W (Round AccountId Ledger) (Request AccountId Public) V)
    (w : W) (op : Round AccountId Ledger) : Prop where
  posts : ∀ url, M.Silent w op (.asked (.httpPost url))
  repayments : ∀ who value, M.Silent w op (.asked (.unreserve who value))
  submissions : ∀ signer key call, reports call = false →
    M.Silent w op (.asked (.submit signer key call))

theorem outside_sendSignedTransaction {signer : List (AccountId × Public)} {call : Call AccountId}
    (silent : ∀ signer key, M.Silent w op (.asked (.submit signer key call))) :
    M.Outside w op (sendSignedTransaction signer call : NodeM AccountId Public ε _) := by
  induction signer with
  | nil => trivial
  | cons key signer ih => exact ⟨silent key.1 key.2, fun sent => ih.bind fun rest => trivial⟩

theorem outside_ofExcept {α : Type} (x : Except ε α) :
    M.Outside w op (.ofExcept x : NodeM AccountId Public ε α) := by
  cases x <;> trivial

theorem outside_fromUtf8OrFail (bytes : Bytes) :
    M.Outside w op (fromUtf8OrFail bytes : NodeM AccountId Public AnyError String) := by
  unfold fromUtf8OrFail
  split <;> trivial

theorem outside_httpPost (overhears : Overhears M w op) (F : Formats) (url : String) :
    M.Outside w op (httpPost F url : NodeM AccountId Public AnyError Bytes) :=
  ⟨overhears.posts url, fun outcome => outside_ofExcept (readOutcome F outcome)⟩

variable [Codec (List ResultEntry)] [Codec DelegateInfo]

/-- Each use that a worker makes of a lock keeps the monitor's protocol. -/
structure Locks (M : Monitor W (Round AccountId Ledger) (Request AccountId Public) V) (w : W)
    (op : Round AccountId Ledger) (H : Host AccountId Public) : Prop where
  overhears : Overhears M w op
  save : ∀ account info, M.Outside w op
    (onStorage .storage (saveDelegateInfo (H.formats.text account) info) :
      NodeM AccountId Public AnyError Unit)
  load : ∀ account, M.Outside w op
    (onStorage .load (loadDelegateInfo (H.formats.text account)) :
      NodeM AccountId Public AnyError DelegateInfo)
  append : ∀ cid info, M.Outside w op
    (onStorage .storage (operateLocalStorage tasksResultsKey tasksResultsLock
      (appendResult cid info)) : NodeM AccountId Public AnyError Unit)
  submit : M.Outside w op
    (loadTasksResultsInfo.translate (sendSignedTransaction H.accounts) id :
      NodeM AccountId Public TaskError Unit)

omit [Codec (List ResultEntry)] in
theorem outside_loadDelegateInfo {client : String}
    (read : M.Outside w op ((operateLocalStorage (clientKey client) (clientLock client)
      fun valueRef => valueRef.get DelegateInfo).translate
        (fun _ => (pure [] : NodeM AccountId Public TaskError (SendResult AccountId))) id)) :
    M.Outside w op
      (onStorage .load (loadDelegateInfo client) : NodeM AccountId Public AnyError _) := by
  unfold onStorage loadDelegateInfo
  rw [Program.translate_bind, Program.translate_attempt]
  apply read.attempt.bind
  intro result
  split <;> trivial

theorem outside_requestSingleDelegate (locks : Locks M w op H) (account : AccountId32)
    (netAddress : NetAddress) :
    M.Outside w op (requestSingleDelegate H.formats account netAddress :
      NodeM AccountId Public ε Bool) := by
  rw [requestSingleDelegate_eq]
  split
  · trivial
  · apply (outside_httpPost locks.overhears _ _).attempt.bind
    intro answer
    unfold keepDelegateInfo
    split
    · trivial
    · rename_i resp
      have parses : M.Outside w op
          (parseDelegateResponse H.formats resp (H.formats.text account)) := by
        apply (outside_fromUtf8OrFail resp).bind
        intro text
        apply (outside_ofExcept _).bind
        exact fun info => locks.save account info
      apply parses.attempt.bind
      intro result
      split <;> trivial

theorem outside_fetchErrandResultInfo (locks : Locks M w op H) (errandId : ErrandId) (cid : Cid)
    (netAddress : NetAddress) :
    M.Outside w op (fetchErrandResultInfo H.formats errandId cid netAddress) := by
  have post : M.Outside w op (httpQueryTaskResult H.formats errandId netAddress) := by
    rw [httpQueryTaskResult_eq]
    split
    · exact outside_httpPost locks.overhears _ _
    · trivial
  apply post.bind
  intro resp
  apply (outside_fromUtf8OrFail resp).bind
  intro text
  apply (outside_ofExcept _).bind
  intro info
  unfold onStorage Offchain.fetchErrandResultInfo
  dsimp only
  split
  · trivial
  · rw [Program.translate_bind]
    exact (locks.append cid info).bind fun _ => trivial

theorem outside_sendTaskToTeaNetwork (locks : Locks M w op H) (account : AccountId32) (cid : Cid)
    (errandId : ErrandId) (netAddress : NetAddress) :
    M.Outside w op (sendTaskToTeaNetwork H.formats account cid errandId netAddress :
      NodeM AccountId Public ε Bool) := by
  have sends : M.Outside w op
      (sendTaskInternal H.formats (H.formats.text account) cid errandId netAddress) := by
    rw [sendTaskInternal_eq]
    apply (locks.load account).bind
    intro info
    split
    · apply (outside_httpPost locks.overhears _ _).bind
      intro resp
      exact (outside_fromUtf8OrFail resp).bind fun _ => trivial
    · trivial
  apply sends.attempt.bind
  intro result
  split <;> trivial

variable [Inhabited AccountId] [Codec AccountId] [DecidableEq AccountId]

omit [Inhabited AccountId] in
theorem outside_applyDelegates (locks : Locks M w op H) (s : State AccountId Ledger)
    (b : BlockNumber) :
    M.Outside w op (applyDelegates H s b : NodeM AccountId Public ε Unit) := by
  unfold applyDelegates
  split
  · trivial
  · split
    · trivial
    · apply Monitor.outside_forM
      intro acc _
      unfold applyDelegate
      split
      · trivial
      · apply Monitor.Outside.bind
        · unfold applySingleDelegate
          dsimp only
          split
          · trivial
          · apply (outside_requestSingleDelegate locks _ _).bind
            intro granted
            cases granted <;> trivial
        · intro result
          split
          · apply (outside_sendSignedTransaction fun signer key => ?_).bind
            · exact fun _ => trivial
            · exact locks.overhears.submissions signer key _ rfl
          · apply (outside_sendSignedTransaction fun signer key => ?_).bind
            · exact fun _ => trivial
            · exact locks.overhears.submissions signer key _ rfl

omit [Codec (List ResultEntry)] [Codec DelegateInfo] [Inhabited AccountId]
  [DecidableEq AccountId] in
theorem outside_submitTask (overhears : Overhears M w op) (signer : List (AccountId × Public))
    (fee : UInt32) (item : TaskInfo) :
    M.Outside w op (submitTask signer fee item : NodeM AccountId Public ε Unit) := by
  unfold submitTask
  split
  · unfold initSingleErrandTask
    rw [Program.bind_assoc]
    apply (outside_sendSignedTransaction fun signer key => ?_).bind
    · intro result
      rw [Program.pure_eq, Program.done_bind]
      split
      · exact ⟨overhears.repayments _ _, fun _ => trivial⟩
      · trivial
    · exact overhears.submissions signer key _ rfl
  · trivial

theorem outside_sendErrandTasks (locks : Locks M w op H) (s : State AccountId Ledger)
    (b : BlockNumber) : M.Outside w op (sendErrandTasks H s b) := by
  unfold sendErrandTasks
  split
  · trivial
  · split
    · trivial
    · apply Monitor.outside_forM
      intro item _
      unfold sendErrandTask
      split
      · trivial
      · split
        · dsimp only
          split
          · trivial
          · unfold sendAndSubmit
            split
            · apply (outside_sendTaskToTeaNetwork locks _ _ _ _).bind
              intro sent
              cases sent with
              | false => exact ⟨locks.overhears.repayments _ _, fun _ => trivial⟩
              | true => exact outside_submitTask locks.overhears _ _ _
            · exact outside_submitTask locks.overhears _ _ _
        · trivial

omit [DecidableEq AccountId] in
theorem outside_queryErrandTaskResults (locks : Locks M w op H) (s : State AccountId Ledger)
    (b : BlockNumber) :
    M.Outside w op (queryErrandTaskResults H s b : NodeM AccountId Public ε Unit) := by
  unfold queryErrandTaskResults
  split
  · trivial
  · split
    · trivial
    · split
      · trivial
      · apply Monitor.outside_forM
        intro item _
        unfold queryErrandTaskResult
        split
        · split
          · unfold fetchSingleTaskResult
            rw [Program.bind_assoc]
            apply (outside_fetchErrandResultInfo locks _ _ _).attempt.bind
            intro result
            cases result <;> trivial
          · trivial
        · trivial

/-- A worker keeps the protocol of a monitor if each of its sections under a lock does. -/
theorem outside_offchainWorker (locks : Locks M w op H) (s : State AccountId Ledger)
    (b : BlockNumber) : M.Outside w op (offchainWorker H s b) := by
  unfold offchainWorker
  apply (outside_applyDelegates locks s b).bind
  intro _
  apply (outside_sendErrandTasks locks s b).discard.bind
  intro _
  apply (outside_queryErrandTaskResults locks s b).bind
  intro _
  unfold updateErrandTaskResults
  split
  · trivial
  · split
    · trivial
    · exact locks.submit.discard

end Walk

/-! ## The task results -/

section Results

variable {H : Host AccountId Public} [Codec (List ResultEntry)]

/-- The entry that an access appends to the results. Clearing them appends none. -/
def appendedOf (e : LogEntry W (Round AccountId Ledger) (Request AccountId Public)) :
    Option ResultEntry :=
  match e.access with
  | .wrote key value =>
      if key = tasksResultsKey then
        (Codec.decode value : Option (List ResultEntry)).bind List.getLast?
      else none
  | _ => none

/-- The signer and the arguments of a submitted result. -/
def handedOf (e : LogEntry W (Round AccountId Ledger) (Request AccountId Public)) :
    Option (AccountId × Cid × Cid) :=
  match e.access with
  | .asked (.submit signer _ (.updateErrand cid result)) => some (signer, cid, result)
  | _ => none

/-- Every account of the node submits the entry. -/
def Host.handsOver (H : Host AccountId Public) (item : ResultEntry) :
    List (AccountId × Cid × Cid) :=
  H.accounts.map fun key => (key.1, item.1, item.2.resultCid)

structure ResultsView (AccountId : Type) where
  stored : List ResultEntry
  appended : List ResultEntry
  handed : List (AccountId × Cid × Cid)

/-- The entries so far are those handed over, in order, followed by those in the store. -/
def resultsMonitor (W : Type) (Ledger : Type) (H : Host AccountId Public) (store₀ : LocalStorage) :
    Monitor W (Round AccountId Ledger) (Request AccountId Public) (ResultsView AccountId) where
  lock := tasksResultsLock
  Held := LockHeld
  view store h := ⟨stored store, h.filterMap appendedOf, h.filterMap handedOf⟩
  Inv v := ∃ drained, stored store₀ ++ v.appended = drained ++ v.stored ∧
    v.handed = drained.flatMap H.handsOver

variable {store₀ : LocalStorage} {w : W} {op : Round AccountId Ledger}

theorem silent_results_other {key : Bytes} (other : key ≠ tasksResultsKey) (value : Bytes) :
    (resultsMonitor W Ledger H store₀).Silent w op (.swapped key value) ∧
      (resultsMonitor W Ledger H store₀).Silent w op (.wrote key value) := by
  constructor <;> intro store h <;>
    simp [resultsMonitor, Access.apply, stored, appendedOf, handedOf, other, other.symm]

theorem overhears_results : Overhears (resultsMonitor W Ledger H store₀) w op where
  posts url store h := by simp [resultsMonitor, Access.apply, appendedOf, handedOf]
  repayments who value store h := by simp [resultsMonitor, Access.apply, appendedOf, handedOf]
  submissions signer key call silent store h := by
    cases call <;> simp [resultsMonitor, Access.apply, appendedOf, handedOf, reports] at silent ⊢

theorem unnoticed_results : (resultsMonitor W Ledger H store₀).Unnoticed where
  acquired _ _ value := (silent_results_other tasksResultsLock_ne value).1
  released _ _ value := (silent_results_other tasksResultsLock_ne value).2

theorem view_wrote_results (store : LocalStorage)
    (h : List (LogEntry W (Round AccountId Ledger) (Request AccountId Public)))
    (results : List ResultEntry) :
    (resultsMonitor W Ledger H store₀).view (store.insert tasksResultsKey (Codec.encode results))
        (h ++ [⟨w, op, .wrote tasksResultsKey (Codec.encode results)⟩]) =
      ⟨results, h.filterMap appendedOf ++ results.getLast?.toList, h.filterMap handedOf⟩ := by
  cases last : results.getLast? <;>
    simp [resultsMonitor, List.filterMap_append, List.filterMap_cons, appendedOf, handedOf, last]

/-- Appending reads the list and writes it back one entry longer. -/
theorem within_appendResult {v : ResultsView AccountId} {cid : Cid} {info : ErrandResultInfo}
    (inv : (resultsMonitor W Ledger H store₀).Inv v) :
    (resultsMonitor W Ledger H store₀).Within w op
      (fun _ v' => (resultsMonitor W Ledger H store₀).Inv v')
      ((appendResult cid info ⟨tasksResultsKey⟩ : WorkerM AccountId Unit).translate
        (fun _ => (pure [] : NodeM AccountId Public AnyError _)) AnyError.storage) v := by
  obtain ⟨drained, entries, calls⟩ := inv
  have longer : ∀ results, v.stored = results →
      (resultsMonitor W Ledger H store₀).Within w op
        (fun _ v' => (resultsMonitor W Ledger H store₀).Inv v')
        (.set tasksResultsKey (Codec.encode (results ++ [(cid, info)])) (.done ()) :
          NodeM AccountId Public AnyError Unit) v := by
    rintro results rfl
    refine ⟨tasksResultsLock_ne.symm, fun store h seen => ?_⟩
    rw [view_wrote_results]
    subst seen
    refine ⟨drained, ?_, calls⟩
    rw [List.getLast?_concat, ← List.append_assoc, ← List.append_assoc, ← entries]
    rfl
  unfold appendResult
  apply Monitor.within_get
  intro store h seen
  split
  · rename_i results found
    apply longer
    subst seen
    simp [resultsMonitor, stored, found]
  · rename_i absent
    apply longer []
    subst seen
    simp only [resultsMonitor, stored]

/-- Every key submits the entry that is next. -/
theorem within_sendSignedTransaction {v : ResultsView AccountId}
    {signer : List (AccountId × Public)} {cid result : Cid} :
    (resultsMonitor W Ledger H store₀).Within w op
      (fun _ v' => v' =
        { v with handed := v.handed ++ signer.map fun key => (key.1, cid, result) })
      (sendSignedTransaction signer (.updateErrand cid result) : NodeM AccountId Public ε _) v := by
  induction signer generalizing v with
  | nil => simp [sendSignedTransaction, Monitor.Within]
  | cons key signer ih =>
      intro sent store h seen
      subst seen
      show Monitor.Within _ _ _ _ (sendSignedTransaction signer (.updateErrand cid result) >>= _) _
      apply Monitor.Within.bind
      apply ih.weaken
      rintro rest v' rfl
      simp [Monitor.Within, resultsMonitor, appendedOf, handedOf]

theorem within_submitAll {v : ResultsView AccountId} {results : List ResultEntry} :
    (resultsMonitor W Ledger H store₀).Within w op
      (fun _ v' => v' = { v with handed := v.handed ++ results.flatMap H.handsOver })
      (forM results fun item =>
        (updateSingleErrand item.2.resultCid item.1 : WorkerM AccountId Unit).translate
          (sendSignedTransaction H.accounts : _ → NodeM AccountId Public TaskError _) id) v := by
  induction results generalizing v with
  | nil => simp [Monitor.Within]
  | cons item results ih =>
      rw [List.forM_cons]
      apply Monitor.Within.bind
      unfold updateSingleErrand
      rw [Program.translate_bind, Program.translate_request]
      apply Monitor.Within.bind
      apply within_sendSignedTransaction.weaken
      rintro sent v' rfl
      apply ih.weaken
      rintro _ v' rfl
      simp [Host.handsOver]

/-- Submitting hands over everything that is stored, and clears it. -/
theorem within_submitResults {v : ResultsView AccountId}
    (inv : (resultsMonitor W Ledger H store₀).Inv v) :
    (resultsMonitor W Ledger H store₀).Within w op
      (fun _ v' => (resultsMonitor W Ledger H store₀).Inv v')
      ((submitResults ⟨tasksResultsKey⟩ : WorkerM AccountId Unit).translate
        (sendSignedTransaction H.accounts : _ → NodeM AccountId Public TaskError _) id) v := by
  obtain ⟨drained, entries, calls⟩ := inv
  unfold submitResults
  apply Monitor.within_get
  intro store h seen
  split
  · rename_i results found
    have all : v.stored = results := by
      subst seen
      simp [resultsMonitor, stored, found]
    rw [Program.translate_bind, Program.translate_forM]
    apply Monitor.Within.bind
    apply within_submitAll.weaken
    rintro _ v' rfl
    refine ⟨tasksResultsLock_ne.symm, fun store' h' seen' => ?_⟩
    rw [view_wrote_results]
    obtain ⟨appended, handed⟩ : h'.filterMap appendedOf = v.appended ∧
        h'.filterMap handedOf = v.handed ++ results.flatMap H.handsOver := by
      simpa [resultsMonitor] using And.intro (congrArg ResultsView.appended seen')
        (congrArg ResultsView.handed seen')
    refine ⟨drained ++ results, ?_, ?_⟩
    · simp [appended, entries, all]
    · simp [handed, calls]
  · exact ⟨drained, entries, calls⟩

variable [Codec DelegateInfo]

theorem locks_results : Locks (resultsMonitor W Ledger H store₀) w op H where
  overhears := overhears_results
  save account info := by
    apply outside_underLock_other (clientLock_ne_tasksResultsLock _)
    · exact silent_results_other (clientLock_ne_tasksResultsKey _)
    · exact ⟨clientKey_ne_tasksResultsLock _,
        (silent_results_other (clientKey_ne_tasksResultsKey _) _).2, trivial⟩
  load account := by
    apply outside_loadDelegateInfo
    apply outside_underLock_other (clientLock_ne_tasksResultsLock _)
    · exact silent_results_other (clientLock_ne_tasksResultsKey _)
    · exact fun _ => trivial
  append cid info :=
    outside_underLock_self (M := resultsMonitor W Ledger H store₀) latch_lockHeld fun _ =>
      within_appendResult
  submit :=
    outside_underLock_self (M := resultsMonitor W Ledger H store₀) latch_lockHeld fun _ =>
      within_submitResults

variable [DecidableEq W] [Inhabited AccountId] [Codec AccountId] [DecidableEq AccountId]

/-- Whatever else the workers of a node do, each result that one appends is handed over once. -/
theorem worker_handoff (store : LocalStorage)
    (released : ¬ LockHeld (store.find tasksResultsLock))
    (turns : List (Turn W (Round AccountId Ledger) (Request AccountId Public) Reply)) :
    let program := fun op : Round AccountId Ledger => offchainWorker H op.state op.blockNumber
    let n := (exec (turn program) (Node.start store) turns).final
    let h := history program (Node.start store) turns
    ¬ LockHeld (n.store.find tasksResultsLock) →
      ∃ drained, stored store ++ h.filterMap appendedOf = drained ++ stored n.store ∧
        h.filterMap handedOf = drained.flatMap H.handsOver := by
  intro program n h
  have guarded := Monitor.exec_guarded (M := resultsMonitor W Ledger H store) unnoticed_results
    (fun w op => outside_offchainWorker locks_results op.state op.blockNumber) released
    ⟨[], by simp [resultsMonitor], by simp [resultsMonitor]⟩ turns
  exact guarded.inv

end Results

/-! ## Two workers of one node -/

/-- Every delegate serves, and every errand has the same result. -/
def formats : Formats where
  responseResult := .ok
  delegateInfo _ := .ok (answered 7)
  errandResultInfo _ := .ok ⟨true, [42], 0⟩
  beMyDelegateRequest _ _ := .ok []
  base64 _ := ""
  text := ss58 42

def bobsNode : Host AccountId32 AccountId32 := ⟨formats, id, [bob, charlie]⟩

def reachable : ∀ q : Request AccountId32 AccountId32, Reply q
  | .httpPost _ => .response 200 []
  | .submit _ _ _ => .ok ()
  | .unreserve _ _ => ()

/-- The tenth block, with an errand in processing. -/
def tenthBlock : Round AccountId32 Balances where
  blockNumber := 10
  state := (exec (dispatch runtime) localTestnet (bobDelegates ++
    [submit 2 alice (.beginTask [1] [10] 5), submit 3 bob (.initErrand alice [7] [10])])).final

def bobsProgram (op : Round AccountId32 Balances) : NodeM AccountId32 AccountId32 Empty Unit :=
  offchainWorker bobsNode op.state op.blockNumber

/-- Both ask for the result; the second finds the lock held, and so does not append it again. -/
def takingTurns :
    List (Turn Bool (Round AccountId32 Balances) (Request AccountId32 AccountId32) Reply) :=
  [.begin false tenthBlock, .begin true tenthBlock] ++
    (List.replicate 14 [.go false reachable, .go true reachable]).flatten

theorem worker_handoff_takingTurns :
    let n := (exec (turn bobsProgram) (Node.start .empty) takingTurns).final
    let h := history bobsProgram (Node.start .empty) takingTurns
    h.filterMap handedOf = [(bob, [10], [42]), (charlie, [10], [42])] ∧
      ∃ drained, stored .empty ++ h.filterMap appendedOf = drained ++ stored n.store ∧
        h.filterMap handedOf = drained.flatMap bobsNode.handsOver := by
  intro n h
  have ran : ¬ LockHeld (n.store.find tasksResultsLock) ∧
      h.filterMap handedOf = [(bob, [10], [42]), (charlie, [10], [42])] := by
    decide +kernel
  exact ⟨ran.2, worker_handoff .empty (by decide) takingTurns ran.1⟩

/-! ## A lock left behind -/

section Abandoned

variable {H : Host AccountId Public} [Codec (List ResultEntry)] [Codec DelegateInfo]
  [DecidableEq W] [Inhabited AccountId] [Codec AccountId]
  [DecidableEq AccountId]

/-- Nothing is appended to the results of a node or submitted from them any more. -/
structure Stalled (store : LocalStorage)
    (n : Node W (Round AccountId Ledger) (Request AccountId Public) Reply Empty)
    (h : List (LogEntry W (Round AccountId Ledger) (Request AccountId Public))) : Prop where
  locked : LockHeld (n.store.find tasksResultsLock)
  kept : stored n.store = stored store
  unappended : h.filterMap appendedOf = []
  unsubmitted : h.filterMap handedOf = []

/-- Workers that find the lock of the results held, with its holder away, come to nothing. -/
theorem stalled_of_barred {store₀ : LocalStorage} {gone : W → Prop}
    {n : Node W (Round AccountId Ledger) (Request AccountId Public) Reply Empty}
    (barred : (resultsMonitor W Ledger H store₀).Barred gone n)
    {turns : List (Turn W (Round AccountId Ledger) (Request AccountId Public) Reply)}
    (stays : ∀ w world, .go w world ∈ turns → ¬ gone w) :
    let program := fun op : Round AccountId Ledger => offchainWorker H op.state op.blockNumber
    Stalled n.store (exec (turn program) n turns).final (history program n turns) := by
  intro program
  have obeys (w : W) (op : Round AccountId Ledger) :
      (resultsMonitor W Ledger H store₀).Outside w op (program op) :=
    outside_offchainWorker locks_results op.state op.blockNumber
  obtain ⟨barred, view⟩ := barred.exec obeys stays []
  obtain ⟨kept, unappended, unsubmitted⟩ := ResultsView.mk.inj view
  exact ⟨barred.closed, kept, unappended, unsubmitted⟩

/-- Once a worker has taken the lock of the results and then takes no further turn, no worker of
the node appends or submits a result any more, not even after the node has been restarted. -/
theorem lock_outlives_worker (store : LocalStorage)
    (released : ¬ LockHeld (store.find tasksResultsLock))
    (before : List (Turn W (Round AccountId Ledger) (Request AccountId Public) Reply)) (w : W) :
    let program := fun op : Round AccountId Ledger => offchainWorker H op.state op.blockNumber
    let n := (exec (turn program) (Node.start store) before).final
    Holding tasksResultsLock (history program (Node.start store) before) w →
      (∀ after : List (Turn W _ _ Reply), (∀ world, .go w world ∉ after) →
        Stalled n.store (exec (turn program) n after).final (history program n after)) ∧
      ∀ after : List (Turn W _ _ Reply),
        Stalled n.store (exec (turn program) (Node.start n.store) after).final
          (history program (Node.start n.store) after) := by
  intro program n holding
  have obeys (w : W) (op : Round AccountId Ledger) :
      (resultsMonitor W Ledger H store).Outside w op (program op) :=
    outside_offchainWorker locks_results op.state op.blockNumber
  have guarded := Monitor.exec_guarded unnoticed_results obeys released
    ⟨[], by simp [resultsMonitor], by simp [resultsMonitor]⟩ before
  cases guarded with
  | free _ _ nobody => exact absurd holding (nobody w)
  | held closed w₀ op p holder _ only outside =>
      obtain rfl : w = w₀ := (only w).mp holding
      constructor
      · intro after away
        have barred : (resultsMonitor W Ledger H store).Barred (· = w) n :=
          ⟨closed, fun w' here => outside w' here⟩
        apply stalled_of_barred barred
        rintro w' world hturn rfl
        exact away world hturn
      · intro after
        have barred : (resultsMonitor W Ledger H store).Barred (fun _ => False)
            (Node.start n.store : Node W _ _ _ Empty) :=
          ⟨closed, fun w' _ op p busy => by simp [Node.start] at busy⟩
        exact stalled_of_barred barred fun _ _ _ => not_false

end Abandoned

/-- Bob's node is restarted while its first worker is appending a result. -/
theorem lock_outlives_worker_restarted :
    let n := (exec (turn bobsProgram) (Node.start .empty) (takingTurns.take 12)).final
    Stalled n.store (exec (turn bobsProgram) (Node.start n.store) takingTurns).final
      (history bobsProgram (Node.start n.store) takingTurns) := by
  intro n
  have holding : Holding tasksResultsLock
      (history bobsProgram (Node.start .empty) (takingTurns.take 12)) false := by
    unfold Holding
    decide +kernel
  exact (lock_outlives_worker .empty (by decide) (takingTurns.take 12) false holding).2 takingTurns

/-! ## Every lock -/

section Locks

variable {H : Host AccountId Public} {lock : Bytes} {Held : Option Bytes → Prop}

/-- The locks of a node. -/
def IsLock (H : Host AccountId Public) (lock : Bytes) : Prop :=
  lock = tasksResultsLock ∨ ∃ account, lock = clientLock (H.formats.text account)

/-- A lock, whatever it protects. -/
def lockMonitor (W AccountId Ledger Public : Type) (lock : Bytes) (Held : Option Bytes → Prop) :
    Monitor W (Round AccountId Ledger) (Request AccountId Public) Unit where
  lock := lock
  Held := Held
  view _ _ := ()
  Inv _ := True

theorem IsLock.ne_data (hss58 : Ss58Text H.formats.text) (isLock : IsLock H lock) :
    tasksResultsKey ≠ lock ∧ ∀ account, clientKey (H.formats.text account) ≠ lock := by
  rcases isLock with rfl | ⟨account, rfl⟩
  · exact ⟨tasksResultsLock_ne.symm, fun _ => clientKey_ne_tasksResultsLock _⟩
  · exact ⟨(clientLock_ne_tasksResultsKey _).symm, fun _ => hss58.clientKey_ne_clientLock _ account⟩

variable {w : W} {op : Round AccountId Ledger}

theorem silent_lock (a : Access (Request AccountId Public)) :
    (lockMonitor W AccountId Ledger Public lock Held).Silent w op a :=
  fun _ _ => rfl

/-- A body that leaves the lock alone and comes to a value may run under any lock. -/
theorem outside_underLock_any (latch : Latch Held) {R : Type} {lockKey : Bytes}
    {locked failed : TaskError}
    {body : WorkerM AccountId R}
    {handler : ∀ _ : Call AccountId, NodeM AccountId Public ε (SendResult AccountId)}
    {onError : TaskError → ε}
    (outside : (lockMonitor W AccountId Ledger Public lock Held).Outside w op
      (body.translate handler onError))
    (within : (lockMonitor W AccountId Ledger Public lock Held).Within w op (fun _ _ => True)
      (body.translate handler onError) ()) :
    (lockMonitor W AccountId Ledger Public lock Held).Outside w op
      ((underLock lockKey locked failed body).translate handler onError) := by
  by_cases same : lockKey = lock
  · subst same
    exact outside_underLock_self (M := lockMonitor W AccountId Ledger Public lockKey Held) latch
      fun _ _ => within
  · exact outside_underLock_other same (fun value => ⟨silent_lock _, silent_lock _⟩) outside

theorem within_sendSignedTransaction_lock {signer : List (AccountId × Public)}
    {call : Call AccountId} :
    (lockMonitor W AccountId Ledger Public lock Held).Within w op (fun _ _ => True)
      (sendSignedTransaction signer call : NodeM AccountId Public ε _) () := by
  induction signer with
  | nil => trivial
  | cons key signer ih =>
      intro sent _ _ _
      show Monitor.Within _ _ _ _ (sendSignedTransaction signer call >>= _) _
      exact Monitor.Within.bind (ih.weaken fun _ _ _ => trivial)

theorem within_submitAll_lock {results : List ResultEntry} :
    (lockMonitor W AccountId Ledger Public lock Held).Within w op (fun _ _ => True)
      (forM results fun item =>
        (updateSingleErrand item.2.resultCid item.1 : WorkerM AccountId Unit).translate
          (sendSignedTransaction H.accounts : _ → NodeM AccountId Public TaskError _) id) () := by
  induction results with
  | nil => trivial
  | cons item results ih =>
      rw [List.forM_cons]
      apply Monitor.Within.bind
      unfold updateSingleErrand
      rw [Program.translate_bind, Program.translate_request]
      apply Monitor.Within.bind
      exact within_sendSignedTransaction_lock.weaken fun _ _ _ => ih

variable [Codec (List ResultEntry)]

theorem outside_appendResult_lock (latch : Latch Held) (data : tasksResultsKey ≠ lock) (cid : Cid)
    (info : ErrandResultInfo) :
    (lockMonitor W AccountId Ledger Public lock Held).Outside w op
      (onStorage .storage (operateLocalStorage tasksResultsKey tasksResultsLock
        (appendResult cid info)) : NodeM AccountId Public AnyError Unit) := by
  apply outside_underLock_any latch
  · unfold appendResult
    apply Monitor.outside_get
    intro value
    split <;> exact ⟨data, silent_lock _, trivial⟩
  · unfold appendResult
    apply Monitor.within_get
    intro _ _ _
    split <;> exact ⟨data, fun _ _ _ => trivial⟩

theorem outside_loadTasksResultsInfo_lock (latch : Latch Held) (data : tasksResultsKey ≠ lock) :
    (lockMonitor W AccountId Ledger Public lock Held).Outside w op
      (loadTasksResultsInfo.translate (sendSignedTransaction H.accounts) id :
        NodeM AccountId Public TaskError Unit) := by
  apply outside_underLock_any latch
  · unfold submitResults
    apply Monitor.outside_get
    intro value
    split
    · rw [Program.translate_bind, Program.translate_forM]
      apply Monitor.Outside.bind
      · apply Monitor.outside_forM
        intro item _
        unfold updateSingleErrand
        rw [Program.translate_bind, Program.translate_request]
        apply (outside_sendSignedTransaction fun _ _ => silent_lock _).bind
        exact fun _ => trivial
      · exact fun _ => ⟨data, silent_lock _, trivial⟩
    · trivial
  · unfold submitResults
    apply Monitor.within_get
    intro _ _ _
    split
    · rw [Program.translate_bind, Program.translate_forM]
      apply Monitor.Within.bind
      exact within_submitAll_lock.weaken fun _ _ _ => ⟨data, fun _ _ _ => trivial⟩
    · trivial

variable [Codec DelegateInfo]

theorem locks_lock (latch : Latch Held)
    (data : tasksResultsKey ≠ lock ∧ ∀ account, clientKey (H.formats.text account) ≠ lock) :
    Worker.Locks (lockMonitor W AccountId Ledger Public lock Held) w op H where
  overhears :=
    ⟨fun _ => silent_lock _, fun _ _ => silent_lock _, fun _ _ _ _ => silent_lock _⟩
  save account info := by
    apply outside_underLock_any latch
    · exact ⟨data.2 account, silent_lock _, trivial⟩
    · exact ⟨data.2 account, fun _ _ _ => trivial⟩
  load account := by
    apply outside_loadDelegateInfo
    apply outside_underLock_any latch
    · exact fun _ => trivial
    · exact fun _ _ _ => trivial
  append := outside_appendResult_lock latch data.1
  submit := outside_loadTasksResultsInfo_lock latch data.1

variable [DecidableEq W] [Inhabited AccountId] [Codec AccountId] [DecidableEq AccountId]

/-- Any lock of a node excludes, and is held by nobody but a worker that has yet to release it. -/
theorem worker_locks (hss58 : Ss58Text H.formats.text) (isLock : IsLock H lock)
    (store : LocalStorage) (released : ¬ LockHeld (store.find lock))
    (turns : List (Turn W (Round AccountId Ledger) (Request AccountId Public) Reply)) :
    let program := fun op : Round AccountId Ledger => offchainWorker H op.state op.blockNumber
    let n := (exec (turn program) (Node.start store) turns).final
    let h := history program (Node.start store) turns
    (∀ w w', Holding lock h w → Holding lock h w' → w = w') ∧
      (LockHeld (n.store.find lock) ↔ ∃ w, Holding lock h w) ∧
      ((∀ w, n.idle w = true) → ¬ LockHeld (n.store.find lock)) := by
  intro program n h
  have guarded := Monitor.exec_guarded (M := lockMonitor W AccountId Ledger Public lock LockHeld)
    ⟨fun _ _ _ => silent_lock _, fun _ _ _ => silent_lock _⟩
    (fun w op => outside_offchainWorker (locks_lock latch_lockHeld (isLock.ne_data hss58)) op.state
      op.blockNumber) released trivial turns
  refine ⟨fun w w' => guarded.excludes, guarded.held_iff, fun idle closed => ?_⟩
  obtain ⟨w, holding⟩ := guarded.held_iff.mp closed
  have busy : n.idle w = false := guarded.busy_of_holding holding
  rw [idle w] at busy
  cases busy

end Locks

theorem worker_locks_takingTurns :
    let n := (exec (turn bobsProgram) (Node.start .empty) takingTurns).final
    ¬ LockHeld (n.store.find tasksResultsLock) ∧
      ¬ LockHeld (n.store.find (clientLock (ss58 42 bob))) := by
  intro n
  have idle : ∀ w, n.idle w = true := by decide +kernel
  exact ⟨(worker_locks ss58Text_ss58 (.inl rfl) .empty (by decide) takingTurns).2.2 idle,
    (worker_locks ss58Text_ss58 (.inr ⟨bob, rfl⟩) .empty (by decide) takingTurns).2.2 idle⟩

end AbcDemo.Worker
