import AbcDemo.Foundation.Solo
import AbcDemo.Worker.Locks

/-! # Getting the results through

However long workers have come between one another, the next round that a worker
of a listed account goes through by itself finds the lock free, and submits
everything that was ever appended and has not been submitted yet.
-/

namespace AbcDemo.Worker

open Foundation Pallet Offchain

variable {W AccountId Ledger Public ε : Type} {H : Host AccountId Public} {store : LocalStorage}

/-! ## Under a free lock -/

theorem ends_underLock {R : Type} {lockKey : Bytes} {locked failed : TaskError}
    {body : WorkerM AccountId R}
    {handler : ∀ _ : Call AccountId, NodeM AccountId Public ε (SendResult AccountId)}
    {onError : TaskError → ε} {post : Except ε R → LocalStorage → Prop}
    (free : LockFree (store.find lockKey))
    (hbody : (body.translate handler onError).Ends
      (fun r store => match r with
        | .ok rtn => post (.ok rtn) (store.insert lockKey (Codec.encode false))
        | .error e => post (.error e) store)
      (store.insert lockKey (Codec.encode true))) :
    ((underLock lockKey locked failed body).translate handler onError).Ends post store := by
  unfold underLock StorageValueRef.mutate
  simp only [Program.get_bind, Program.translate, Program.Ends, free locked]
  simp only [Program.compareAndSet_bind, Program.translate, Program.Ends, ↓reduceIte,
    Program.done_bind]
  rw [Program.translate_bind]
  apply Program.Ends.bind
  apply hbody.weaken
  intro r store h
  cases r <;> exact h

/-- Submitting does not touch the storage. -/
theorem ends_sendSignedTransaction (signer : List (AccountId × Public)) (call : Call AccountId) :
    (sendSignedTransaction signer call : NodeM AccountId Public ε _).Ends
      (fun r store' => (∃ sent, r = .ok sent) ∧ store' = store) store := by
  induction signer with
  | nil => exact ⟨⟨[], rfl⟩, rfl⟩
  | cons key signer ih =>
      intro answer
      show Program.Ends _ (sendSignedTransaction signer call >>= _) _
      apply Program.Ends.bind
      apply ih.weaken
      rintro _ _ ⟨⟨sent, rfl⟩, rfl⟩
      exact ⟨⟨_, rfl⟩, rfl⟩

theorem ends_submitAll (results : List ResultEntry) :
    (forM results fun item =>
      (updateSingleErrand item.2.resultCid item.1 : WorkerM AccountId Unit).translate
        (sendSignedTransaction H.accounts : _ → NodeM AccountId Public TaskError _) id).Ends
      (fun r store' => r = .ok () ∧ store' = store) store := by
  induction results with
  | nil => exact ⟨rfl, rfl⟩
  | cons item results ih =>
      rw [List.forM_cons]
      apply Program.Ends.bind
      unfold updateSingleErrand
      rw [Program.translate_bind, Program.translate_request]
      apply Program.Ends.bind
      apply (ends_sendSignedTransaction H.accounts _).weaken
      rintro _ _ ⟨⟨sent, rfl⟩, rfl⟩
      exact ih

variable [Codec (List ResultEntry)] in
/-- Whatever is in the cell of the results, there are none behind the submission. -/
theorem ends_submitResults :
    ((submitResults ⟨tasksResultsKey⟩ : WorkerM AccountId Unit).translate
      (sendSignedTransaction H.accounts : _ → NodeM AccountId Public TaskError _) id).Ends
      (fun r store => r = .ok () ∧ stored store = []) store := by
  unfold submitResults
  apply Program.ends_get
  split
  · rename_i results found
    rw [Program.translate_bind, Program.translate_forM]
    apply Program.Ends.bind
    apply (ends_submitAll results).weaken
    rintro _ store' ⟨rfl, rfl⟩
    exact ⟨rfl, stored_insert_key store' []⟩
  · rename_i absent
    refine ⟨rfl, ?_⟩
    unfold stored
    split
    · rename_i results found
      exact absurd found (absent results)
    · rfl

/-! ## A round by itself -/

section Rounds

variable [Inhabited AccountId] [Codec AccountId] [DecidableEq AccountId]
  [Codec (List ResultEntry)] [Codec DelegateInfo]

omit [Codec (List ResultEntry)] [Codec DelegateInfo] [Inhabited AccountId]
  [DecidableEq AccountId] in
/-- A listed account is an account of some key. -/
theorem keys_of_permitted {s : State AccountId Ledger}
    (permitted : allowToUpdateResult s.updateResultAccounts (getAccountIds H) = true) :
    H.keys.isEmpty = false := by
  cases keys : H.keys with
  | nil => simp [getAccountIds, keys, allowToUpdateResult] at permitted
  | cons key keys => rfl

omit [Codec DelegateInfo] [Inhabited AccountId] [DecidableEq AccountId] in
/-- The node's round leaves the lock free and no result behind. -/
theorem ends_updateErrandTaskResults {s : State AccountId Ledger}
    (permitted : allowToUpdateResult s.updateResultAccounts (getAccountIds H) = true)
    (free : LockFree (store.find tasksResultsLock)) :
    (updateErrandTaskResults H s : NodeM AccountId Public ε Unit).Ends
      (fun _ store => LockFree (store.find tasksResultsLock) ∧ stored store = []) store := by
  unfold updateErrandTaskResults
  rw [if_neg (by simp [keys_of_permitted permitted]), if_neg (by simp [permitted])]
  apply Program.Ends.discard
  apply ends_underLock free
  apply ends_submitResults.weaken
  rintro _ store' ⟨rfl, drained⟩
  exact ⟨by simpa using lockFree_false, by simpa using drained⟩

/-- What comes before leaves the lock as free as it was. -/
theorem ends_offchainWorker (s : State AccountId Ledger) (b : BlockNumber)
    (permitted : allowToUpdateResult s.updateResultAccounts (getAccountIds H) = true)
    (free : LockFree (store.find tasksResultsLock)) :
    (offchainWorker H s b).Ends
      (fun _ store => LockFree (store.find tasksResultsLock) ∧ stored store = []) store := by
  let M := lockMonitor Unit AccountId Ledger Public tasksResultsLock fun cell => ¬ LockFree cell
  have locks : Locks M () ⟨b, s⟩ H :=
    locks_lock latch_lockFree ⟨tasksResultsLock_ne.symm, fun _ => clientKey_ne_tasksResultsLock _⟩
  have unnoticed : M.Unnoticed := ⟨fun _ _ _ => silent_lock _, fun _ _ _ => silent_lock _⟩
  have ends {α ε' : Type} {x : NodeM AccountId Public ε' α} (outside : M.Outside () ⟨b, s⟩ x)
      {store : LocalStorage} (free : LockFree (store.find tasksResultsLock)) :
      x.Ends (fun _ store => LockFree (store.find tasksResultsLock)) store := by
    apply (outside.ends unnoticed (h := []) (not_not.mpr free) trivial).weaken
    exact fun _ _ => not_not.mp
  unfold offchainWorker
  apply Program.Ends.bind
  apply (ends (outside_applyDelegates locks s b) free).weaken
  rintro (e | _) store free
  · exact e.elim
  apply Program.Ends.bind
  apply (ends (outside_sendErrandTasks locks s b).discard free).weaken
  rintro (e | _) store free
  · exact e.elim
  apply Program.Ends.bind
  apply (ends (outside_queryErrandTaskResults locks s b) free).weaken
  rintro (e | _) store free
  · exact e.elim
  · exact ends_updateErrandTaskResults permitted free

variable [DecidableEq W]

/-- Whatever the workers of a node have done to one another so far, if the lock is free, then a
worker that a listed account's node starts for any block, and that is then left to itself, comes
to the end of its round, with the lock free and no result left; and every result that was ever
appended, by whatever worker, has been submitted by every account of the node, once and in the
order in which it was appended. -/
theorem lone_round_drains (store : LocalStorage)
    (released : ¬ LockHeld (store.find tasksResultsLock))
    (before : List (Turn W (Round AccountId Ledger) (Request AccountId Public) Reply))
    (w : W) (op : Round AccountId Ledger) (answers : Nat → ∀ q, Reply q)
    (permitted : allowToUpdateResult op.state.updateResultAccounts (getAccountIds H) = true) :
    let program := fun op : Round AccountId Ledger => offchainWorker H op.state op.blockNumber
    let n := (exec (turn program) (Node.start store) before).final
    LockFree (n.store.find tasksResultsLock) → n.idle w = true →
      ∃ k, ∀ j, k ≤ j →
        let turns := before ++ .begin w op :: solo w answers j
        let m := (exec (turn program) (Node.start store) turns).final
        let h := history program (Node.start store) turns
        m.idle w = true ∧ LockFree (m.store.find tasksResultsLock) ∧ stored m.store = [] ∧
          h.filterMap handedOf = (stored store ++ h.filterMap appendedOf).flatMap H.handsOver := by
  intro program n free idle
  have begun := Node.resume_running_self n w op (program op)
  have ends := ends_offchainWorker (H := H) op.state op.blockNumber permitted free
  have reaches : ComesTo program w _ _ answers := comesTo_of_ends begun ends answers
  obtain ⟨k, hk⟩ := reaches
  refine ⟨k, fun j hj => ?_⟩
  intro turns m h
  have last : m = (exec (turn program) (n.resume w op (program op)) (solo w answers j)).final := by
    simp only [m, turns, exec_append, exec, fire, Transition.after, run_turn_begin]
    rw [if_pos idle]
  obtain ⟨stopped, _, freed, drained⟩ := hk j hj
  rw [← last] at stopped freed drained
  have guarded := Monitor.exec_guarded (M := resultsMonitor W Ledger H store) unnoticed_results
    (fun w op => outside_offchainWorker locks_results op.state op.blockNumber) released
    ⟨[], by simp [resultsMonitor], by simp [resultsMonitor]⟩ turns
  have unheld : ¬ LockHeld (m.store.find tasksResultsLock) :=
    latch_lockHeld.vacant (freed .response)
  obtain ⟨all, entries, calls⟩ : ∃ all, stored store ++ h.filterMap appendedOf =
      all ++ stored m.store ∧ h.filterMap handedOf = all.flatMap H.handsOver :=
    guarded.inv unheld
  rw [drained, List.append_nil] at entries
  exact ⟨stopped, freed, drained, entries ▸ calls⟩

end Rounds

/-- After the two have taken turns, the first goes through another round by itself. -/
theorem lone_round_drains_takingTurns :
    ∃ k, ∀ j, k ≤ j →
      let turns := takingTurns ++ .begin false tenthBlock :: solo false (fun _ => reachable) j
      let m := (exec (turn bobsProgram) (Node.start .empty) turns).final
      let h := history bobsProgram (Node.start .empty) turns
      m.idle false = true ∧ stored m.store = [] ∧
        h.filterMap handedOf =
          (stored .empty ++ h.filterMap appendedOf).flatMap bobsNode.handsOver := by
  have before : ((exec (turn bobsProgram) (Node.start .empty) takingTurns).final.store.find
        tasksResultsLock = some (Codec.encode false)) ∧
      (exec (turn bobsProgram) (Node.start .empty) takingTurns).final.idle false = true := by
    decide +kernel
  have free : LockFree ((exec (turn bobsProgram) (Node.start .empty) takingTurns).final.store.find
      tasksResultsLock) := by
    rw [before.1]
    exact lockFree_false
  have permitted : allowToUpdateResult tenthBlock.state.updateResultAccounts
      (getAccountIds bobsNode) = true := by
    decide +kernel
  obtain ⟨k, hk⟩ := lone_round_drains (H := bobsNode) .empty (by decide) takingTurns false
    tenthBlock (fun _ => reachable) permitted free before.2
  refine ⟨k, fun j hj => ?_⟩
  obtain ⟨idle, _, drained, handed⟩ := hk j hj
  exact ⟨idle, drained, handed⟩

end AbcDemo.Worker
