import AbcDemo.Offchain.TaskResults

/-! # Exactly-once handover of task results

However the workers of a node interleave, at most one is under the lock, and
whenever the lock is free the entries appended so far are those handed over, in
the order of the appends, followed by those still in the store.
-/

namespace AbcDemo.Offchain

open Foundation Pallet

variable {AccountId : Type}

section Store

variable [Codec (List ResultEntry)]

omit [Codec (List ResultEntry)] in
theorem tasksResultsLock_ne : tasksResultsLock ≠ tasksResultsKey := by
  decide

@[simp] theorem stored_insert_lock (store : LocalStorage) (value : Bytes) :
    stored (store.insert tasksResultsLock value) = stored store := by
  simp only [stored, StorageMap.find_insert, if_neg tasksResultsLock_ne.symm]

@[simp] theorem stored_insert_key (store : LocalStorage) (results : List ResultEntry) :
    stored (store.insert tasksResultsKey (Codec.encode results)) = results := by
  simp [stored]

section Handoff

variable {W : Type}

omit [Codec (List ResultEntry)] in
@[simp] theorem appended_concat (h : List (LogEntry W Job (Call AccountId)))
    (e : LogEntry W Job (Call AccountId)) :
    appended (h ++ [e]) = appended h ++ (appendedEntry e).toList := by
  cases he : appendedEntry e <;> simp [appended, he]

omit [Codec (List ResultEntry)] in
@[simp] theorem handed_concat (h : List (LogEntry W Job (Call AccountId)))
    (e : LogEntry W Job (Call AccountId)) :
    handed (h ++ [e]) = handed h ++ (handedArgs e).toList := by
  cases he : handedArgs e <;> simp [handed, he]

variable (store₀ : LocalStorage)

/-- The entries so far are those handed over, in order, followed by `rest`. -/
def HandedUpTo (h : List (LogEntry W Job (Call AccountId))) (rest : List ResultEntry) : Prop :=
  ∃ drained, stored store₀ ++ appended h = drained ++ rest ∧
    handed h = drained.map ResultEntry.args

def Handoff (store : LocalStorage) (h : List (LogEntry W Job (Call AccountId))) : Prop :=
  HandedUpTo store₀ h (stored store)

variable {store₀}

/-- Accesses of other keys are not part of the handover. -/
theorem HandedUpTo.ignore {h : List (LogEntry W Job (Call AccountId))}
    {e : LogEntry W Job (Call AccountId)} {rest : List ResultEntry}
    (upTo : HandedUpTo store₀ h rest) (silent : appendedEntry e = none)
    (unasked : handedArgs e = none) : HandedUpTo store₀ (h ++ [e]) rest := by
  obtain ⟨drained, entries, calls⟩ := upTo
  exact ⟨drained, by simp [silent, entries], by simp [unasked, calls]⟩

theorem HandedUpTo.append {h : List (LogEntry W Job (Call AccountId))}
    {e : LogEntry W Job (Call AccountId)} {rest : List ResultEntry} {item : ResultEntry}
    (upTo : HandedUpTo store₀ h rest) (wrote : appendedEntry e = some item)
    (unasked : handedArgs e = none) : HandedUpTo store₀ (h ++ [e]) (rest ++ [item]) := by
  obtain ⟨drained, entries, calls⟩ := upTo
  refine ⟨drained, ?_, by simp [unasked, calls]⟩
  rw [appended_concat, wrote, ← List.append_assoc, entries, List.append_assoc]
  rfl

/-- Handing over the first entry that is left. -/
theorem HandedUpTo.hand {h : List (LogEntry W Job (Call AccountId))}
    {e : LogEntry W Job (Call AccountId)} {rest : List ResultEntry} {item : ResultEntry}
    (upTo : HandedUpTo store₀ h (item :: rest)) (silent : appendedEntry e = none)
    (asked : handedArgs e = some item.args) : HandedUpTo store₀ (h ++ [e]) rest := by
  obtain ⟨drained, entries, calls⟩ := upTo
  exact ⟨drained ++ [item], by simp [silent, entries], by simp [asked, calls]⟩

omit [Codec (List ResultEntry)] in
theorem appendedEntry_swapped (w : W) (op : Job) (key value : Bytes) :
    appendedEntry (⟨w, op, .swapped key value⟩ : LogEntry W Job (Call AccountId)) = none := by
  unfold appendedEntry
  split
  · contradiction
  · rfl

omit [Codec (List ResultEntry)] in
theorem appendedEntry_lock (w : W) (op : Job) (value : Bytes) :
    appendedEntry (⟨w, op, .wrote tasksResultsLock value⟩ : LogEntry W Job (Call AccountId)) =
      none := by
  unfold appendedEntry
  split
  · rename_i h
    cases h
    rw [if_neg tasksResultsLock_ne]
  · rfl

theorem handoff_unnoticed :
    Unnoticed tasksResultsLock
      (Handoff store₀ : LocalStorage → List (LogEntry W Job (Call AccountId)) → Prop) where
  acquired w op value inv := by
    unfold Handoff
    rw [stored_insert_lock]
    exact inv.ignore (appendedEntry_swapped w op _ value) rfl
  released w op value inv := by
    unfold Handoff
    rw [stored_insert_lock]
    exact inv.ignore (appendedEntry_lock w op value) rfl

/-! ## The jobs obey the lock -/

/-- Releasing the lock over a store that the handover accounts for. -/
theorem inside_release {w : W} {op : Job} {store : LocalStorage}
    {h : List (LogEntry W Job (Call AccountId))} (inv : Handoff store₀ store h) :
    Inside tasksResultsLock LockHeld (Handoff store₀) w op
      (.set tasksResultsLock (Codec.encode false) (.done ()) : WorkerM AccountId Unit) store h := by
  unfold Inside
  rw [if_pos rfl]
  exact ⟨by simp [LockHeld], inv, trivial⟩

/-- Appending reads the list and writes it back one entry longer. -/
theorem inside_append {w : W} {descriptionCid : Cid} {resultInfo : ErrandResultInfo}
    {store : LocalStorage} {h : List (LogEntry W Job (Call AccountId))}
    (inv : Handoff store₀ store h) :
    Inside tasksResultsLock LockHeld (Handoff store₀) w (.fetch descriptionCid (some resultInfo))
      (appendResult descriptionCid resultInfo ⟨tasksResultsKey⟩ >>= fun _ =>
        (.set tasksResultsLock (Codec.encode false) (.done ()) : WorkerM AccountId Unit))
      store h := by
  have longer : ∀ results, stored store = results →
      Inside tasksResultsLock LockHeld (Handoff store₀) w (.fetch descriptionCid (some resultInfo))
        (.set tasksResultsKey (Codec.encode (results ++ [(descriptionCid, resultInfo)]))
          (.set tasksResultsLock (Codec.encode false) (.done ())) : WorkerM AccountId Unit)
        store h := by
    intro results hresults
    unfold Inside
    rw [if_neg tasksResultsLock_ne.symm]
    apply inside_release
    unfold Handoff
    rw [stored_insert_key, ← hresults]
    exact inv.append (by simp [appendedEntry]) rfl
  unfold appendResult StorageValueRef.get StorageValueRef.set
  simp only [Program.get_bind, Program.done_bind, Inside]
  split
  · rename_i results hcell
    exact longer results (by simp [stored, hcell])
  · rename_i hcell
    apply longer []
    unfold stored
    split
    · rename_i results hresults
      exact absurd hresults (hcell results)
    · rfl

/-- Handing over the entries that are left, one by one, and then clearing. -/
theorem inside_submitAll {w : W} {store : LocalStorage} (rest : List ResultEntry)
    {h : List (LogEntry W Job (Call AccountId))} (upTo : HandedUpTo store₀ h rest) :
    Inside tasksResultsLock LockHeld (Handoff store₀) w .load
      ((forM rest fun item => updateSingleErrand item.2.resultCid item.1) >>= fun _ =>
        (.set tasksResultsKey (Codec.encode ([] : List ResultEntry))
          (.set tasksResultsLock (Codec.encode false) (.done ())) : WorkerM AccountId Unit))
      store h := by
  induction rest generalizing h with
  | nil =>
      simp only [List.forM_nil, Program.pure_eq, Program.done_bind]
      unfold Inside
      rw [if_neg tasksResultsLock_ne.symm]
      apply inside_release
      unfold Handoff
      rw [stored_insert_key]
      exact upTo.ignore rfl rfl
  | cons item rest ih =>
      rw [List.forM_cons, Program.bind_assoc]
      unfold updateSingleErrand Program.request
      simp only [Program.ask_bind, Program.done_bind, Program.pure_eq, Inside]
      intro _
      exact ih (upTo.hand rfl rfl)

theorem inside_submitResults {w : W} {store : LocalStorage}
    {h : List (LogEntry W Job (Call AccountId))} (inv : Handoff store₀ store h) :
    Inside tasksResultsLock LockHeld (Handoff store₀) w .load
      (submitResults ⟨tasksResultsKey⟩ >>= fun _ =>
        (.set tasksResultsLock (Codec.encode false) (.done ()) : WorkerM AccountId Unit))
      store h := by
  unfold submitResults StorageValueRef.get StorageValueRef.set
  simp only [Program.get_bind, Program.done_bind, Inside]
  split
  · rename_i results hcell
    have upTo : HandedUpTo store₀ h results := by
      simpa [Handoff, stored, hcell] using inv
    rw [Program.bind_assoc]
    exact inside_submitAll results upTo
  · exact inside_release inv

theorem outside_program (w : W) (op : Job) :
    Outside tasksResultsLock LockHeld (Handoff store₀) w op
      (op.program : WorkerM AccountId Unit) := by
  cases op with
  | fetch descriptionCid response =>
      cases response with
      | none => trivial
      | some resultInfo =>
          by_cases completed : resultInfo.completed = true
          · simp only [Job.program, fetchErrandResultInfo, completed, operateLocalStorage, ne_eq,
              not_true_eq_false, ↓reduceIte, Program.bind_assoc]
            exact outside_underLock w _ fun store h inv => inside_append inv
          · simp [Job.program, fetchErrandResultInfo, completed, Outside]
  | load =>
      rw [Job.program, loadTasksResultsInfo, ← Program.bind_done (underLock ..)]
      exact outside_underLock w Job.load fun store h inv => inside_submitResults inv

end Handoff

/-! ## Exactly one handover -/

section Schedules

variable {W : Type} [DecidableEq W]

/-- Any workers may fetch and load in any interleaving of their accesses. -/
theorem handoff_exactly_once (store : LocalStorage)
    (released : ¬ LockHeld (store.find tasksResultsLock))
    (turns : List (Turn W Job (Call AccountId) fun _ => SendResult AccountId)) :
    let n := (exec (turn Job.program) (Node.start store) turns).final
    let h := history Job.program (Node.start store) turns
    (∀ w w', Holding tasksResultsLock h w → Holding tasksResultsLock h w' → w = w') ∧
      (LockHeld (n.store.find tasksResultsLock) ↔ ∃ w, Holding tasksResultsLock h w) ∧
      (¬ LockHeld (n.store.find tasksResultsLock) →
        ∃ drained, stored store ++ appended h = drained ++ stored n.store ∧
          handed h = drained.map ResultEntry.args) := by
  intro n h
  have start : Handoff store store ([] : List (LogEntry W Job (Call AccountId))) :=
    ⟨[], by simp [appended], rfl⟩
  have guarded := exec_guarded handoff_unnoticed outside_program released start turns
  exact ⟨fun w w' => guarded.excludes, guarded.held_iff, guarded.inv⟩

end Schedules

end Store

/-! ## Two workers -/

instance : Codec (List ResultEntry) := PrefixCodec.codec

/-- Two workers read the free lock; the first appends, the second is late and
comes back to submit what it finds. -/
def twoWorkers : List (Turn Nat Job (Call AccountId32) fun _ => SendResult AccountId32) :=
  let world : ∀ _ : Call AccountId32, SendResult AccountId32 := fun _ => []
  [.begin 0 (.fetch [10] (some ⟨true, [42], 0⟩)), .begin 1 .load, .go 0 world, .go 1 world,
    .go 0 world, .go 1 world, .go 0 world, .go 0 world, .go 0 world, .begin 1 .load,
    .go 1 world, .go 1 world, .go 1 world, .go 1 world, .go 1 world, .go 1 world]

theorem twoWorkers_history :
    ¬ LockHeld ((exec (turn Job.program) (Node.start .empty) twoWorkers).final.store.find
        tasksResultsLock) ∧
      appended (history Job.program (Node.start .empty) twoWorkers) = [([10], ⟨true, [42], 0⟩)] ∧
      handed (history Job.program (Node.start .empty) twoWorkers) = [([10], [42])] := by
  decide +kernel

theorem handoff_exactly_once_twoWorkers :
    let n := (exec (turn Job.program) (Node.start .empty) twoWorkers).final
    let h := history Job.program (Node.start .empty) twoWorkers
    appended h = [([10], ⟨true, [42], 0⟩)] ∧ handed h = [([10], [42])] ∧
      (∃ drained, stored .empty ++ appended h = drained ++ stored n.store ∧
        handed h = drained.map ResultEntry.args) := by
  obtain ⟨free, entries, calls⟩ := twoWorkers_history
  exact ⟨entries, calls, (handoff_exactly_once .empty (by decide) twoWorkers).2.2 free⟩

end AbcDemo.Offchain
