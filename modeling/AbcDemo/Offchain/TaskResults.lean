import AbcDemo.Foundation.Scale
import AbcDemo.Offchain.Storage

/-! # Fetching and submitting task results

Every worker of a node appends the results it fetches to one list in the local
storage, and every worker may submit the whole list and clear it. Both work
under one lock cell. The history of a schedule tells what was appended and what
was handed over.
-/

namespace AbcDemo.Offchain

open Foundation Pallet

def tasksResultsKey : Bytes := "local-storage::tasks_results".toUTF8.data.toList

def tasksResultsLock : Bytes := "local-storage::tasks_results-lock".toUTF8.data.toList

structure ErrandResultInfo where
  completed : Bool
  resultCid : Bytes
  failedCount : UInt32
  deriving DecidableEq

abbrev ResultEntry := Cid × ErrandResultInfo

instance : PrefixCodec ErrandResultInfo :=
  .transport (fun fields : Bool × Bytes × UInt32 => ⟨fields.1, fields.2.1, fields.2.2⟩)
    (fun info => (info.completed, info.resultCid, info.failedCount)) fun _ => rfl

variable {AccountId : Type} [Codec (List ResultEntry)]

/-- The closure that a fetch runs under the lock. -/
def appendResult (descriptionCid : Cid) (resultInfo : ErrandResultInfo)
    (valueRef : StorageValueRef) : WorkerM AccountId Unit := do
  match ← valueRef.get (List ResultEntry) with
  | some (some results) => valueRef.set (results ++ [(descriptionCid, resultInfo)])
  | _ => valueRef.set [(descriptionCid, resultInfo)]

/-- `response` is what the request to the delegate and the parsing of its answer
came to. -/
def fetchErrandResultInfo (descriptionCid : Cid) (response : Option ErrandResultInfo) :
    WorkerM AccountId Bool :=
  match response with
  | none => .fail .response
  | some resultInfo =>
      if resultInfo.completed ≠ true then pure true
      else do
        operateLocalStorage tasksResultsKey tasksResultsLock
          (appendResult descriptionCid resultInfo)
        pure true

def updateSingleErrand (resultCid descriptionCid : Cid) : WorkerM AccountId Unit := do
  let _result ← Program.request (.updateErrand descriptionCid resultCid)
  pure ()

/-- The part of `load_tasks_results_info` under the lock. -/
def submitResults (valueRef : StorageValueRef) : WorkerM AccountId Unit := do
  match ← valueRef.get (List ResultEntry) with
  | some (some results) =>
      forM results fun item => updateSingleErrand item.2.resultCid item.1
      valueRef.set ([] : List ResultEntry)
  | _ => pure ()

def loadTasksResultsInfo : WorkerM AccountId Unit :=
  underLock tasksResultsLock (.module .localStorageError) (.module .localStorageError)
    (submitResults ⟨tasksResultsKey⟩)

/-- What a worker may do with the store. -/
inductive Job where
  | fetch (descriptionCid : Cid) (response : Option ErrandResultInfo)
  | load

def Job.program : Job → WorkerM AccountId Unit
  | .fetch descriptionCid response => do
      let _ ← fetchErrandResultInfo descriptionCid response
      pure ()
  | .load => loadTasksResultsInfo

/-! ## What a schedule of jobs comes to -/

/-- The entries in the store. A cell that does not decode holds none. -/
def stored (store : LocalStorage) : List ResultEntry :=
  match (store.find tasksResultsKey).map Codec.decode with
  | some (some results) => results
  | _ => []

/-- What an access of a fetch writes to the results. -/
def appendedEntry {W : Type} (e : LogEntry W Job (Call AccountId)) : Option ResultEntry :=
  match e.op, e.access with
  | .fetch descriptionCid (some resultInfo), .wrote key _ =>
      if key = tasksResultsKey then some (descriptionCid, resultInfo) else none
  | _, _ => none

/-- The arguments of a call of `update_single_errand`. -/
def handedArgs {W : Type} (e : LogEntry W Job (Call AccountId)) : Option (Cid × Cid) :=
  match e.access with
  | .asked (.updateErrand descriptionCid resultCid) => some (descriptionCid, resultCid)
  | _ => none

def appended {W : Type} (h : List (LogEntry W Job (Call AccountId))) : List ResultEntry :=
  h.filterMap appendedEntry

def handed {W : Type} (h : List (LogEntry W Job (Call AccountId))) : List (Cid × Cid) :=
  h.filterMap handedArgs

def ResultEntry.args (item : ResultEntry) : Cid × Cid := (item.1, item.2.resultCid)

end AbcDemo.Offchain
