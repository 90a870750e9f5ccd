import AbcDemo.Worker.Delegate

/-! # Sending a task and asking for its result

The path of a request names the action and the errand; a task is sent with the
signature that the delegate has given out, and with the text of its description.
-/

namespace AbcDemo.Worker

open Foundation Pallet Offchain

def queryErrandResultAction : String := "/api/query_errand_execution_result_by_uuid"

def sendErrandTaskAction : String := "/api/service"

variable {AccountId Public : Type} {ε : Type} (F : Formats) [Codec (List ResultEntry)]
  [Codec DelegateInfo]

def httpQueryTaskResult (errandId : ErrandId) (netAddress : NetAddress) :
    NodeM AccountId Public AnyError Bytes := do
  let serviceUrl ← .ofExcept (getUrl netAddress)
  let uuid ← fromUtf8OrFail errandId
  httpPost F (serviceUrl ++ queryErrandResultAction ++ "/" ++ uuid)

def fetchErrandResultInfo (errandId : ErrandId) (descriptionCid : Cid) (netAddress : NetAddress) :
    NodeM AccountId Public AnyError Bool := do
  let respBytes ← httpQueryTaskResult F errandId netAddress
  let respStr ← fromUtf8OrFail respBytes
  let resultInfo ← parsedOrFail (F.errandResultInfo respStr)
  onStorage .storage (Offchain.fetchErrandResultInfo descriptionCid (some resultInfo))

def fetchSingleTaskResult (errandId : ErrandId) (descriptionCid : Cid) (netAddress : NetAddress) :
    NodeM AccountId Public ε Bool := do
  match ← (fetchErrandResultInfo F errandId descriptionCid netAddress).attempt with
  | .ok result => pure result
  | .error _ => pure false

/-- `hex::encode`. -/
def hexText (bytes : Bytes) : String :=
  String.ofList ((hexEncode bytes).map fun digit => Char.ofNat digit.toNat)

def sendTaskInternal (client : String) (descriptionCid : Cid) (errandId : ErrandId)
    (netAddress : NetAddress) : NodeM AccountId Public AnyError Unit := do
  let info ← onStorage .load (loadDelegateInfo client)
  let cid ← fromUtf8OrFail descriptionCid
  let serviceUrl ← .ofExcept (getUrl netAddress)
  let uuid ← fromUtf8OrFail errandId
  let res ← httpPost F (serviceUrl ++ sendErrandTaskAction ++ "/" ++ client ++ "/" ++ uuid ++ "/" ++
    hexText info.sig ++ "?content=" ++ cid)
  let _ ← fromUtf8OrFail res
  pure ()

def sendTaskToTeaNetwork (account : AccountId32) (descriptionCid : Cid) (errandId : ErrandId)
    (netAddress : NetAddress) : NodeM AccountId Public ε Bool := do
  match ← (sendTaskInternal F (F.text account) descriptionCid errandId netAddress).attempt with
  | .ok () => pure true
  | .error _ => pure false

/-! ## The requests as posts -/

def queryUrl (errandId : ErrandId) (netAddress : NetAddress) : Option String :=
  match getUrl netAddress, fromUtf8 errandId with
  | .ok serviceUrl, some uuid => some (serviceUrl ++ queryErrandResultAction ++ "/" ++ uuid)
  | _, _ => none

def taskUrl (client : String) (descriptionCid : Cid) (errandId : ErrandId)
    (netAddress : NetAddress) (sig : Bytes) : Option String :=
  match fromUtf8 descriptionCid, getUrl netAddress, fromUtf8 errandId with
  | some cid, .ok serviceUrl, some uuid =>
      some (serviceUrl ++ sendErrandTaskAction ++ "/" ++ client ++ "/" ++ uuid ++ "/" ++
        hexText sig ++ "?content=" ++ cid)
  | _, _, _ => none

omit [Codec (List ResultEntry)] [Codec DelegateInfo] in
/-- Either there is no post at all, or there is the one to the query's URL. -/
theorem httpQueryTaskResult_eq (errandId : ErrandId) (netAddress : NetAddress) :
    (httpQueryTaskResult F errandId netAddress : NodeM AccountId Public AnyError Bytes) =
      match queryUrl errandId netAddress with
      | some url => httpPost F url
      | none => .fail (match getUrl netAddress with | .error e => e | .ok _ => .utf8) := by
  unfold httpQueryTaskResult queryUrl fromUtf8OrFail Program.ofExcept
  cases getUrl netAddress with
  | error e => rfl
  | ok serviceUrl => cases fromUtf8 errandId <;> rfl

omit [Codec (List ResultEntry)] in
/-- Once the delegate's signature is at hand, there is one post or none. -/
theorem sendTaskInternal_eq (client : String) (descriptionCid : Cid) (errandId : ErrandId)
    (netAddress : NetAddress) :
    (sendTaskInternal F client descriptionCid errandId netAddress :
        NodeM AccountId Public AnyError Unit) =
      (do
        let info ← onStorage .load (loadDelegateInfo client)
        match taskUrl client descriptionCid errandId netAddress info.sig with
        | some url => do
            let res ← httpPost F url
            let _ ← fromUtf8OrFail res
            pure ()
        | none =>
            .fail (match fromUtf8 descriptionCid, getUrl netAddress with
              | some _, .error e => e
              | _, _ => .utf8)) := by
  unfold sendTaskInternal taskUrl
  congr 1
  funext info
  unfold fromUtf8OrFail Program.ofExcept
  cases fromUtf8 descriptionCid with
  | none => rfl
  | some cid =>
      cases getUrl netAddress with
      | error e => rfl
      | ok serviceUrl => cases fromUtf8 errandId <;> rfl

end AbcDemo.Worker
