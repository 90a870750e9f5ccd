import AbcDemo.Offchain.Credentials
import AbcDemo.Worker.Http

/-! # Asking a delegate to serve

A delegate that has applied is asked at its network address, and what it answers
is kept in the local storage under the text of its account.
-/

namespace AbcDemo.Worker

open Foundation Pallet Offchain

def applyDelegatePath : String := "/api/be_my_delegate"

def getUrl (netAddress : NetAddress) : Except AnyError String :=
  match fromUtf8 netAddress with
  | some str => .ok (serviceBaseUrlPrefix ++ str)
  | none => .error .netAddress

variable {AccountId Public : Type} {ε : Type} (F : Formats) [Codec DelegateInfo]

def parseDelegateResponse (resp : Bytes) (client : String) :
    NodeM AccountId Public AnyError Unit := do
  let respStr ← fromUtf8OrFail resp
  let resultInfo ← parsedOrFail (F.delegateInfo respStr)
  onStorage .storage (saveDelegateInfo client resultInfo)

/-- The nonce is empty. -/
def requestSingleDelegate (account : AccountId32) (netAddress : NetAddress) :
    NodeM AccountId Public ε Bool :=
  let client := F.text account
  match getUrl netAddress with
  | .error _ => pure false
  | .ok serviceUrl =>
      match F.beMyDelegateRequest client [] with
      | .error _ => pure false
      | .ok buf => do
          let content := F.base64 buf
          let requestUrl := serviceUrl ++ applyDelegatePath ++ "?content=" ++ content
          match ← (httpPost F requestUrl).attempt with
          | .error _ => pure false
          | .ok resp =>
              match ← (parseDelegateResponse F resp client).attempt with
              | .error _ => pure false
              | .ok () => pure true

/-! ## The request as one post -/

/-- Where an account is asked to serve, if its address is a text. -/
def applyUrl (account : AccountId32) (netAddress : NetAddress) : Option String :=
  match getUrl netAddress, F.beMyDelegateRequest (F.text account) [] with
  | .ok serviceUrl, .ok buf =>
      some (serviceUrl ++ applyDelegatePath ++ "?content=" ++ F.base64 buf)
  | _, _ => none

/-- What becomes of the answer to the post. -/
def keepDelegateInfo (client : String) (answer : Except AnyError Bytes) :
    NodeM AccountId Public ε Bool :=
  match answer with
  | .error _ => pure false
  | .ok resp => do
      match ← (parseDelegateResponse F resp client).attempt with
      | .error _ => pure false
      | .ok () => pure true

theorem requestSingleDelegate_eq (account : AccountId32) (netAddress : NetAddress) :
    (requestSingleDelegate F account netAddress : NodeM AccountId Public ε Bool) =
      match applyUrl F account netAddress with
      | none => pure false
      | some url => (httpPost F url).attempt >>= keepDelegateInfo F (F.text account) := by
  unfold requestSingleDelegate applyUrl
  dsimp only
  cases getUrl netAddress with
  | error e => rfl
  | ok serviceUrl => cases F.beMyDelegateRequest (F.text account) [] <;> rfl

end AbcDemo.Worker
