import AbcDemo.Foundation.Evidence
import AbcDemo.Offchain.DelegateInfo

/-! # Requests to the world outside a node

A worker posts to the services of the delegates, submits transactions and gives
back reserves in its own copy of the chain's state. What comes of each is
answered from outside, at the moment it is asked.
-/

namespace AbcDemo.Worker

open Foundation Pallet Offchain

def serviceBaseUrlPrefix : String := "http://"

/-! ## Errors -/

/-- Why a request could not be sent. -/
inductive HttpError where
  | deadlineReached
  | ioError
  | invalid
  deriving DecidableEq

def HttpError.details : HttpError → String
  | .deadlineReached => "The requested action couldn't been completed within a deadline"
  | .ioError => "There was an IO Error while processing the request"
  | .invalid => "ID of the request is invalid in this context"

inductive AbcError where
  | common (details : String)
  | httpRequestError (details : String)
  | httpResponseError (details : String)
  deriving DecidableEq

/-- What the functions around a request stop with. It is only ever reported. -/
inductive AnyError where
  | abc (error : AbcError)
  | utf8
  | netAddress
  | unexpectedStatus (code : UInt16)
  | storage (error : TaskError)
  | load (error : LoadError)
  deriving DecidableEq

/-! ## Requests -/

/-- What the host makes of a post: it is not sent, not answered in time, fails,
or has a response. -/
inductive HttpOutcome where
  | unsent (error : HttpError)
  | unanswered (id : UInt16)
  | failed
  | response (code : UInt16) (body : Bytes)
  deriving DecidableEq

inductive Request (AccountId Public : Type) where
  | httpPost (url : String)
  | submit (signer : AccountId) (key : Public) (call : Call AccountId)
  | unreserve (who : AccountId) (value : Nat)
  deriving DecidableEq

variable {AccountId Public : Type} {ε : Type}

abbrev Reply : Request AccountId Public → Type
  | .httpPost _ => HttpOutcome
  | .submit _ _ _ => Except Unit Unit
  | .unreserve _ _ => Unit

/-- The programs of a node's workers. -/
abbrev NodeM (AccountId Public ε : Type) : Type → Type :=
  Program (Request AccountId Public) Reply ε

/-- What other crates make of texts and bytes: `from_str` of the three types that
are parsed, the encoding of the one message that is sent, and the texts of
bytes and of accounts. -/
structure Formats where
  responseResult : String → Except String String
  delegateInfo : String → Except String DelegateInfo
  errandResultInfo : String → Except String ErrandResultInfo
  beMyDelegateRequest : String → Bytes → Except String Bytes
  base64 : Bytes → String
  text : AccountId32 → String

/-- Every key of the signer signs once and has a result: that none is left out, because its
transaction could not be created, is assumed. -/
def sendSignedTransaction (signer : List (AccountId × Public)) (call : Call AccountId) :
    NodeM AccountId Public ε (SendResult AccountId) :=
  match signer with
  | [] => pure []
  | key :: signer => do
      let sent ← Program.request (.submit key.1 key.2 call)
      let rest ← sendSignedTransaction signer call
      pure ((key.1, sent) :: rest)

/-- An operation on the local storage that submits nothing. -/
def onStorage {ε' α : Type} (onError : ε' → ε)
    (x : Program (Call AccountId) (fun _ => SendResult AccountId) ε' α) :
    NodeM AccountId Public ε α :=
  x.translate (fun _ => pure []) onError

/-- A text, or a stop. -/
def fromUtf8OrFail (bytes : Bytes) : NodeM AccountId Public AnyError String :=
  match fromUtf8 bytes with
  | some text => pure text
  | none => .fail .utf8

/-- A parsed value, or a stop with what the parser says. -/
def parsedOrFail {α : Type} (parsed : Except String α) : NodeM AccountId Public AnyError α :=
  .ofExcept (parsed.mapError fun details => .abc (.common details))

variable (F : Formats)

/-- The `data` of a response with status 200. -/
def readOutcome : HttpOutcome → Except AnyError Bytes
  | .unsent error => .error (.abc (.httpRequestError error.details))
  | .unanswered id => .error (.abc (.httpResponseError (toString id)))
  | .failed => .error (.abc (.httpResponseError "unknown request error"))
  | .response code body =>
      if code ≠ 200 then .error (.unexpectedStatus code)
      else
        match fromUtf8 body with
        | none => .error .utf8
        | some resBody =>
            match F.responseResult resBody with
            | .error details => .error (.abc (.common details))
            | .ok data => .ok (asBytes data)

def httpPost (url : String) : NodeM AccountId Public AnyError Bytes := do
  let outcome ← Program.request (.httpPost url)
  .ofExcept (readOutcome F outcome)

end AbcDemo.Worker
