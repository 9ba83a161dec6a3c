import Thalovant.Duration
import Thalovant.Value

/-!
# Errors

`ThalovantError`, as far as the modelled functions raise it. The errors of the libraries below (of
the file system, of the JSON parser) keep the text they display.
-/

namespace Thalovant

/-- The numbers behind a refusal that is a spent allowance, not a policy. -/
structure Quota where
  period : String
  limit : Nat
  used : Nat
  resetAfter : Nat
  deriving DecidableEq, Repr

def Quota.EXCEEDED_CODE : String := "intent_quota_exceeded"

/-- Every way a call fails. -/
inductive ThalovantError where
  | missingIdentityField (field : String)
  | invalidIdentity (message : String)
  | connection (message : String)
  | timeout (message : String)
  | listing (message : String)
  | runtime (message : String)
  | policyDenied (deniedType code reason : String) (allowed : List String) (quota : Option Quota)
  | unanswered (said : String)
  | api (message : String)
  /-- The API answered with an error status; `problem` is the body, when that is a JSON object. -/
  | apiResponse (statusCode : Nat) (detail : String) (problem : Option Map)
  | deviceAuthorizationDenied
  | deviceAuthorizationExpired
  | deviceLoginPending (interval : Duration) (statusCode : Nat) (problem : Option Map)
  | deviceLoginExpired (statusCode : Nat) (problem : Option Map)
  | deviceLoginDenied (statusCode : Nat) (problem : Option Map)
  | crypto (message : String)
  | io (message : String)
  | json (message : String)
  | unsupportedProtocol (message : String)
  deriving DecidableEq

abbrev Result (α : Type) := Except ThalovantError α

namespace ThalovantError

def HUB_REFUSED : String := "the hub refused this connection's credentials"

def HUB_KEY_CHANGED : String := "the hub's Noise key is not the one pinned for it"

/-- A refusal of the credentials by the hub. -/
def hubRefused (detail : String) : ThalovantError := .connection (HUB_REFUSED ++ ": " ++ detail)

/-- A hub whose key is not the pinned one. -/
def hubKeyChanged (detail : String) : ThalovantError :=
  .connection (HUB_KEY_CHANGED ++ ": " ++ detail)

def isHubRefused : ThalovantError → Bool
  | .connection message => HUB_REFUSED.toList.isPrefixOf message.toList
  | _ => false

def isHubKeyChanged : ThalovantError → Bool
  | .connection message => HUB_KEY_CHANGED.toList.isPrefixOf message.toList
  | _ => false

/-- What follows `HUB_REFUSED` when the hub refused this client's own key. -/
def CLIENT_KEY_REJECTED : String :=
  "it pinned a different Noise key for this client when the connection first connected"

/-- A refusal that is of this client's own key. -/
def isClientKeyRejected : ThalovantError → Bool
  | .connection message => (HUB_REFUSED ++ ": " ++ CLIENT_KEY_REJECTED).toList.isPrefixOf message.toList
  | _ => false

/-- The status and body of an error that is an answer from the API. -/
def apiAnswer : ThalovantError → Option (Nat × Option Map)
  | .apiResponse statusCode _ problem | .deviceLoginPending _ statusCode problem
  | .deviceLoginExpired statusCode problem | .deviceLoginDenied statusCode problem =>
    some (statusCode, problem)
  | _ => none

def statusCode (err : ThalovantError) : Option Nat := err.apiAnswer.map Prod.fst

def apiProblem (err : ThalovantError) : Option Map := err.apiAnswer.bind Prod.snd

def API_UNREACHABLE : String := "could not reach the Thalovant API"

/-- A request to the API that was never answered. -/
def apiUnreachable (detail : String) : ThalovantError := .api (API_UNREACHABLE ++ ": " ++ detail)

end ThalovantError

end Thalovant
