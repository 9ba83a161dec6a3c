import Thalovant.Redact
import Thalovant.Error
import Thalovant.Url

/-!
# Requests to the API

A request goes out if its URL may be used and there is a token where one is needed. The answer is a
status and a text; it may also never come.
-/

namespace Thalovant.Api

/-- The libraries below the API client, as far as they decide what it does. -/
structure Libraries where
  parseUrl : String → Option Url
  /-- How the JSON parser reads a text, or the error it displays. -/
  fromStr : String → Except String Value
  print : Value → String

/-- An answer of the API: its status and its text, or why there is none. -/
inductive HttpAnswer where
  | failed (message : String)
  | response (status : Nat) (text : String)

/-- What comes of waiting for something; `none` if it is given up before. -/
abbrev Reply (α : Type) := Option (Result α)

def Reply.andThen {α β : Type} (reply : Reply α) (f : α → Reply β) : Reply β :=
  match reply with
  | some (.ok a) => f a
  | some (.error err) => some (.error err)
  | none => none

/-! ## The control plane -/

/-- The client of the API. The intervals are those of device codes that are being polled. -/
structure ControlPlane where
  apiUrl : String
  accessToken : Option String
  userAgent : String
  tokenId : Option String
  deviceIntervals : List (String × Duration)
  revokedOwn : Bool

def DEFAULT_CONTROL_API_URL : String := "https://api.thalovant.com"

def normalizeControlApiUrl (apiUrl : String) : String :=
  let normalized := trimEndChar '/' (trim apiUrl)
  let normalized := if normalized = "" then DEFAULT_CONTROL_API_URL else normalized
  let normalized := if "/v1".toList.isSuffixOf normalized.toList
    then String.ofList (normalized.toList.take (normalized.length - 3)) else normalized
  trimEndChar '/' normalized ++ "/"

def ControlPlane.new (apiUrl : String) (accessToken : Option String) (userAgent : String) :
    ControlPlane where
  apiUrl := normalizeControlApiUrl apiUrl
  accessToken := accessToken
  userAgent := userAgent
  tokenId := none
  deviceIntervals := []
  revokedOwn := false

structure Request where
  method : String
  path : String
  body : Option Value
  auth : Bool

section

variable (lib : Libraries) (plane : ControlPlane)

/-! ## Sending -/

def isLoopback (host : Option String) : Bool :=
  host = some "localhost" || host = some "127.0.0.1" || host = some "[::1]"

def validateControlRequestUrl (raw : String) (sensitive : Bool) : Result Url :=
  match lib.parseUrl raw with
  | none => .error (.api "invalid control-plane API URL")
  | some url =>
    if urlHasUserinfo raw || url.username ≠ "" || url.password.isSome then
      .error (.api "control-plane API URLs cannot contain credentials")
    else if !(url.scheme = "https" || url.scheme = "http")
        || (sensitive && url.scheme ≠ "https" && !isLoopback url.host) then
      .error (.api ("authenticated control-plane requests and request bodies require HTTPS; "
        ++ "HTTP is allowed only on localhost, 127.0.0.1 or [::1] for development"))
    else .ok url

/-- `HeaderValue::from_str`. -/
def headerValue (text : String) : Result Unit :=
  if (utf8 text).all fun b => (32 ≤ b && b ≠ 127) || b = 9 then .ok ()
  else .error (.api "failed to parse header value")

/-- What keeps a request from being sent. -/
def prepare (request : Request) : Result Unit := do
  let _ ← validateControlRequestUrl lib (plane.apiUrl ++ trimStartChar '/' request.path)
    (request.auth || request.body.isSome)
  headerValue plane.userAgent
  if request.auth then
    match plane.accessToken with
    | none => throw (.api "missing access token")
    | some token => headerValue ("Bearer " ++ token)

/-! ## The answer -/

def readAnswer : HttpAnswer → Result (Nat × String)
  | .failed message => .error (.apiUnreachable message)
  | .response status text =>
    if 300 ≤ status && status < 400 then
      .error (.apiResponse status
        "control-plane redirects are refused; configure the final API URL" none)
    else .ok (status, text)

def sendRequest (request : Request) (answer : Option HttpAnswer) : Reply (Nat × String) :=
  match prepare lib plane request with
  | .error err => some (.error err)
  | .ok () => answer.map readAnswer

def isSuccess (status : Nat) : Bool := 200 ≤ status && status < 300

def parse (text : String) : Option Value := (lib.fromStr text).toOption

def apiResponseError (status : Nat) (body : String) : ThalovantError :=
  .apiResponse status (Redact.errorDisplayLine lib.print (parse lib body))
    (Redact.problemOf (parse lib body))

def answerValue (status : Nat) (body : String) : Result Value :=
  if !isSuccess status then .error (apiResponseError lib status body)
  else if isBlank body then .ok .null
  else match lib.fromStr body with
    | .ok value => .ok value
    | .error _ => .error (.apiResponse status "invalid JSON response" none)

def request (request : Request) (answer : Option HttpAnswer) : Reply Value :=
  (sendRequest lib plane request answer).andThen fun (status, body) =>
    some (answerValue lib status body)

end

end Thalovant.Api
