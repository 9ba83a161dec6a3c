import Thalovant.Api.Http

/-!
# Signing in, and revoking a token

Each way of signing in keeps the token that the API answers with, and the id that came with it, if one
did. Revoking the token in use forgets both.
-/

namespace Thalovant.Api

/-! ## Token answers -/

/-- The access token of an answer: a string that is not blank. -/
def accessTokenValue (token : Value) : Option String :=
  (((member "access_token" token).bind Json.Value.asStr).map trim).filter (· ≠ "")

def nonEmptyText (key : String) (token : Value) : Option String :=
  ((member key token).bind Json.Value.asStr).filter (· ≠ "")

def tokenIdValue (token : Value) : Option String := nonEmptyText "token_id" token

def unusableToken : ThalovantError :=
  .api "token response did not include a usable access_token"

structure ApiToken where
  accessToken : String
  tokenType : String
  scopes : List String
  expiresAt : Option String
  tokenId : Option String

def ApiToken.fromValue (token : Value) : Result ApiToken :=
  match accessTokenValue token with
  | none => .error unusableToken
  | some accessToken => .ok
    { accessToken
      tokenType := (nonEmptyText "token_type" token).getD "bearer"
      scopes := match (member "scopes" token).bind Json.Value.asArray with
        | some scopes => scopes.filterMap Json.Value.asStr
        | none => []
      expiresAt := nonEmptyText "expires_at" token
      tokenId := nonEmptyText "token_id" token }

/-- Keep a sign-in's token and the id it came with, or none. -/
def ControlPlane.acceptToken (accessToken : String) (tokenId : Option String) (plane : ControlPlane) :
    ControlPlane :=
  { plane with accessToken := some accessToken, tokenId := tokenId, revokedOwn := false }

/-- What an operation leaves, what it has sent and what it returns. -/
structure Turn (α : Type) where
  plane : ControlPlane
  sent : List Request
  reply : Reply α

/-- The end of a sign-in: its token is kept. -/
def keepToken (plane : ControlPlane) (sent : List Request) (reply : Reply Value) : Turn Value :=
  match reply with
  | some (.ok token) =>
    match accessTokenValue token with
    | some accessToken =>
      ⟨plane.acceptToken accessToken (tokenIdValue token), sent, some (.ok token)⟩
    | none => ⟨plane, sent, some (.error unusableToken)⟩
  | reply => ⟨plane, sent, reply⟩

section

variable (lib : Libraries) (plane : ControlPlane)

/-- The request, if it goes out. -/
def sentOf (request : Request) : List Request :=
  if (prepare lib plane request).isOk then [request] else []

/-! ## Passwords and authorization codes -/

structure LoginOptions where
  scope : Option String
  otpCode : Option String
  recoveryCode : Option String

/-- Put a text under a key, unless it is blank. -/
def insertText (key : String) (text : Option String) (body : Map) : Map :=
  match text.filter fun text => !isBlank text with
  | some text => body.insert key (.string text)
  | none => body

def loginRequest (email password : String) (options : LoginOptions) : Request where
  method := "POST"
  path := "/v1/auth/token"
  body :=
    let body := (Map.insert "email" (.string email) []).insert "password" (.string password)
    let body := insertText "scope" options.scope body
    let body := insertText "otp_code" options.otpCode body
    some (.object (insertText "recovery_code" options.recoveryCode body))
  auth := false

def loginWithOptions (email password : String) (options : LoginOptions)
    (answer : Option HttpAnswer) : Turn Value :=
  let sending := loginRequest email password options
  keepToken plane (sentOf lib plane sending) (request lib plane sending answer)

def requireSecureTokenExchange : Result Unit :=
  match lib.parseUrl plane.apiUrl with
  | none => .error (.api ("API URL could not be read: " ++ plane.apiUrl))
  | some url =>
    if url.scheme = "https" || isLoopback url.host || url.host = some "::1" then .ok ()
    else .error (.api ("refusing to send an authorization code and PKCE verifier in cleartext to "
      ++ url.host.getD plane.apiUrl ++ "; use https, or a loopback address while developing"))

def nativeRequest (code verifier clientId redirectUri : String) : Request where
  method := "POST"
  path := "/v1/auth/native/token"
  body :=
    let body := (Map.insert "code" (.string code) []).insert "code_verifier" (.string verifier)
    let body := body.insert "client_id" (.string clientId)
    some (.object (body.insert "redirect_uri" (.string redirectUri)))
  auth := false

def completeNativeSignIn (code verifier clientId redirectUri : String)
    (answer : Option HttpAnswer) : Turn Value :=
  match requireSecureTokenExchange lib plane with
  | .error err => ⟨plane, [], some (.error err)⟩
  | .ok () =>
    let sending := nativeRequest code verifier clientId redirectUri
    keepToken plane (sentOf lib plane sending) (request lib plane sending answer)

/-! ## Devices -/

structure DeviceAuthorization where
  deviceCode : String
  userCode : String
  verificationUri : String
  verificationUriComplete : Option String
  expiresIn : Option UInt64
  interval : Option UInt64
  raw : Map

def jsonString : Value → Option String
  | .string raw => if trim raw = "" then none else some (trim raw)
  | .null => none
  | other => some (trimChar '"' (lib.print other))

def requiredDeviceField (raw : Map) (key : String) : Result String :=
  match (Map.get key raw).bind (jsonString lib) with
  | some text => .ok text
  | none => .error (.api ("device authorization response did not include " ++ key))

def DeviceAuthorization.fromValue (value : Value) : Result DeviceAuthorization := do
  let some raw := value.asObject
    | throw (.api "device authorization response was not a JSON object")
  return {
    deviceCode := ← requiredDeviceField lib raw "device_code"
    userCode := ← requiredDeviceField lib raw "user_code"
    verificationUri := ← requiredDeviceField lib raw "verification_uri"
    verificationUriComplete := (Map.get "verification_uri_complete" raw).bind (jsonString lib)
    expiresIn := (Map.get "expires_in" raw).bind asU64
    interval := (Map.get "interval" raw).bind asU64
    raw }

def DEFAULT_DEVICE_POLL_INTERVAL : Duration := .fromSecs 5 Duration.fiveSecs

def DEVICE_SLOW_DOWN : Duration := .fromSecs 5 Duration.fiveSecs

def DeviceAuthorization.pollInterval (authorization : DeviceAuthorization) : Duration :=
  match authorization.interval with
  | some seconds => .fromSecs seconds.toNat
    (Nat.mul_lt_mul_of_pos_right seconds.toNat_lt (by decide))
  | none => DEFAULT_DEVICE_POLL_INTERVAL

/-- The browser may be sent there. -/
def browsable (raw : String) : Bool :=
  !raw.toList.any (fun c => c.toNat < 0x20 || (0x7F ≤ c.toNat && c.toNat < 0xA0) || isWhitespace c)
  && !urlHasUserinfo raw
  && match lib.parseUrl raw with
    | some url => (url.scheme = "https" || url.scheme = "http") && url.host.isSome
      && url.username = "" && url.password.isNone
    | none => false

def authorizeRequest (scopes : List String) (clientName clientId : Option String) : Request where
  method := "POST"
  path := "/v1/auth/device/authorize"
  body :=
    let body : Map := if scopes.isEmpty then []
      else Map.insert "scopes" (.array (scopes.map .string)) []
    let body := insertText "client_name" clientName body
    some (.object (match clientId with
      | some clientId => body.insert "client_id" (.string clientId)
      | none => body))
  auth := false

def beginDeviceLoginAs (scopes : List String) (clientName clientId : Option String)
    (answer : Option HttpAnswer) : Reply DeviceAuthorization :=
  (request lib plane (authorizeRequest scopes clientName clientId) answer).andThen fun grant =>
    match DeviceAuthorization.fromValue lib grant with
    | .error err => some (.error err)
    | .ok grant =>
      if !browsable lib grant.verificationUri
          || grant.verificationUriComplete.any (fun uri => !browsable lib uri) then
        some (.error (.api ("device authorization requires HTTP(S) verification URLs without "
          ++ "embedded credentials")))
      else some (.ok grant)

def deviceTokenRequest (deviceCode : String) : Request where
  method := "POST"
  path := "/v1/auth/device/token"
  body := some (.object [("device_code", .string deviceCode)])
  auth := false

/-- The token of a device code, or why there is none yet. -/
def readDeviceToken (interval : Duration) (status : Nat) (text : String) : Result Value :=
  if isSuccess status then
    if isBlank text then .error (.api "device token response was empty")
    else match lib.fromStr text with
      | .ok token => .ok token
      | .error err => .error (.json err)
  else
    let parsed := parse lib text
    let problem := Redact.problemOf parsed
    match if status = 400 then (parsed.bind (member "error")).bind Json.Value.asStr else none with
    | some "authorization_pending" => .error (.deviceLoginPending interval status problem)
    | some "slow_down" =>
      .error (.deviceLoginPending (interval.saturatingAdd DEVICE_SLOW_DOWN) status problem)
    | some "access_denied" => .error (.deviceLoginDenied status problem)
    | some "expired_token" => .error (.deviceLoginExpired status problem)
    | _ => .error (apiResponseError lib status text)

def deviceTokenOnce (deviceCode : String) (interval : Duration) (answer : Option HttpAnswer) :
    Reply Value :=
  (sendRequest lib plane (deviceTokenRequest deviceCode) answer).andThen fun (status, text) =>
    some (readDeviceToken lib interval status text)

/-- Poll until there is a token, or there will be none: each poll with its answer and the time that has
gone by after it. What is sent comes with what is returned. -/
def pollDeviceToken (deviceCode : String) (timeout : Duration) :
    List (HttpAnswer × Duration) → Duration → List Request × Reply Value
  | [], wait =>
    (sentOf lib plane (deviceTokenRequest deviceCode), deviceTokenOnce lib plane deviceCode wait none)
  | (answer, elapsed) :: polls, wait =>
    let sent := sentOf lib plane (deviceTokenRequest deviceCode)
    match deviceTokenOnce lib plane deviceCode wait (some answer) with
    | some (.error (.deviceLoginPending interval _ _)) =>
      if (timeout.saturatingSub elapsed).isZero then
        (sent, some (.error (.timeout "timed out waiting for the device sign-in to be approved")))
      else
        let (later, reply) := pollDeviceToken deviceCode timeout polls interval
        (sent ++ later, reply)
    | some (.error (.deviceLoginDenied _ _)) => (sent, some (.error .deviceAuthorizationDenied))
    | some (.error (.deviceLoginExpired _ _)) => (sent, some (.error .deviceAuthorizationExpired))
    | reply => (sent, reply)

structure DeviceLoginOptions where
  scopes : List String
  clientName : Option String
  timeout : Duration

def loginWithBrowserAs (options : DeviceLoginOptions) (clientId : Option String)
    (begun : Option HttpAnswer) (polls : List (HttpAnswer × Duration)) : Turn Value :=
  let sent := sentOf lib plane (authorizeRequest options.scopes options.clientName clientId)
  match beginDeviceLoginAs lib plane options.scopes options.clientName clientId begun with
  | some (.ok grant) =>
    let (polled, reply) :=
      pollDeviceToken lib plane grant.deviceCode options.timeout polls grant.pollInterval
    keepToken plane (sent ++ polled) reply
  | some (.error err) => ⟨plane, sent, some (.error err)⟩
  | none => ⟨plane, sent, none⟩

def ControlPlane.setInterval (deviceCode : String) (interval : Duration) : ControlPlane :=
  { plane with deviceIntervals := SortedMap.insert deviceCode interval plane.deviceIntervals }

def ControlPlane.forgetInterval (deviceCode : String) : ControlPlane :=
  { plane with deviceIntervals := SortedMap.erase deviceCode plane.deviceIntervals }

def pollDeviceLogin (authorization : DeviceAuthorization) (answer : Option HttpAnswer) :
    Turn ApiToken :=
  let deviceCode := authorization.deviceCode
  let interval := (SortedMap.get deviceCode plane.deviceIntervals).getD authorization.pollInterval
  let polling := plane.setInterval deviceCode interval
  let sent := sentOf lib polling (deviceTokenRequest deviceCode)
  match deviceTokenOnce lib polling deviceCode interval answer with
  | some (.ok token) =>
    let done := polling.forgetInterval deviceCode
    match ApiToken.fromValue token with
    | .ok token => ⟨done.acceptToken token.accessToken token.tokenId, sent, some (.ok token)⟩
    | .error err => ⟨done, sent, some (.error err)⟩
  | some (.error (.deviceLoginPending interval status problem)) =>
    ⟨polling.setInterval deviceCode interval, sent,
      some (.error (.deviceLoginPending interval status problem))⟩
  | some (.error (.deviceLoginExpired status problem)) =>
    ⟨polling.forgetInterval deviceCode, sent, some (.error (.deviceLoginExpired status problem))⟩
  | some (.error (.deviceLoginDenied status problem)) =>
    ⟨polling.forgetInterval deviceCode, sent, some (.error (.deviceLoginDenied status problem))⟩
  | some (.error err) => ⟨polling, sent, some (.error err)⟩
  | none => ⟨polling, sent, none⟩

/-! ## Revoking -/

def revokeRequest (target : String) : Request where
  method := "DELETE"
  path := "/v1/auth/api-tokens/" ++ urlencode target
  body := none
  auth := true

/-- The token that a revocation is of. -/
def revokeTarget (tokenId : Option String) : Option String :=
  (tokenId.filter (· ≠ "")).or plane.tokenId

/-- The token in use is forgotten. -/
def ControlPlane.forgetToken : ControlPlane :=
  { plane with accessToken := none, tokenId := none, revokedOwn := true }

def revokeApiToken (tokenId : Option String) (answer : Option HttpAnswer) : Turn Unit :=
  match revokeTarget plane tokenId with
  | none =>
    if plane.revokedOwn && plane.accessToken.isNone then ⟨plane, [], some (.ok ())⟩
    else ⟨plane, [], some (.error (.api
      "no API token id to revoke: pass one, or sign in with a device login first"))⟩
  | some target =>
    let own := plane.tokenId = some target
    let sent := sentOf lib plane (revokeRequest target)
    match request lib plane (revokeRequest target) answer with
    | some (.ok _) => ⟨if own then plane.forgetToken else plane, sent, some (.ok ())⟩
    | some (.error err) =>
      if own && err.statusCode = some 401 then ⟨plane.forgetToken, sent, some (.ok ())⟩
      else ⟨plane, sent, some (.error err)⟩
    | none => ⟨plane, sent, none⟩

end

end Thalovant.Api
