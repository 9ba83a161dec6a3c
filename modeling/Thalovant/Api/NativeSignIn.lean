import Thalovant.Error
import Thalovant.Url

/-!
# Signing in through a browser of its own

The authorization code comes back in a redirect, whose text anyone may have chosen.
-/

namespace Thalovant.Api

/-! ## Random text -/

def base64UrlDigit (n : Nat) : Char :=
  if n < 26 then Char.ofNat (0x41 + n)
  else if n < 52 then Char.ofNat (0x61 + n - 26)
  else if n < 62 then Char.ofNat (0x30 + n - 52)
  else if n = 62 then '-'
  else '_'

def base64UrlChars : Bytes → List Char
  | a :: b :: c :: rest =>
    let n := 65536 * a.toNat + 256 * b.toNat + c.toNat
    base64UrlDigit (n / 262144) :: base64UrlDigit (n / 4096 % 64) :: base64UrlDigit (n / 64 % 64)
      :: base64UrlDigit (n % 64) :: base64UrlChars rest
  | [a, b] =>
    let n := 1024 * a.toNat + 4 * b.toNat
    [base64UrlDigit (n / 4096), base64UrlDigit (n / 64 % 64), base64UrlDigit (n % 64)]
  | [a] => [base64UrlDigit (16 * a.toNat / 64), base64UrlDigit (16 * a.toNat % 64)]
  | [] => []

def base64Url (raw : Bytes) : String := String.ofList (base64UrlChars raw)

/-! ## Starting -/

def DEFAULT_DASHBOARD_URL : String := "https://dash.thalovant.com"

def DEFAULT_NATIVE_SCOPES : List String := ["hubs:read", "clients:read", "clients:write"]

structure NativeSignInOptions where
  clientId : String
  redirectUri : String
  scopes : Option (List String)
  dashboardUrl : Option String

structure NativeSignIn where
  authorizationUrl : String
  state : String
  verifier : String
  redirectUri : String

section

variable (urls : UrlLibrary) (sha256 : Bytes → Bytes)

def challengeFor (verifier : String) : String := base64Url (sha256 (utf8 verifier))

def requireSafeDashboard (url : Option String) : Result Unit :=
  match (url.map trim).filter (· ≠ "") with
  | none => .ok ()
  | some raw =>
    match urls.parse raw with
    | none => .error (.api ("dashboard_url is not a URL: " ++ raw))
    | some parsed =>
      if parsed.username ≠ "" || parsed.password.isSome then
        .error (.api "dashboard_url must not carry credentials")
      else if parsed.query.isSome || parsed.fragment.isSome then
        .error (.api "dashboard_url must not carry a query or a fragment")
      else if parsed.scheme = "https" then .ok ()
      else if parsed.scheme = "http"
          && ["localhost", "127.0.0.1", "::1", "[::1]"].any fun host => parsed.host = some host then
        .ok ()
      else .error (.api ("dashboard_url must be https (or a loopback address while developing), not "
        ++ raw))

/-- What the authorization request asks for. -/
def authorizationPairs (clientId redirectUri verifier state : String) (scopes : List String) :
    List (String × String) :=
  [("client_id", clientId), ("redirect_uri", redirectUri), ("response_type", "code"),
    ("code_challenge", challengeFor sha256 verifier), ("code_challenge_method", "S256"),
    ("scope", joinWords scopes), ("state", state)]

/-- Start a sign-in, with the random bytes of its verifier and of its state. -/
def beginNativeSignIn (options : NativeSignInOptions) (verifierBytes stateBytes : Bytes) :
    Result NativeSignIn :=
  let clientId := trim options.clientId
  let redirectUri := trim options.redirectUri
  if clientId = "" then .error (.api "client_id is required to start a sign-in")
  else if redirectUri = "" then .error (.api "redirect_uri is required to start a sign-in")
  else
    match requireSafeDashboard urls options.dashboardUrl with
    | .error err => .error err
    | .ok () =>
      let verifier := base64Url verifierBytes
      let state := base64Url stateBytes
      let scopes := options.scopes.getD DEFAULT_NATIVE_SCOPES
      let dashboard := trimEndChar '/' (options.dashboardUrl.getD DEFAULT_DASHBOARD_URL)
      match urls.parse (dashboard ++ "/authorize") with
      | none => .error (.api "could not build the sign-in address")
      | some url =>
        .ok
          { authorizationUrl := urls.print
              (url.appendPairs (authorizationPairs sha256 clientId redirectUri verifier state scopes))
            state := state
            verifier := verifier
            redirectUri := redirectUri }

/-! ## The redirect -/

def toAsciiLowercase (text : String) : String := String.ofList (text.toList.map Char.toLower)

def sameTarget (got : Url) (expected : String) : Bool :=
  match urls.parse expected with
  | none => false
  | some want =>
    eqIgnoreAsciiCase got.scheme want.scheme
      && got.host.map toAsciiLowercase = want.host.map toAsciiLowercase
      && trimEndChar '/' got.path = trimEndChar '/' want.path

/-- What the parameters of a redirect say. -/
structure Answer where
  state : Option String
  code : Option String
  refused : Bool

/-- One parameter more. A later one takes the place of an earlier one. -/
def Answer.note (answer : Answer) (pair : String × String) : Answer :=
  if pair.1 = "state" then { answer with state := some pair.2 }
  else if pair.1 = "code" then { answer with code := some pair.2 }
  else if pair.1 = "error" then { answer with refused := true }
  else answer

def readAnswerPairs (pairs : List (String × String)) : Answer :=
  pairs.foldl Answer.note ⟨none, none, false⟩

def NativeSignIn.codeFrom (signIn : NativeSignIn) (redirect : String) : Option String :=
  match urls.parse redirect with
  | none => none
  | some parsed =>
    if !sameTarget urls parsed signIn.redirectUri then none
    else
      let answer := readAnswerPairs parsed.queryPairs
      if answer.refused || answer.state ≠ some signIn.state then none
      else answer.code.filter (· ≠ "")

end

end Thalovant.Api
