import Mathlib.Data.List.Infix
import Thalovant.Api.SignIn
import Thalovant.Lib.Async
import Thalovant.Protocols

/-!
# Making and deleting clients

A client is made for a hub, of a kind that the API must say it is of: one that it made of another kind
is deleted again. A delete names the client's etag, and other programs may change or delete the client
meanwhile.
-/

namespace Thalovant.Api

/-- The libraries below, and those that identities and endpoints are read with. -/
structure ProvisionLibraries extends Libraries where
  numbers : Json.NumberFormat Number
  urls : UrlLibrary

/-- An error of a call that makes a client. -/
inductive ProvisionError where
  | sdk (err : ThalovantError)
  | unsupportedConnectionType (connectionType reason : String) (statusCode : Option Nat)
      (problem : Option Map)

structure BootstrapIdentityOptions where
  name : String
  siteId : Option String
  spec : Map
  ownerId : Option String
  active : Option Bool
  preferredProtocols : List HubProtocol
  idempotencyKey : Option String

structure BootstrapIdentityResult where
  identity : Identity
  hub : Value
  client : Value
  endpoint : Option SelectedHubEndpoint

/-! ## What a client resource says -/

/-- The text under a key, if there is one and it is not empty. -/
def textOf (key : String) (client : Value) : Option String :=
  ((member key client).bind Json.Value.asStr).filter (· ≠ "")

def clientId (client : Value) : Option String := textOf "id" client

def etagOf (client : Value) : Option String := textOf "etag" client

/-- The kind that the API recorded for a client. -/
def connectionType (client : Value) : Option String :=
  ((member "spec" client).bind (member "connection_type")).bind Json.Value.asStr

/-! ## A refusal of the kind -/

/-- A text with something in it. -/
def problemText (value : Option Value) : Option String :=
  (value.bind Json.Value.asStr).filter fun text => !isBlank text

def nested (problem : Map) : Option Map := (Map.get "detail" problem).bind Json.Value.asObject

/-- What the body says under a key, or the object under `detail` does. -/
def problemSays (key : String) (problem : Map) : Option String :=
  (problemText (Map.get key problem)).or
    ((nested problem).bind fun inner => problemText (Map.get key inner))

def apiCode (err : ThalovantError) : Option String := err.apiProblem.bind (problemSays "code")

def apiDetail (err : ThalovantError) : Option String := err.apiProblem.bind (problemSays "detail")

section

variable (lib : ProvisionLibraries)

/-- The texts of one entry of a validation error: where it is, and what it says. -/
def entryTexts (entry : Map) : List String :=
  (match Map.get "loc" entry with
    | some (.array parts) => [".".intercalate (parts.map fun part =>
        match part with
        | .string text => text
        | other => lib.print other)]
    | some (.string location) => [location]
    | _ => [])
  ++ ((Map.get "msg" entry).bind Json.Value.asStr).toList

def problemEntries (problem : Map) : List Map :=
  (["errors", "detail"].filterMap fun key => (Map.get key problem).bind Json.Value.asArray).flatten.filterMap
    Json.Value.asObject

def refusesConnectionType (err : ThalovantError) : Bool :=
  err.statusCode = some 422 &&
    ((apiDetail err).toList ++ (apiCode err).toList
      ++ (err.apiProblem.elim [] fun problem => (problemEntries problem).flatMap (entryTexts lib))).any
      fun text => decide ("connection_type".toList <:+: text.toList)
        || decide ("connectionType".toList <:+: text.toList)

/-! ## The request -/

def cleanSiteId (value : String) : String :=
  let cleaned := "-".intercalate (splitWhitespace
    (String.ofList ((trim value).toList.map fun c => if c = '_' then '-' else c)))
  if cleaned = "" then "thalovant-client" else cleaned

/-- Two keys of a caller's spec are not sent. -/
def sanitizeCallerSpec (spec : Map) : Map := Map.remove "crypto_key" (Map.remove "cryptoKey" spec)

/-- The secrets of a new client. -/
structure ClientSecrets where
  apiKey : String
  password : String

def clientSpec (options : BootstrapIdentityOptions) (kind : Option String) (siteId : String)
    (secrets : ClientSecrets) : Map :=
  let spec := sanitizeCallerSpec options.spec
  let spec := if Map.containsKey "version" spec then spec else Map.insert "version" (.string "1") spec
  let spec := match kind with
    | some kind => Map.insert "connection_type" (.string kind) spec
    | none => spec
  Map.insert "siteId" (.string siteId)
    (Map.insert "password" (.string secrets.password) (Map.insert "apiKey" (.string secrets.apiKey) spec))

def clientPayload (hubId : String) (options : BootstrapIdentityOptions) (spec : Map) : Value :=
  let payload : Map := Map.insert "active" (.bool (options.active.getD true))
    (Map.insert "spec" (.object spec)
      (Map.insert "name" (.string options.name) (Map.insert "hub_id" (.string hubId) [])))
  .object (match options.ownerId with
    | some ownerId => Map.insert "owner_id" (.string ownerId) payload
    | none => payload)

/-! ## The identity -/

/-- A URL without its path, its query and its fragment. -/
def stripEndpointPath (endpoint : String) : String :=
  match lib.urls.parse endpoint with
  | none => trimEndChar '/' endpoint
  | some url => trimEndChar '/' (lib.urls.print
      { url with path := if url.isSpecial then "/" else "", query := none, fragment := none })

def defaultMaster (hub : Value) (endpoints : HubDataPlaneEndpoints)
    (selected : Option SelectedHubEndpoint) : Result String :=
  match endpoints.https with
  | some https => .ok (stripEndpointPath lib https)
  | none =>
    match ((member "domain" hub).bind (jsonString lib.toLibraries)).bind
        (endpointFromDomain lib.urls · .https) with
    | some endpoint => .ok endpoint
    | none =>
      match selected with
      | some selected => .ok (stripEndpointPath lib selected.endpoint)
      | none => .error (.api "hub resource does not expose a usable data-plane endpoint")

/-- The identity of a client that was made. -/
def bootstrapIdentity (hub client : Value) (options : BootstrapIdentityOptions) (siteId : String)
    (secrets : ClientSecrets) : Result BootstrapIdentityResult := do
  let protocols := HubProtocolSettings.fromValue hub
  let endpoints := HubDataPlaneEndpoints.fromHub lib.numbers lib.urls hub
  let endpoint := selectDataPlaneEndpoint endpoints protocols options.preferredProtocols
  let master ← defaultMaster lib hub endpoints endpoint
  let identity ← match (member "initial_identify" client).bind Json.Value.asObject with
    | some initial => Identity.fromValue lib.numbers lib.urls (.object
        (Map.insert "protocols" protocols.asSpecValue
          (Map.insert "data_plane_endpoints" endpoints.toValue initial)))
    | none => .ok {
        accessKey := secrets.apiKey
        password := secrets.password
        siteId
        defaultMaster := master
        defaultPort := 443
        defaultPath := ""
        publicKey := none
        metadata := []
        name := some options.name
        dataPlaneEndpoints := endpoints
        protocols
        mqtt := none }
  return { identity, hub, client, endpoint }

end

/-! ## The API -/

/-- A DELETE of a call. -/
structure Delete where
  call : Nat
  attempt : Nat
  id : String
  etag : String
  deriving DecidableEq

/-- What a call is for. -/
inductive ClientCall where
  | create (hub : Value) (kind : Option String) (options : BootstrapIdentityOptions)
  | delete (id : String) (etag : Option String)

/-- The key that a call has its client made under, if the caller gave one. -/
def ClientCall.idempotencyKey : ClientCall → Option String
  | .create _ _ options => options.idempotencyKey
  | .delete _ _ => none

inductive Outcome where
  | created (result : Except ProvisionError BootstrapIdentityResult)
  | deleted (result : Result Unit)

structure ClientStore where
  /-- The etags that each client has had, the last one first; none before it is made. -/
  etags : String → List String
  /-- The clients that have been deleted. -/
  gone : List String
  /-- What requests have named. -/
  named : List String
  /-- What each call has POSTed. -/
  posted : Nat → Option Value
  /-- The calls whose POST is on its way. -/
  creates : List Nat
  /-- The client that a call's POST made, or an earlier one under its key. -/
  made : Nat → Option String
  /-- The POSTs that were refused. -/
  declined : List Nat
  /-- The DELETEs on their way. -/
  deletes : List Delete
  /-- The DELETEs that took a client away. -/
  removals : List Delete
  /-- The DELETEs of which the etag was not current. -/
  stale : List Delete
  /-- How often each call has read a client. -/
  gets : Nat → Nat
  /-- The DELETEs that each call has sent, the last one first. -/
  sent : Nat → List Delete
  /-- What each call's POST was answered with. -/
  answers : Nat → Option Value
  /-- The etags that each call has been shown. -/
  shown : Nat → List String
  outcome : Nat → Option Outcome

def ClientStore.new : ClientStore where
  etags _ := []
  gone := []
  named := []
  posted _ := none
  creates := []
  made _ := none
  declined := []
  deletes := []
  removals := []
  stale := []
  gets _ := 0
  sent _ := []
  answers _ := none
  shown _ := []
  outcome _ := none

namespace ClientStore

/-- The client is there. -/
def live (id : String) (s : ClientStore) : Bool := !(s.etags id).isEmpty && !s.gone.contains id

/-- A client with this id can be made: there was none, and no request has named it. -/
def isFresh (id : String) (s : ClientStore) : Bool := (s.etags id).isEmpty && !s.named.contains id

def putEtag (id etag : String) (s : ClientStore) : ClientStore :=
  { s with etags := Function.update s.etags id (etag :: s.etags id) }

/-- Another program makes a client. -/
def add (id etag : String) (s : ClientStore) : ClientStore :=
  if s.isFresh id then s.putEtag id etag else s

/-- Another program changes a client. -/
def change (id etag : String) (s : ClientStore) : ClientStore :=
  if s.live id && !(s.etags id).contains etag then s.putEtag id etag else s

/-- Another program deletes a client. -/
def remove (id : String) (s : ClientStore) : ClientStore :=
  if s.live id then { s with gone := id :: s.gone } else s

/-- The API processes a POST: it makes a client, or finds the one that was made under the key. -/
def make (calls : Nat → ClientCall) (i : Nat) (earlier : Option Nat) (id etag : String)
    (s : ClientStore) : ClientStore :=
  if i ∈ s.creates then
    match earlier with
    | none =>
      if s.isFresh id then
        { s.putEtag id etag with
          creates := s.creates.filter (· ≠ i), made := Function.update s.made i (some id) }
      else s
    | some j =>
      if (calls j).idempotencyKey.isSome && (calls j).idempotencyKey = (calls i).idempotencyKey
          && (s.made j).isSome then
        { s with creates := s.creates.filter (· ≠ i), made := Function.update s.made i (s.made j) }
      else s
  else s

/-- The API refuses a POST. -/
def decline (i : Nat) (s : ClientStore) : ClientStore :=
  if i ∈ s.creates then
    { s with creates := s.creates.filter (· ≠ i), declined := i :: s.declined }
  else s

def arrive (d : Delete) (s : ClientStore) : ClientStore :=
  { s with deletes := s.deletes.filter (· ≠ d) }

/-- The API processes a DELETE. -/
def process (d : Delete) (s : ClientStore) : ClientStore :=
  if d ∈ s.deletes then
    if s.live d.id then
      if (s.etags d.id).head? = some d.etag then
        { s.arrive d with gone := d.id :: s.gone, removals := d :: s.removals }
      else { s.arrive d with stale := d :: s.stale }
    else s.arrive d
  else s

end ClientStore

inductive ClientsEvent where
  | add (id etag : String)
  | change (id etag : String)
  | remove (id : String)
  | make (i : Nat) (earlier : Option Nat) (id etag : String)
  | decline (i : Nat)
  | loseCreate (i : Nat)
  | process (d : Delete)
  | loseDelete (d : Delete)

def clientsWorld (calls : Nat → ClientCall) : ClientsEvent → ClientStore → ClientStore
  | .add id etag => ClientStore.add id etag
  | .change id etag => ClientStore.change id etag
  | .remove id => ClientStore.remove id
  | .make i earlier id etag => ClientStore.make calls i earlier id etag
  | .decline i => ClientStore.decline i
  | .loseCreate i => fun s => { s with creates := s.creates.filter (· ≠ i) }
  | .process d => ClientStore.process d
  | .loseDelete d => ClientStore.arrive d

/-! ## The calls -/

inductive ClientRequest where
  | create (i : Nat)
  | get (id : String)
  | delete (d : Delete)

abbrev ClientResponse : ClientRequest → Type := fun _ => Result Value

abbrev ClientTask := Async ClientStore ClientRequest ClientResponse

/-- A resource that is answered is of a client that was made, with an etag that it has had. The API says
that there is no such client, that an etag is not current, or that it makes no such client only where
that is so. -/
def clientsEnabled : (r : ClientRequest) → ClientResponse r → ClientStore → Bool
  | .create i, .ok client, s =>
    match s.made i with
    | some id => (clientId client).all (· = id) && (etagOf client).all (s.etags id).contains
    | none => false
  | .create i, .error err, s => err.statusCode ≠ some 422 || s.declined.contains i
  | .get id, .ok client, s => (etagOf client).all (s.etags id).contains
  | .get id, .error err, s => err.statusCode ≠ some 404 || !s.live id
  | .delete d, .ok _, s => s.removals.contains d
  | .delete d, .error err, s =>
    (err.statusCode ≠ some 404 || !s.live d.id) && (err.statusCode ≠ some 412 || s.stale.contains d)

def sendCreate (i : Nat) (payload : Value) (s : ClientStore) : ClientStore :=
  { s with creates := i :: s.creates, posted := Function.update s.posted i (some payload) }

/-- A call asks for a client. -/
def countRead (i : Nat) (id : String) (s : ClientStore) : ClientStore :=
  { s with named := id :: s.named, gets := Function.update s.gets i (s.gets i + 1) }

/-- A call is shown an etag, or none. -/
def noteEtag (i : Nat) (etag : Option String) (s : ClientStore) : ClientStore :=
  { s with shown := Function.update s.shown i (etag.toList ++ s.shown i) }

def noteAnswer (i : Nat) (client : Value) (s : ClientStore) : ClientStore :=
  { noteEtag i (etagOf client) s with answers := Function.update s.answers i (some client) }

def sendDelete (d : Delete) (s : ClientStore) : ClientStore :=
  { s with
    named := d.id :: s.named
    deletes := d :: s.deletes
    sent := Function.update s.sent d.call (d :: s.sent d.call) }

def settle (i : Nat) (outcome : Outcome) (s : ClientStore) : ClientStore :=
  { s with outcome := Function.update s.outcome i (some outcome) }

def missingEtag : ThalovantError := .api "client resource is missing etag"

/-- The etag to delete with: the one at hand, or the client's. -/
def currentEtag (i : Nat) (id : String) : Option String → ClientTask (Result String)
  | some etag => return .ok etag
  | none => do
    Async.modify (countRead i id)
    match ← Async.ask (ClientRequest.get id) with
    | .error err => return .error err
    | .ok client =>
      Async.modify (noteEtag i (etagOf client))
      return (etagOf client).elim (.error missingEtag) .ok

def deleteAttempt (i : Nat) (id : String) (etag : Option String) : ClientTask (Result Unit) := do
  match ← currentEtag i id etag with
  | .error err => return .error err
  | .ok etag =>
    match headerValue etag with
    | .error err => return .error err
    | .ok () =>
      let s ← Async.get
      let d := ⟨i, (s.sent i).length, id, etag⟩
      Async.modify (sendDelete d)
      return (← Async.ask (ClientRequest.delete d)).map fun _ => ()

def hasStatus (status : Nat) : Result Unit → Bool
  | .error err => err.statusCode = some status
  | .ok () => false

/-- The etag is read once more after a conflict, and a client that is gone is deleted. -/
def deleteClient (i : Nat) (id : String) (etag : Option String) : ClientTask (Result Unit) := do
  let first ← deleteAttempt i id (etag.filter fun etag => !isBlank etag)
  if hasStatus 404 first then return .ok ()
  else if hasStatus 412 first then
    let second ← deleteAttempt i id none
    return if hasStatus 404 second then .ok () else second
  else return first

/-- What the API made in place of what was asked for. -/
def wrongKind (client : Value) : String :=
  "the Thalovant API made " ++ (connectionType client).elim "an untyped" (fun kind => "a `" ++ kind ++ "`")
    ++ " connection instead"

def deletedReason (client : Value) : String := wrongKind client ++ ", and it was deleted"

def keptReason (client : Value) (id : String) : String :=
  wrongKind client ++ "; deleting it (" ++ id ++ ") failed, so remove it in the dashboard"

def requireConnectionType (i : Nat) (client : Value) (kind : String) :
    ClientTask (Except ProvisionError Unit) := do
  if connectionType client = some kind then return .ok ()
  else
    match clientId client with
    | none => return .error (.unsupportedConnectionType kind (wrongKind client) none none)
    | some id =>
      match ← deleteClient i id (etagOf client) with
      | .ok () => return .error (.unsupportedConnectionType kind (deletedReason client) none none)
      | .error _ => return .error (.unsupportedConnectionType kind (keptReason client id) none none)

def refusedKind (kind : String) (err : ThalovantError) : ProvisionError :=
  .unsupportedConnectionType kind
    ("the Thalovant API cannot create one yet (HTTP " ++ toString (err.statusCode.getD 422) ++ ")")
    err.statusCode err.apiProblem

section

variable (lib : ProvisionLibraries) (secrets : Nat → ClientSecrets)

def siteIdOf (options : BootstrapIdentityOptions) : String :=
  cleanSiteId (options.siteId.getD options.name)

/-- A key that the caller did not give is a new one. -/
def createClient (i : Nat) (payload : Value) (key : Option String) : ClientTask (Result Value) := do
  match key.elim (.ok ()) headerValue with
  | .error err => return .error err
  | .ok () =>
    Async.modify (sendCreate i payload)
    Async.ask (ClientRequest.create i)

def provisionClientIdentity (i : Nat) (hub : Value) (kind : Option String)
    (options : BootstrapIdentityOptions) :
    ClientTask (Except ProvisionError BootstrapIdentityResult) := do
  if isBlank options.name then return .error (.sdk (.api "client name is required"))
  else
    match (member "id" hub).bind (jsonString lib.toLibraries) with
    | none => return .error (.sdk (.api "hub resource is missing id"))
    | some hubId =>
      let spec := clientSpec options kind (siteIdOf options) (secrets i)
      match ← createClient i (clientPayload hubId options spec) options.idempotencyKey with
      | .error err =>
        match kind with
        | some kind =>
          if refusesConnectionType lib err then return .error (refusedKind kind err)
          else return .error (.sdk err)
        | none => return .error (.sdk err)
      | .ok client =>
        Async.modify (noteAnswer i client)
        match ← kind.elim (pure (.ok ())) (requireConnectionType i client) with
        | .error err => return .error err
        | .ok () =>
          return (bootstrapIdentity lib hub client options (siteIdOf options) (secrets i)).mapError .sdk

/-- `create_client_identity_of_type` for a kind, and `create_client_identity` for none. -/
def createClientIdentity (i : Nat) (hub : Value) (kind : Option String)
    (options : BootstrapIdentityOptions) :
    ClientTask (Except ProvisionError BootstrapIdentityResult) :=
  match kind.map trim with
  | some "" => return .error (.sdk (.api "connection type must not be blank"))
  | kind => provisionClientIdentity lib secrets i hub kind options

def runCall (i : Nat) : ClientCall → ClientTask Outcome
  | .create hub kind options => do return .created (← createClientIdentity lib secrets i hub kind options)
  | .delete id etag => do return .deleted (← deleteClient i id etag)

/-- Calls that make and delete clients: call `i` is `calls i`. -/
def clientsSystem (calls : Nat → ClientCall) :
    AsyncSystem ClientStore ClientRequest ClientResponse Unit ClientsEvent where
  enabled := clientsEnabled
  start _ s := some s
  program i _ := do
    let outcome ← runCall lib secrets i (calls i)
    Async.modify (settle i outcome)
  world := clientsWorld calls

end

end Thalovant.Api
