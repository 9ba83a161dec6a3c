import Thalovant.Transport.Link
import Thalovant.Value

/-!
# The HTTP transport

A connect over HTTP is admitted by the hub with `/connect`, and `/disconnect` ends that. The hub
processes a request some time after it is sent, or never, and answers it then; the answer may be lost,
come after the client's timeout, or be none that acknowledges.

What a poll reads is the Noise session's matter: here it only says whether the session is ready, or how
the poll failed.
-/

namespace Thalovant.Transport.Http

open Control (TransportHealth TransportConnectionPhase LinkOps noiseHealth connectionTimeout)

/-! ## The answer to a request -/

/-- An answer: its status, as a number and as it displays, and its body, if that is JSON. -/
structure HttpReply where
  status : Nat
  display : String
  body : Option Value

def isSuccess (status : Nat) : Bool := 200 ≤ status && status < 300

/-- A member of an object. -/
def getKey (key : String) (body : Value) : Option Value := body.asObject.bind (Map.get key)

/-- The hub says that there is nothing to disconnect. -/
def alreadyDisconnected (path : String) (body : Value) : Bool :=
  path = "/disconnect" && body.asObject.any (·.length = 1)
  && match (getKey "error" body).bind Json.Value.asStr with
    | some "Already Disconnected" | some "Client is not connected" => true
    | _ => false

/-- The hub's answer is no acceptance of the request. -/
def rejected (path : String) (body : Value) : Bool :=
  body.asObject.isNone
  || (path = "/disconnect" && match getKey "ok" body with
    | some (.bool false) => true
    | _ => false)
  || ((getKey "error" body).isSome && !alreadyDisconnected path body)

def acknowledged (path : String) (body : Value) : Bool :=
  let status := (getKey "status" body).bind Json.Value.asStr
  match path with
  | "/connect" => status = some "Connected"
  | "/disconnect" => status = some "Disconnected" || alreadyDisconnected path body
  | "/send_message" => status = some "message sent" || status = some "buffered"
  | _ => true

/-- What a request's answer comes to. -/
def readReply (path : String) (reply : HttpReply) : Result Value :=
  if reply.status = 401 || reply.status = 403 then
    .error (.hubRefused ("HTTP " ++ path ++ " status " ++ reply.display))
  else if !isSuccess reply.status then
    .error (.connection ("HTTP " ++ path ++ " status " ++ reply.display))
  else match reply.body with
    | none => .error (.connection ("malformed HTTP " ++ path ++ " response"))
    | some body =>
      if rejected path body then .error (.runtime ("HTTP " ++ path ++ " rejected by the hub"))
      else if !acknowledged path body then
        .error (.connection ("HTTP " ++ path ++ " was not acknowledged"))
      else .ok body

/-! ## The hub -/

/-- The hub, as far as the `/connect` and `/disconnect` requests of one transport go; they are numbered. -/
structure Hub where
  /-- Those on their way. -/
  flight : List (Nat × String)
  processed : List Nat
  /-- The registrations that it holds: the `/connect` requests that it has processed since the last
  `/disconnect`. -/
  registrations : List Nat

/-- The hub processes a request. -/
def Hub.process (n : Nat) (hub : Hub) : Hub :=
  match hub.flight.lookup n with
  | none => hub
  | some path =>
    { flight := hub.flight.filter (·.1 ≠ n)
      processed := n :: hub.processed
      registrations := if path = "/connect" then n :: hub.registrations
        else if path = "/disconnect" then []
        else hub.registrations }

/-- A request is lost. -/
def Hub.lose (n : Nat) (hub : Hub) : Hub := { hub with flight := hub.flight.filter (·.1 ≠ n) }

/-! ## The state -/

/-- What the client has had of its `/connect` requests. -/
structure Seen where
  /-- How many requests it has sent. -/
  sent : Nat
  /-- The `/connect` requests that have been acknowledged. -/
  acked : List Nat
  /-- For each `/connect` that has been sent: the registrations that the hub held, and those that had
  been acknowledged. -/
  connects : List (List Nat × List Nat)

structure HttpTransport where
  health : TransportHealth
  /-- The Noise session is ready. -/
  ready : Bool
  admitted : Bool
  hub : Hub
  seen : Seen

/-- What of a transport and its surroundings does not change. -/
structure Settings where
  requireTlsEndpoint : Result Unit
  password : String
  /-- What an error displays as. -/
  display : ThalovantError → String

inductive HttpRequest where
  /-- Locks, or a task that is joined. -/
  | quiet
  | response (n : Nat) (path : String)
  | poll

inductive HttpAnswer where
  | reply (r : HttpReply)
  | failed (message : String)
  /-- The time for it is up. -/
  | late

inductive Polled where
  | read (ready : Bool)
  /-- Whether it was a KK attempt that did not authenticate. -/
  | failed (err : ThalovantError) (kkFailed : Bool)
  | late

abbrev HttpResponse : HttpRequest → Type
  | .quiet => Unit
  | .response _ _ => HttpAnswer
  | .poll => Polled

abbrev HttpTask := Async (Marked HttpTransport) HttpRequest HttpResponse

/-- An answer that acknowledges a request comes once the hub has processed it; any other may be a
proxy's. -/
def enabled : (r : HttpRequest) → HttpResponse r → Marked HttpTransport → Bool
  | .response n path, .reply reply, s => s.link.hub.processed.contains n || !(readReply path reply).isOk
  | _, _, _ => true

/-- Change the link's own state. -/
def modify (f : HttpTransport → HttpTransport) : HttpTask Unit := Async.modify (Marked.setLink f)

def quiet : HttpTask Unit := Async.ask HttpRequest.quiet

/-! ## Requests -/

/-- A request goes out. -/
def send (path : String) (s : HttpTransport) : HttpTransport :=
  { s with
    hub := { s.hub with flight := (s.seen.sent, path) :: s.hub.flight }
    seen := { s.seen with
      sent := s.seen.sent + 1
      connects := if path = "/connect" then (s.hub.registrations, s.seen.acked) :: s.seen.connects
        else s.seen.connects } }

/-- The answer to a request acknowledges it. -/
def acknowledge (n : Nat) (path : String) (s : HttpTransport) : HttpTransport :=
  if path = "/connect" then { s with seen := { s.seen with acked := n :: s.seen.acked } } else s

@[simp] theorem admitted_acknowledge (n : Nat) (path : String) (s : HttpTransport) :
    (acknowledge n path s).admitted = s.admitted := by
  unfold acknowledge
  split <;> rfl

/-- One request; `none` where the time for it is up. -/
def request (path : String) : HttpTask (Option (Result Unit)) := do
  let s ← Async.get
  modify (send path)
  match ← Async.ask (HttpRequest.response s.link.seen.sent path) with
  | .late => return none
  | .failed message => return some (.error (.connection message))
  | .reply reply =>
    match readReply path reply with
    | .error err => return some (.error err)
    | .ok _ =>
      modify (acknowledge s.link.seen.sent path)
      return some (.ok ())

variable (settings : Settings)

def markConnectionError (err : ThalovantError) : HttpTask Unit := do
  quiet
  modify fun s => { s with ready := false }
  quiet
  modify fun s => { s with
    health := {
      connected := false
      handshakeComplete := false
      lastError := some (settings.display err)
      phase := .error } }

/-! ## Connecting -/

def isHandshakeComplete (s : HttpTransport) : Bool :=
  (noiseHealth s.health s.ready false).handshakeComplete

/-- One poll; `none` where the time for it is up. -/
def pollCurrentSession : HttpTask (Option (Result Unit)) := do
  quiet
  if !(← Async.get).link.health.connected then return some (.ok ())
  else
    match ← Async.ask HttpRequest.poll with
    | .late => return none
    | .read ready =>
      modify fun s => { s with
        ready := ready
        health := { s.health with handshakeComplete := s.health.handshakeComplete || ready } }
      return some (.ok ())
    | .failed err kkFailed =>
      Async.modify (Marked.setMarks fun m => { m with kkFailed := m.kkFailed || kkFailed })
      markConnectionError settings err
      return some (.error err)

/-- Poll until the handshake is complete, for so many rounds; `none` where the time for it is up. -/
def handshake : Nat → HttpTask (Option (Result Unit))
  | 0 => return none
  | rounds + 1 => do
    quiet
    if isHandshakeComplete (← Async.get).link then return some (.ok ())
    else
      match ← pollCurrentSession settings with
      | none => return none
      | some (.error err) => return some (.error err)
      | some (.ok ()) => handshake rounds

/-- The admission and the handshake; `none` where the time for it is up. -/
def connectInner (rounds : Nat) : HttpTask (Option (Result Unit)) := do
  match settings.requireTlsEndpoint with
  | .error err => return some (.error err)
  | .ok () =>
    if settings.password = "" then
      return some (.error (.missingIdentityField
        "password: v3 Noise requires the identity password"))
    else
      quiet
      modify fun s => { s with ready := false }
      match ← request "/connect" with
      | none => return none
      | some (.error err) => return some (.error err)
      | some (.ok ()) =>
        modify fun s => { s with admitted := true }
        quiet
        modify fun s => { s with
          health := { s.health with connected := true, phase := .handshake } }
        match ← handshake settings rounds with
        | none => return none
        | some (.error err) => return some (.error err)
        | some (.ok ()) =>
          quiet
          modify fun s => { s with health := { s.health with phase := .ready } }
          quiet
          return some (.ok ())

/-- A session that was admitted is reset before another is. -/
def resetAdmitted : HttpTask (Result Unit) := do
  if (← Async.get).link.admitted then
    let reset := (← request "/disconnect").getD (.error connectionTimeout)
    match reset with
    | .error err =>
      markConnectionError settings err
      return .error err
    | .ok () =>
      modify fun s => { s with admitted := false }
      return .ok ()
  else return .ok ()

def connectLocked (rounds : Nat) : HttpTask (Result Unit) := do
  quiet
  match ← resetAdmitted settings with
  | .error err => return .error err
  | .ok () =>
    quiet
    modify fun s => { s with ready := false }
    quiet
    modify fun s => { s with
      health := {
        connected := false
        handshakeComplete := false
        lastError := none
        phase := .connecting } }
    let result := (← connectInner settings rounds).getD
      (.error (.timeout "HiveMind HTTP Noise handshake timed out"))
    match result with
    | .ok () => return .ok ()
    | .error err =>
      markConnectionError settings err
      return .error err

/-! ## Disconnecting -/

def disconnectInner : HttpTask (Result Unit) := do
  quiet
  modify fun s => { s with ready := false }
  quiet
  modify fun s => { s with
    health := { s.health with connected := false, handshakeComplete := false, phase := .closed } }
  if !(← Async.get).link.admitted then return .ok ()
  else
    match (← request "/disconnect").getD (.error (.timeout "HTTP transport request timed out")) with
    | .error err => return .error err
    | .ok () =>
      modify fun s => { s with admitted := false }
      return .ok ()

/-! ## The transport -/

inductive HttpEvent where
  | process (n : Nat)
  | lose (n : Nat)
  /-- The poll task has polled, while the session lasted. -/
  | polled (outcome : Polled)

/-- What happens around the transport's tasks. -/
def world : HttpEvent → HttpTransport → HttpTransport
  | .process n, s => { s with hub := s.hub.process n }
  | .lose n, s => { s with hub := s.hub.lose n }
  | .polled (.read ready), s => { s with
      ready := ready
      health := { s.health with handshakeComplete := s.health.handshakeComplete || ready } }
  | .polled (.failed err _), s => { s with
      ready := false
      health := {
        connected := false
        handshakeComplete := false
        lastError := some (settings.display err)
        phase := .error } }
  | .polled .late, s => s

def httpOps : LinkOps (Marked HttpTransport) HttpRequest HttpResponse Empty HttpEvent where
  enabled := enabled
  health s := s.link.health
  ready s := s.link.ready
  invalidate s := s
  connectKkThenXx rounds := connectKkThenXx (connectLocked settings rounds)
  disconnectLocked := disconnectInner
  start w := nomatch w
  program w := nomatch w
  world e := Marked.setLink (world settings e)

/-- A step of the tasks of an HTTP transport, or around them. -/
abbrev HttpStep := PoolEvent (Control.Request HttpRequest) (Control.Answer HttpResponse)
  (Control.Op Empty) HttpEvent

/-- A transport that has not connected. -/
def HttpTransport.new : Marked HttpTransport where
  marks := .new
  link := {
    health := {
      connected := false
      handshakeComplete := false
      lastError := none
      phase := .idle }
    ready := false
    admitted := false
    hub := { flight := [], processed := [], registrations := [] }
    seen := { sent := 0, acked := [], connects := [] } }

/-! ## A hub that accepts -/

/-- An answer of the hub to a request that it has processed. -/
def accepted (path : String) : HttpReply where
  status := 200
  display := "200 OK"
  body := some (.object
    [("status", .string (if path = "/connect" then "Connected" else "Disconnected"))])

/-- A hub that answers what it has processed, and whose handshake one poll completes. -/
def accepts : (r : HttpRequest) → HttpResponse r
  | .quiet => ()
  | .response _ path => .reply (accepted path)
  | .poll => .read true

/-- Every lock is had in time, and the transport's own requests are answered so. -/
def answering (answers : (r : HttpRequest) → HttpResponse r) :
    (q : Control.Request HttpRequest) → Control.Answer HttpResponse q
  | .gate | .health => true
  | .lock => ()
  | .own _ r => .ok (answers r)

end Thalovant.Transport.Http
