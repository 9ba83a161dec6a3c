import Thalovant.Lib.Json.Text
import Thalovant.Transport.Link

/-!
# The links of the WebSocket transport, and their verdicts

A connect over a WebSocket opens a link, which a read task of its own reads until the socket ends. What
the link says about the credentials is kept in marks that all attempts share: an attempt forgets them,
then stops the read task before it, then opens its own link. Links are numbered by the attempt that
opened them.

What a frame does to the Noise channel is the session's matter: here it only says whether a frame of the
hub was decrypted, whether the handshake ended and by which pattern, or how it failed.
-/

namespace Thalovant.Transport.WssLink

open Control (TransportHealth TransportConnectionPhase LinkOps noiseHealth)

/-! ## Refusals -/

def REFUSAL_CLOSE_CODES : List Nat := [1000, 1005, 1008]

/-- In nanoseconds. -/
def REFUSAL_SETTLE : Nat := 750 * 1000000

def CLOSE_CODE_GRACE : Nat := 250 * 1000000

def closeRefusesAfter (code : Option Nat) (closedAfterHandshake : Option Nat) (codeLate : Nat)
    (afterAuthenticatedFrame : Bool) : Bool :=
  match code with
  | none => false
  | some code =>
    !afterAuthenticatedFrame && REFUSAL_CLOSE_CODES.contains code && codeLate ≤ CLOSE_CODE_GRACE
      && closedAfterHandshake.all (· ≤ REFUSAL_SETTLE)

def closedInHandshake (code : Nat) : ThalovantError :=
  .hubRefused ("the hub closed the link during the handshake (code " ++ toString code
    ++ "): it does not accept these credentials, or not yet")

def closedRightAfter : ThalovantError :=
  .hubRefused ("the hub closed the link right after the handshake: it does not accept these "
    ++ "credentials, or not yet")

def KEY_FOLDER : String := ". This client's key is in "

def OTHER_KEY_FOLDER : String :=
  ". Another program that reads the same identity may keep its key in "

def quoted (path : String) : String := String.ofList (Json.printString path)

/-- The hub refused this client's own key, which is in `folder`. -/
def clientKeyRejected (folder other : Option String) : ThalovantError :=
  let kept := match folder with
    | none => ""
    | some folder => KEY_FOLDER ++ quoted folder ++ match other with
      | none => ""
      | some other =>
        OTHER_KEY_FOLDER ++ quoted other ++ ", and the hub may have pinned that one"
  .hubRefused (ThalovantError.CLIENT_KEY_REJECTED ++ kept
    ++ ". A new handshake cannot fix this. Re-pair, or share the key folder: point every program "
    ++ "that uses this identity at the folder holding the key the hub trusts (set_noise_state_dir).")

/-! ## The state -/

/-- A close frame that was read. -/
structure CloseRead where
  /-- The attempt that was the last to begin. -/
  attempt : Nat
  link : Nat
  code : Nat
  /-- How long after the handshake of the link. -/
  after : Option Nat
  /-- A frame of the hub had been decrypted on the link. -/
  heard : Bool
  /-- The handshake of the link had completed by XX. -/
  completedXx : Bool
  /-- The read tasks that still ran as the attempt forgot the marks. -/
  strays : List Nat

/-- A refusal by close in the handshake that the read task of a link kept as the verdict. -/
structure VerdictKept where
  attempt : Nat
  link : Nat
  code : Nat
  /-- The read tasks that still ran as the attempt forgot the marks. -/
  strays : List Nat

/-- What is reported of the credentials: the client's key, or a refusal by close. -/
inductive Said where
  | keyRejected
  | closedRightAfter
  | closedInHandshake
  deriving DecidableEq

/-- What was reported of an attempt. -/
structure Report where
  attempt : Nat
  said : Said
  /-- The attempt that was the last to begin. -/
  latest : Nat
  /-- The read tasks that still ran as that attempt forgot the marks. -/
  strays : List Nat

/-- How far the attempt that was the last to begin has come. -/
inductive Stage where
  /-- The link before it is stopped. -/
  | stopping
  | opening
  /-- The upgrade was refused. -/
  | turnedAway
  | opened

/-- What has been seen of the links. -/
structure Seen where
  attempt : Nat
  stage : Stage
  strays : List Nat
  /-- The links on which a frame of the hub was decrypted. -/
  heardOn : List Nat
  /-- The links whose handshake completed by XX. -/
  completedOn : List Nat
  /-- When the handshake of a link was done. -/
  doneOn : List (Nat × Nat)
  closes : List CloseRead
  verdicts : List VerdictKept
  /-- The link whose close is the verdict that is kept. -/
  verdictOf : Option Nat
  /-- The attempts that succeeded. -/
  made : List Nat
  reports : List Report

structure WssTransport where
  health : TransportHealth
  sessionValid : Bool
  closedRefused : Bool
  handshakeDone : Option Nat
  /-- The handle of the read task, which has the number of its link. -/
  readTask : Option Nat
  /-- The read tasks that have been spawned and have not begun. -/
  spawned : List Nat
  /-- Those that have been spawned and have not ended. -/
  running : List Nat
  aborted : List Nat
  seen : Seen

/-- What of a transport and its surroundings does not change. -/
structure Settings where
  /-- The authorized URL of the endpoint. -/
  endpoint : Result Unit
  /-- The folder of this client's key, and another that may have one. -/
  folder : Option String
  other : Option String
  /-- What an error displays as. -/
  display : ThalovantError → String

/-! ## What is waited for -/

inductive WssRequest where
  /-- Locks, workers and a graceful close, by a read task or under the gate. -/
  | quiet (reader : Option Nat)
  /-- A read task that was aborted ends. -/
  | joined (link : Nat)
  | opened
  /-- The handshake, or as long as a connect waits for it. -/
  | notified
  | next (link : Nat)
  /-- The channel reads a frame. -/
  | received (link : Nat)
  /-- What the channel answers with is written. -/
  | written (link : Nat)
  /-- Whether a handshake by KK is under way. -/
  | kkPending (link : Nat)

inductive Opening where
  | opened
  /-- The upgrade was answered with another status. -/
  | status (code : Nat) (display : String)
  | failed (message : String)

inductive Message where
  | frame
  /-- A close frame, with its status if it has one, and when it was read. -/
  | close (code : Option Nat) (now : Nat)
  /-- A ping or a pong. -/
  | other
  | failed (message : String)
  | ended

inductive Received where
  /-- There is no channel, or its session was interrupted. -/
  | unconnected (err : ThalovantError)
  /-- A session is established: whether it has decrypted a frame of the hub, and how this one failed. -/
  | session (heard : Bool) (failure : Option ThalovantError)
  /-- The handshake failed, perhaps as an attempt by KK that did not authenticate. -/
  | failed (err : ThalovantError) (kkFailed : Bool)
  | handshake
  /-- The handshake has completed. -/
  | completed (xx : Bool)

/-- What was written, and when that was done. -/
inductive Written where
  | written (now : Nat)
  | failed (err : ThalovantError)

abbrev WssResponse : WssRequest → Type
  | .quiet _ | .joined _ | .notified => Unit
  | .opened => Opening
  | .next _ => Message
  | .received _ => Received
  | .written _ => Written
  | .kkPending _ => Bool

abbrev WssTask := Async (Marked WssTransport) WssRequest WssResponse

/-- A read task goes on as long as it has not been aborted. -/
def WssTransport.goesOn (s : WssTransport) (link : Nat) : Bool :=
  s.running.contains link && !s.aborted.contains link

def enabled : (r : WssRequest) → WssResponse r → Marked WssTransport → Bool
  | .quiet none, _, _ | .opened, _, _ | .notified, _, _ => true
  | .quiet (some link), _, s | .next link, _, s | .received link, _, s | .written link, _, s
  | .kkPending link, _, s => s.link.goesOn link
  | .joined link, _, s => !s.link.running.contains link

/-- Change the link's own state. -/
def modify (f : WssTransport → WssTransport) : WssTask Unit := Async.modify (Marked.setLink f)

def quiet (reader : Option Nat := none) : WssTask Unit := Async.ask (WssRequest.quiet reader)

/-! ## Health -/

def markDisconnected (reader : Option Nat := none) : WssTask Unit := do
  modify fun s => { s with sessionValid := false }
  quiet reader
  quiet reader
  modify fun s => { s with
    health := { s.health with connected := false, handshakeComplete := false, phase := .closed } }

variable (settings : Settings)

def markError (err : ThalovantError) (reader : Option Nat := none) : WssTask Unit := do
  modify fun s => { s with sessionValid := false }
  quiet reader
  quiet reader
  modify fun s => { s with
    health := {
      connected := false
      handshakeComplete := false
      lastError := some (settings.display err)
      phase := .error } }

def isHandshakeComplete (s : WssTransport) : Bool :=
  (noiseHealth s.health s.sessionValid false).handshakeComplete

/-! ## The read task -/

/-- Keep what a failed handshake said. -/
def noteFailure (err : ThalovantError) (kkFailed : Bool) (s : Marked WssTransport) :
    Marked WssTransport :=
  match err with
  | .connection message =>
    if err.isHubRefused || err.isHubKeyChanged then
      let verdict : HandshakeVerdict :=
        if err.isHubRefused then .refused message else .keyChanged message
      { marks := { s.marks with
          verdict := some verdict
          kkFailed := s.marks.kkFailed || kkFailed }
        link := { s.link with seen := { s.link.seen with verdictOf := none } } }
    else s
  | _ => s

/-- Keep the refusal that a close in the handshake is. -/
def noteRefusalClose (link code : Nat) (kkPending : Bool) (s : Marked WssTransport) :
    Marked WssTransport :=
  let kept : VerdictKept :=
    { attempt := s.link.seen.attempt
      link := link
      code := code
      strays := s.link.seen.strays }
  let verdict : HandshakeVerdict := match closedInHandshake code with
    | .connection message => .refused message
    | _ => .refused ""
  { marks := { s.marks with
      verdict := some verdict
      kkFailed := s.marks.kkFailed || kkPending }
    link := { s.link with
      seen := { s.link.seen with
        verdictOf := some link
        verdicts := kept :: s.link.seen.verdicts } } }

/-- A frame of the hub was decrypted. -/
def noteHeard (link : Nat) (s : Marked WssTransport) : Marked WssTransport where
  marks := { s.marks with heard := true }
  link := { s.link with seen := { s.link.seen with heardOn := link :: s.link.seen.heardOn } }

/-- The handshake has completed. -/
def noteCompleted (link : Nat) (xx : Bool) (s : Marked WssTransport) : Marked WssTransport where
  marks := { s.marks with completedXx := xx }
  link := if xx then
      { s.link with seen := { s.link.seen with completedOn := link :: s.link.seen.completedOn } }
    else s.link

/-- The session is ready, from now on if it was not. -/
def noteDone (link now : Nat) (s : WssTransport) : WssTransport :=
  match s.handshakeDone with
  | some _ => s
  | none => { s with
      handshakeDone := some now
      seen := { s.seen with doneOn := (link, now) :: s.seen.doneOn } }

/-- The frames are written that the channel answers with. -/
def answerFrame (link : Nat) (ready : Bool) : WssTask (Result Unit) := do
  match ← Async.await (WssRequest.written link) (Marked.setLink fun s => { s with sessionValid := false })
      Async.done with
  | .failed err =>
    modify fun s => { s with sessionValid := false }
    return .error err
  | .written now =>
    modify fun s => { s with sessionValid := ready }
    if ready then
      modify (noteDone link now)
      quiet link
      modify fun s => { s with health := { s.health with handshakeComplete := true } }
      return .ok ()
    else return .ok ()

def handleSocketMessage (link : Nat) : WssTask (Result Unit) := do
  quiet link
  quiet link
  match ← Async.await (WssRequest.received link)
      (Marked.setLink fun s => { s with sessionValid := false }) Async.done with
  | .unconnected err => return .error err
  | .session heard failure =>
    if heard then Async.modify (noteHeard link)
    match failure with
    | some err =>
      modify fun s => { s with sessionValid := false }
      return .error err
    | none => answerFrame link true
  | .failed err kkFailed =>
    Async.modify (noteFailure err kkFailed)
    modify fun s => { s with sessionValid := false }
    return .error err
  | .handshake => answerFrame link false
  | .completed xx =>
    Async.modify (noteCompleted link xx)
    answerFrame link true

/-- What a close frame says, by the marks. -/
def closeMarks (link code now : Nat) (s : Marked WssTransport) : Marked WssTransport :=
  let after := s.link.handshakeDone.map (now - ·)
  let refused := closeRefusesAfter (some code) after 0 s.marks.heard
  let read : CloseRead :=
    { attempt := s.link.seen.attempt
      link := link
      code := code
      after := (s.link.seen.doneOn.lookup link).map (now - ·)
      heard := s.link.seen.heardOn.contains link
      completedXx := s.link.seen.completedOn.contains link
      strays := s.link.seen.strays }
  { marks := { s.marks with
      keyRejected := refused && after.isSome && s.marks.completedXx }
    link := { s.link with
      closedRefused := refused
      seen := { s.link.seen with closes := read :: s.link.seen.closes } } }

/-- A close frame is read; one without a status is 1005. -/
def readClose (link : Nat) (status : Option Nat) (now : Nat) : WssTask Unit := do
  let code := status.getD 1005
  Async.modify (closeMarks link code now)
  let s ← Async.get
  if s.link.closedRefused && s.link.handshakeDone.isNone then
    let kkPending ← Async.ask (WssRequest.kkPending link)
    Async.modify (noteRefusalClose link code kkPending)
  markDisconnected link
  let detail := match status with
    | some code => "WSS peer closed the connection (code " ++ toString code ++ ")"
    | none => "WSS peer closed the connection without a status"
  quiet link
  modify fun s => { s with health := { s.health with lastError := some detail } }

/-- The socket has ended. -/
def endLoop (link : Nat) : WssTask Unit := do
  quiet link
  if (← Async.get).link.health.connected then markDisconnected link

/-- The loop of the read task, for so many messages. -/
def readLoop (link : Nat) : Nat → WssTask Unit
  | 0 => return ()
  | rounds + 1 => do
    match ← Async.ask (WssRequest.next link) with
    | .frame =>
      match ← handleSocketMessage link with
      | .ok () => readLoop link rounds
      | .error err =>
        markError settings err link
        endLoop link
    | .close status now =>
      readClose link status now
      endLoop link
    | .other => readLoop link rounds
    | .failed message =>
      markError settings (.connection message) link
      endLoop link
    | .ended => endLoop link

def endReader (link : Nat) (s : Marked WssTransport) : Marked WssTransport :=
  s.setLink fun s => { s with running := s.running.filter (· ≠ link) }

def reader (link rounds : Nat) : WssTask Unit :=
  Async.guarded (endReader link) (readLoop settings link rounds)

/-! ## Disconnecting -/

def disconnectInner : WssTask (Result Unit) := do
  quiet
  match (← Async.get).link.readTask with
  | none => pure ()
  | some link =>
    modify fun s => { s with readTask := none, aborted := link :: s.aborted }
    Async.ask (WssRequest.joined link)
  quiet
  quiet
  markDisconnected
  return .ok ()

/-! ## Connecting -/

/-- An attempt begins; it has forgotten what the last link said about itself. -/
def beginLink (s : WssTransport) : WssTransport :=
  { s with
    seen := { s.seen with
      attempt := s.seen.attempt + 1
      stage := .stopping
      strays := s.running
      verdictOf := none } }

/-- The link before it is stopped, and what was kept of its end is forgotten. -/
def forgetLink (s : WssTransport) : WssTransport :=
  { s with
    closedRefused := false
    handshakeDone := none
    seen := { s.seen with stage := .opening } }

/-- The upgrade was answered with a refusal. -/
def turnAway (s : WssTransport) : WssTransport :=
  { s with closedRefused := true, seen := { s.seen with stage := .turnedAway } }

/-- The read task of the link is spawned. -/
def spawnReader (s : WssTransport) : WssTransport :=
  { s with
    spawned := s.seen.attempt :: s.spawned
    running := s.seen.attempt :: s.running
    seen := { s.seen with stage := .opened } }

/-- The attempt has succeeded. -/
def markReady (s : WssTransport) : WssTransport :=
  { s with
    health := { s.health with phase := .ready }
    seen := { s.seen with made := s.seen.attempt :: s.seen.made } }

/-- What is reported of an attempt. -/
def report (attempt : Nat) (said : Said) (s : WssTransport) : WssTransport :=
  let report : Report :=
    { attempt := attempt
      said := said
      latest := s.seen.attempt
      strays := s.seen.strays }
  { s with seen := { s.seen with reports := report :: s.seen.reports } }

/-- `refusal_after_handshake` -/
def refusalAfterHandshake (attempt : Nat) : WssTask ThalovantError := do
  if (← Async.get).marks.keyRejected then
    modify (report attempt .keyRejected)
    quiet
    return clientKeyRejected settings.folder settings.other
  else
    modify (report attempt .closedRightAfter)
    return closedRightAfter

/-- The error that a failed handshake is. -/
def typed (fallback : ThalovantError) : WssTask ThalovantError := do
  let s ← Async.get
  Async.modify (Marked.setMarks fun m => { m with verdict := none })
  match s.marks.verdict with
  | some (.refused message) | some (.keyChanged message) =>
    if s.link.seen.verdictOf.isSome then modify (report s.link.seen.attempt .closedInHandshake)
    return .connection message
  | none => return fallback

/-- The link is open, and its read task is spawned before its handle is kept. -/
def openLink : WssTask Unit := do
  quiet
  quiet
  modify fun s => { s with health := { s.health with connected := true, phase := .handshake } }
  modify spawnReader
  quiet
  modify fun s => { s with readTask := some s.seen.attempt }

/-- What a connect comes to whose handshake has not completed. -/
def handshakeFailed : WssTask (Result Unit) := do
  quiet
  let cause := (← Async.get).link.health.lastError
  let _ ← disconnectInner
  let s ← Async.get
  let err ←
    if s.marks.keyRejected then refusalAfterHandshake settings s.link.seen.attempt
    else typed (match cause with
      | some reason => .connection ("v3 Noise handshake did not complete: " ++ reason)
      | none => .timeout "HiveMind WSS handshake timed out")
  markError settings err
  return .error err

def connectLocked : WssTask (Result Unit) := do
  modify beginLink
  let _ ← disconnectInner
  modify forgetLink
  quiet
  quiet
  quiet
  modify fun s => { s with
    health := { connected := false, handshakeComplete := false, lastError := none, phase := .idle } }
  quiet
  modify fun s => { s with health := { s.health with phase := .connecting } }
  match settings.endpoint with
  | .error err =>
    markError settings err
    return .error err
  | .ok () =>
    match ← Async.ask WssRequest.opened with
    | .status code display =>
      if code = 401 || code = 403 then
        modify turnAway
        let err : ThalovantError :=
          .hubRefused ("the hub refused the WebSocket upgrade (HTTP " ++ toString code ++ ")")
        markError settings err
        return .error err
      else
        markError settings (.connection display)
        return .error (.connection display)
    | .failed message =>
      markError settings (.connection message)
      return .error (.connection message)
    | .opened =>
      openLink
      quiet
      if !isHandshakeComplete (← Async.get).link then Async.ask WssRequest.notified
      quiet
      if !isHandshakeComplete (← Async.get).link then handshakeFailed settings
      else
        quiet
        modify markReady
        return .ok ()

/-! ## The transport -/

inductive WssOwn where
  /-- The read task of a link, for so many messages. -/
  | reader (link rounds : Nat)
  /-- The settle that follows an attempt that succeeded, once the link has stopped. -/
  | settle (attempt : Nat)

def start : WssOwn → Marked WssTransport → Option (Marked WssTransport)
  | .reader link _, s =>
    if link ∈ s.link.spawned then
      some (s.setLink fun s => { s with spawned := s.spawned.erase link })
    else none
  | .settle attempt, s => if attempt ∈ s.link.seen.made then some s else none

/-- `settled`, of a link that has stopped. -/
def settled (attempt : Nat) : WssTask Unit := do
  if (← Async.get).link.closedRefused then
    let _ ← refusalAfterHandshake settings attempt
  else return ()

def program : WssOwn → WssTask Unit
  | .reader link rounds => reader settings link rounds
  | .settle attempt => settled settings attempt

inductive WssEvent where
  /-- A send is cut short. -/
  | interrupt

def wssOps : LinkOps (Marked WssTransport) WssRequest WssResponse WssOwn WssEvent where
  enabled := enabled
  health s := s.link.health
  ready s := s.link.sessionValid
  invalidate s := s.setLink fun s => { s with sessionValid := false }
  connectKkThenXx _ := connectKkThenXx (connectLocked settings)
  disconnectLocked := disconnectInner
  start := start
  program := program settings
  world _ s := s.setLink fun s => { s with sessionValid := false }

/-- A step of the tasks of a WebSocket transport, or around them. -/
abbrev WssStep := PoolEvent (Control.Request WssRequest) (Control.Answer WssResponse)
  (Control.Op WssOwn) WssEvent

/-- A transport that has not connected. -/
def WssTransport.new : Marked WssTransport where
  marks := .new
  link := {
    health := {
      connected := false
      handshakeComplete := false
      lastError := none
      phase := .idle }
    sessionValid := false
    closedRefused := false
    handshakeDone := none
    readTask := none
    spawned := []
    running := []
    aborted := []
    seen := {
      attempt := 0
      stage := .stopping
      strays := []
      heardOn := []
      completedOn := []
      doneOn := []
      closes := []
      verdicts := []
      verdictOf := none
      made := []
      reports := [] } }

end Thalovant.Transport.WssLink
