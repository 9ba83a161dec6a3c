import Thalovant.Error
import Thalovant.Lib.Async

/-!
# Connects and disconnects of one transport

`ConnectionControl` is what the transports have in common: one gate, under which at most one attempt to
connect is under way at a time, and the generation of that attempt. An attempt that does not complete
leaves the cancellation mark and a cleanup, which retires the link under the gate unless there has been
an attempt since; a disconnect does the same through a worker.

What a transport does under the gate is its own (`LinkOps`): tasks over its own state, which are cut
short where their time is up or the link is retired. Its readers run beside, without the gate.
-/

namespace Thalovant.Transport.Control

open Async (andThen)

/-! ## A transport -/

inductive TransportConnectionPhase where
  | idle
  | connecting
  | handshake
  | ready
  | closed
  | error
  deriving DecidableEq

structure TransportHealth where
  connected : Bool
  handshakeComplete : Bool
  lastError : Option String
  phase : TransportConnectionPhase

/-- The health of a link, by whether its session is ready and whether it is cancelled. -/
def noiseHealth (health : TransportHealth) (ready cancelled : Bool) : TransportHealth :=
  let health := if cancelled then
    { health with
      connected := false
      handshakeComplete := false
      phase := if health.phase = .closed then .closed else .error }
    else health
  let health := { health with handshakeComplete := health.handshakeComplete && ready }
  if !ready && health.phase = .ready then
    { health with
      connected := false
      phase := .error
      lastError := some "Noise session interrupted; reconnect required" }
  else health

theorem noiseHealth_cancelled (health : TransportHealth) (ready : Bool) :
    (noiseHealth health ready true).connected = false := by
  by_cases hclosed : health.phase = .closed <;> simp [noiseHealth, hclosed]

/--
What is a transport's own, over its state `T` and its requests `R`: `W` are the tasks that it spawns and
`E` is what happens around it.
-/
structure LinkOps (T R : Type) (B : R → Type) (W E : Type) where
  enabled : (r : R) → B r → T → Bool
  health : T → TransportHealth
  /-- The session can be used. -/
  ready : T → Bool
  /-- The session is no longer valid. -/
  invalidate : T → T
  /-- One connect, followed for so many rounds of any loop in it. -/
  connectKkThenXx : Nat → Async T R B (Result Unit)
  disconnectLocked : Async T R B (Result Unit)
  start : W → T → Option T
  program : W → Async T R B Unit
  world : E → T → T

/-! ## The state -/

/-- What has been seen of the attempts: each has a number, in the order in which they began. -/
structure Seen (T : Type) where
  attempts : Nat
  /-- The attempt that has left the cancellation mark, if it is not a disconnect's. -/
  marker : Option Nat
  /-- Connects that failed where they found a mark: how many attempts had ended when each was called,
  and the attempt that had left the mark. -/
  blamed : List (Nat × Nat)
  /-- Disconnects that returned `Ok`: whether there had been an attempt since, and the transport. -/
  closed : List (Bool × T)
  /-- The attempt that a cleanup is of, by task. -/
  cleanup : Nat → Option Nat

structure ConnectionControl (T : Type) where
  /-- The task that has the gate. -/
  gate : Option Nat
  generation : UInt64
  cancelled : Bool
  activeAttempt : Bool
  /-- The attempt under way has completed. -/
  complete : Bool
  /-- The cleanups that have been spawned and have not begun: their generation and their attempt. -/
  cleanups : List (UInt64 × Nat)
  /-- The workers of disconnects that have been spawned and have not begun. -/
  workers : List UInt64
  transport : T
  seen : Seen T

/-- What a transport's own task is part of. -/
inductive Within where
  /-- An attempt, up to its deadline and as long as the link is not retired. -/
  | attempt
  /-- A disconnect's worker or a cleanup, up to its budget. -/
  | cleanup
  /-- Nothing: it runs beside. -/
  | beside

/-- What cuts short what a transport does. -/
inductive Cut where
  | late
  | retired

/-- What a task waits for; the gate and the health up to a deadline. -/
inductive Request (R : Type) where
  | gate
  | lock
  | health
  | own (within : Within) (r : R)

variable {T R : Type} {B : R → Type} {W E : Type}

abbrev Answer (B : R → Type) : Request R → Type
  | .gate | .health => Bool
  | .lock => Unit
  | .own _ r => Except Cut (B r)

variable (O : LinkOps T R B W E)

/--
The gate is given to a task when no other has it. A disconnect retires the link of the attempt that is
under way, which then has no other answer.
-/
def enabled : (q : Request R) → Answer B q → ConnectionControl T → Bool
  | .gate, inTime, s => !inTime || s.gate.isNone
  | .lock, _, s => s.gate.isNone
  | .health, _, _ => true
  | .own .attempt r, .ok b, s => !s.cancelled && O.enabled r b s.transport
  | .own .attempt _, .error .late, s => !s.cancelled
  | .own .attempt _, .error .retired, s => s.cancelled
  | .own _ r, .ok b, s => O.enabled r b s.transport
  | .own .cleanup _, .error .late, _ => true
  | .own _ _, .error _, _ => false

abbrev Task (T : Type) {R : Type} (B : R → Type) := Async (ConnectionControl T) (Request R) (Answer B)

/-- What the transport does, as part of a task. -/
def own {α : Type} (within : Within) (t : Async T R B α) : Task T B (Except Cut α) :=
  t.embed ConnectionControl.transport (fun t s => { s with transport := t }) (Request.own within)
    fun _ a => a

def healthcheck (s : ConnectionControl T) : TransportHealth :=
  noiseHealth (O.health s.transport) (O.ready s.transport) s.cancelled

def connectionTimeout : ThalovantError :=
  .timeout "hub connection did not complete before its deadline"

/-! ## An attempt -/

def take (i : Nat) (s : ConnectionControl T) : ConnectionControl T := { s with gate := some i }

def release (s : ConnectionControl T) : ConnectionControl T := { s with gate := none }

/-- How many attempts have ended. -/
def ended (s : ConnectionControl T) : Nat :=
  if s.activeAttempt then s.seen.attempts - 1 else s.seen.attempts

def beginAttempt (s : ConnectionControl T) : ConnectionControl T :=
  { s with
    generation := s.generation + 1
    cancelled := false
    activeAttempt := true
    complete := false
    seen := { s.seen with attempts := s.seen.attempts + 1, marker := none } }

/-- `ConnectionAttempt` is dropped: without having completed it leaves the mark and a cleanup. -/
def endAttempt (generation : UInt64) (attempt : Nat) (s : ConnectionControl T) : ConnectionControl T :=
  if s.complete then { s with activeAttempt := false }
  else
    { s with
      activeAttempt := false
      cancelled := true
      transport := O.invalidate s.transport
      cleanups := (generation, attempt) :: s.cleanups
      seen := { s.seen with marker := some attempt } }

/-- A connect fails where it finds the mark of an attempt. -/
def blame (called : Nat) (s : ConnectionControl T) : ConnectionControl T :=
  match s.cancelled, s.seen.marker with
  | true, some n => { s with seen := { s.seen with blamed := (called, n) :: s.seen.blamed } }
  | _, _ => s

def closedMeanwhile : ThalovantError := .connection "connection was closed during authentication"

/-- An attempt's own part, up to its deadline and as long as the link is not retired. -/
def authenticate (rounds called : Nat) : Task T B (Result Unit) := do
  if (← Async.get).cancelled then
    Async.modify (blame called)
    return .error closedMeanwhile
  else
    match ← own .attempt (O.connectKkThenXx rounds) with
    | .ok (.ok ()) =>
      Async.modify fun s => { s with complete := true }
      return .ok ()
    | .ok (.error err) => return .error err
    | .error .retired =>
      Async.modify (blame called)
      return .error closedMeanwhile
    | .error .late => return .error connectionTimeout

/-- `connect_with_timeout` under the gate; `joining` an attempt that was under way. -/
def connectGated (rounds called : Nat) (joining : Bool) : Task T B (Result Unit) := do
  if ← Async.ask Request.health then
    let s ← Async.get
    let health := healthcheck O s
    if health.connected && health.handshakeComplete && !s.cancelled then return .ok ()
    else if joining then
      Async.modify (blame called)
      return .error (.connection (health.lastError.getD
        "the shared connection attempt ended before authenticated readiness"))
    else
      Async.modify beginAttempt
      Async.guarded (endAttempt O (s.generation + 1) (s.seen.attempts + 1)) (authenticate O rounds called)
  else return .error connectionTimeout

def connectWithTimeout (i rounds : Nat) : Task T B (Result Unit) := do
  let s ← Async.get
  if s.gate.isNone then
    Async.modify (take i)
    Async.guarded release (connectGated O rounds (ended s) false)
  else if ← Async.ask Request.gate then
    Async.modify (take i)
    Async.guarded release (connectGated O rounds (ended s) s.activeAttempt)
  else return .error connectionTimeout

/-- The cleanup of an attempt. -/
def cleanup (i : Nat) (generation : UInt64) (attempt : Nat) : Task T B Unit := do
  Async.modify fun s =>
    { s with seen := { s.seen with cleanup := Function.update s.seen.cleanup i (some attempt) } }
  Async.ask Request.lock
  Async.modify (take i)
  Async.guarded release do
    if (← Async.get).generation != generation then return ()
    else
      let _ ← own .cleanup O.disconnectLocked
      return ()

/-- A disconnect returns `Ok`. -/
def returnOk (superseded : Bool) (s : ConnectionControl T) : ConnectionControl T :=
  { s with seen := { s.seen with closed := (superseded, s.transport) :: s.seen.closed } }

/-- What a disconnect does before its worker. -/
def disconnect (s : ConnectionControl T) : ConnectionControl T :=
  { s with
    cancelled := true
    transport := O.invalidate s.transport
    workers := s.generation :: s.workers
    seen := { s.seen with marker := none } }

/-- The worker of a disconnect. Its result is the disconnect's, unless its caller stops waiting. -/
def worker (i : Nat) (generation : UInt64) : Task T B (Result Unit) := do
  Async.ask Request.lock
  Async.modify (take i)
  Async.guarded release do
    if (← Async.get).generation != generation then
      Async.modify (returnOk true)
      return .ok ()
    else
      match ← own .cleanup O.disconnectLocked with
      | .ok (.ok ()) =>
        Async.modify (returnOk false)
        return .ok ()
      | .ok (.error err) => return .error err
      | .error _ =>
        return .error (.timeout "transport cleanup timed out; reconnect retries owned cleanup")

/-! ## The transport's tasks -/

/-- What is called on a transport, and what it spawns. -/
inductive Op (W : Type) where
  | connect (rounds : Nat)
  | disconnect
  | worker (generation : UInt64)
  | cleanup (generation : UInt64) (attempt : Nat)
  | own (w : W)

/-- Workers and cleanups begin when they have been spawned. -/
def start : Op W → ConnectionControl T → Option (ConnectionControl T)
  | .connect _, s => some s
  | .disconnect, s => some (disconnect O s)
  | .worker generation, s =>
    if generation ∈ s.workers then some { s with workers := s.workers.erase generation } else none
  | .cleanup generation attempt, s =>
    if (generation, attempt) ∈ s.cleanups then
      some { s with cleanups := s.cleanups.erase (generation, attempt) }
    else none
  | .own w, s => (O.start w s.transport).map fun t => { s with transport := t }

def program (i : Nat) : Op W → Task T B Unit
  | .connect rounds => do let _ ← connectWithTimeout O i rounds
  | .disconnect => pure ()
  | .worker generation => do let _ ← worker O i generation
  | .cleanup generation attempt => cleanup O i generation attempt
  | .own w => do let _ ← own .beside (O.program w)

def control : AsyncSystem (ConnectionControl T) (Request R) (Answer B) (Op W) E where
  enabled := enabled O
  start := start O
  program := program O
  world e s := { s with transport := O.world e s.transport }

/-- A transport that has not connected. -/
def ConnectionControl.new (transport : T) : ConnectionControl T where
  gate := none
  generation := 0
  cancelled := false
  activeAttempt := false
  complete := false
  cleanups := []
  workers := []
  transport := transport
  seen := { attempts := 0, marker := none, blamed := [], closed := [], cleanup := fun _ => none }

end Thalovant.Transport.Control
