import Thalovant.Lib.Async
import Thalovant.Session.LinkSupervisor

/-!
# Hub sessions

A `HubSession` holds at most one client that its factory has built, and retires one that it lets go of
until that has been closed. Its operations run at the same time, over one state (`Inner`): each as a
task that runs from one `await` to the next. What is under the lock of `held` is changed only by the
task that has the lock, which keeps it across its awaits.

A client is a number, in the order in which the factory returned them. What the hub, the network, the
factory and the operations answer is up to them (`Answer`).
-/

namespace Thalovant.Session

open Async (andThen)

/-! ## The state -/

structure Held where
  client : Option Nat
  retired : Option Nat
  /-- The generation of the task that relays the client's events. -/
  relay : Option UInt64

structure Retry where
  due : Option Nat
  wait : Duration

/-- What has been seen of the session from outside. -/
structure Seen where
  /-- What the connection-state callback has been told, in order. -/
  told : List Bool
  /-- How many clients the factory has returned. -/
  built : Nat
  /-- The clients whose close has succeeded. -/
  shut : List Nat
  /-- The operations that have begun: by which task, and on which client. -/
  begun : List (Nat × Nat)

structure Inner where
  policy : HubSessionPolicy
  settle : Duration
  held : Held
  /-- The task that has the lock of `held`. -/
  lock : Option Nat
  generation : UInt64
  /-- The event channel is open. -/
  sender : Bool
  retry : Retry
  closed : Bool
  warming : Bool
  hasClient : Bool
  /-- The connection-state callback is registered. -/
  states : Bool
  now : Nat
  /-- The warming tasks that have been spawned and have not begun. -/
  warms : Nat
  seen : Seen
  /-- A `close` has returned `Ok`. -/
  shutDown : Bool

/-- What a task waits for. -/
inductive Request where
  | lock
  | alive (client : Nat)
  | close (client : Nat)
  /-- The factory. -/
  | build
  | settled (client : Nat)
  | operation (client : Nat)
  /-- The link goes down, it is time to look, or the session is closed. -/
  | watch (client : Nat)
  | sleep (wait : Duration)

abbrev Answer : Request → Type
  | .alive _ => Bool
  | .close _ | .build | .settled _ | .operation _ => Result Unit
  | .lock | .watch _ | .sleep _ => Unit

/-- The lock is given to a task when no other has it. -/
def enabled : (q : Request) → Answer q → Inner → Bool
  | .lock, _, s => s.lock.isNone
  | _, _, _ => true

abbrev Task := Async Inner Request Answer

abbrev lockHeld : Task Unit := Async.ask Request.lock

/-- Whether the link of a client is up. -/
abbrev alive (client : Nat) : Task Bool := Async.ask (Request.alive client)

abbrev closeClient (client : Nat) : Task (Result Unit) := Async.ask (Request.close client)

abbrev connectFactory : Task (Result Unit) := Async.ask Request.build

abbrev runOperation (client : Nat) : Task (Result Unit) := Async.ask (Request.operation client)

abbrev watchLink (client : Nat) : Task Unit := Async.ask (Request.watch client)

abbrev sleep (wait : Duration) : Task Unit := Async.ask (Request.sleep wait)

def sessionClosed : ThalovantError := .connection "hub session is closed"

/-! ## Under the lock -/

/-- Give the lock back. -/
def release (s : Inner) : Inner := { s with lock := none }

/-- `held.lock().await`, and what is done under the lock by this task. -/
def withHeld {α : Type} (i : Nat) (body : Task α) : Task α := do
  lockHeld
  Async.modify fun s => { s with lock := some i }
  body.guarded release

/-- Tell the connection-state callback, if it is still registered. -/
def announce (up : Bool) (s : Inner) : Inner :=
  if s.states then { s with seen := { s.seen with told := s.seen.told ++ [up] } } else s

/-- The retired client has been closed. -/
def forget (client : Nat) (s : Inner) : Inner :=
  { s with
    held := { s.held with retired := none }
    seen := { s.seen with shut := client :: s.seen.shut } }

/-- Close the retired client, and forget it once that has succeeded. -/
def cleanup : Task (Result Unit) := do
  match (← Async.get).held.retired with
  | none => return .ok ()
  | some client =>
    match ← closeClient client with
    | .error err => return .error err
    | .ok () =>
      Async.modify (forget client)
      return .ok ()

/-- Let go of the held client: the callback is told, and the client is retired. -/
def retireClient (client : Nat) (s : Inner) : Inner :=
  let s := { s with held := { s.held with client := none } }
  let s := if s.hasClient then announce false { s with hasClient := false } else s
  { s with held := { s.held with retired := some client } }

/-- End the relay of the held client's events. -/
def unrelay (s : Inner) : Inner :=
  { s with generation := s.generation + 1, held := { s.held with relay := none } }

def dropClient : Task (Result Unit) := do
  Async.modify unrelay
  match (← Async.get).held.client with
  | none => pure ()
  | some client => Async.modify (retireClient client)
  cleanup

/-- The next step of the retry ladder. -/
def backOff (s : Inner) : Inner :=
  { s with retry := { due := some (s.now + s.retry.wait.nanos), wait := s.policy.nextWait s.retry.wait } }

/-- The factory has returned a client. -/
def build (s : Inner) : Inner := { s with seen := { s.seen with built := s.seen.built + 1 } }

/-- A client that is not to be held. -/
def retire (client : Nat) (s : Inner) : Inner :=
  { s with held := { s.held with retired := some client } }

/-- Hold a client: its events are relayed, the ladder starts afresh, and the callback is told. -/
def hold (client : Nat) (s : Inner) : Inner :=
  let generation := s.generation + 1
  let s := { s with
    generation := generation
    held := { s.held with relay := some generation, client := some client }
    retry := { due := none, wait := s.policy.retry } }
  if s.hasClient then s else announce true { s with hasClient := true }

/-- Hold a new link to the settle window. -/
def settled (client : Nat) : Task (Result Unit) := do
  if (← Async.get).settle.isZero then return .ok () else Async.ask (Request.settled client)

/-- Retire a new client, as the session was closed meanwhile. -/
def turnAway (client : Nat) : Task (Result Nat) := do
  Async.modify (retire client)
  andThen cleanup fun _ => return .error sessionClosed

/-- Hold a new client, unless the session was closed meanwhile. -/
def keep (client : Nat) : Task (Result Nat) := do
  if (← Async.get).closed then turnAway client
  else
    Async.modify (hold client)
    return .ok client

/-- The held client, or a new one; `settle` holds a new one to the settle window before counting it. -/
def establish (settle : Bool) : Task (Result Nat) := do
  if (← Async.get).closed then return .error sessionClosed
  else andThen cleanup fun _ => do
    match (← Async.get).held.client with
    | some client => return .ok client
    | none =>
      match ← connectFactory with
      | .error err =>
        Async.modify backOff
        return .error err
      | .ok () =>
        let client := (← Async.get).seen.built
        Async.modify build
        if settle then
          if (← Async.get).closed then turnAway client
          else
            match ← settled client with
            | .error err =>
              Async.modify (retire client)
              let _ ← cleanup
              Async.modify backOff
              return .error err
            | .ok () => keep client
        else keep client

/-- Let go of the held client if its link is down. -/
def dropDead : Task (Result Unit) := do
  match (← Async.get).held.client with
  | none => return .ok ()
  | some client => if ← alive client then return .ok () else dropClient

/-! ## The operations -/

/-- Make one attempt: a live link is kept, a dead one replaced. -/
def connect (i : Nat) : Task (Result Unit) := withHeld i do
  match (← Async.get).held.client with
  | none => andThen (establish true) fun _ => return .ok ()
  | some client =>
    if ← alive client then return .ok ()
    else andThen dropClient fun _ => andThen (establish true) fun _ => return .ok ()

/-- The errors of an operation that do not cost the client. -/
def spared : ThalovantError → Bool
  | .runtime _ | .policyDenied .. => true
  | _ => false

/-- An operation begins. -/
def beginOn (i client : Nat) (s : Inner) : Inner :=
  { s with seen := { s.seen with begun := (i, client) :: s.seen.begun } }

/-- Run an operation on the held client. -/
def operate (i client : Nat) : Task (Result Unit) := do
  Async.modify (beginOn i client)
  match ← runOperation client with
  | .ok () => return .ok ()
  | .error err =>
    if spared err then return .error err else andThen dropClient fun _ => return .error err

def call (i : Nat) : Task (Result Unit) := withHeld i do
  andThen dropDead fun _ => andThen (establish false) fun client => operate i client

/-- `warm`: at most one warming task at a time, and none before the ladder's step is over. -/
def warm (s : Inner) : Inner :=
  if s.closed || s.retry.due.any (s.now < ·) || s.warming then s
  else { s with warming := true, warms := s.warms + 1 }

/-- The warming task. -/
def warmTask (i : Nat) : Task (Result Unit) :=
  Async.guarded (fun s => { s with warming := false }) do
    withHeld i do andThen (establish false) fun _ => return .ok ()

def probe (i : Nat) : Task (Result Unit) := do
  if (← Async.get).lock.isSome then return .ok ()
  else
    Async.modify fun s => { s with lock := some i }
    let look : Task (Result Bool) := Async.guarded release do
      if (← Async.get).closed then return .ok false
      else andThen dropDead fun _ => do return .ok (← Async.get).held.client.isNone
    andThen look fun needs => do
      if needs then Async.modify warm
      return .ok ()

/-- Time since `run` began. -/
def elapsed (origin : Nat) (s : Inner) : Duration :=
  if h : s.now - origin < DURATION_END then ⟨s.now - origin, h⟩ else .MAX

/-- An identity that the client cannot use at all. -/
def unusable : ThalovantError → Bool
  | .missingIdentityField _ | .invalidIdentity _ | .unsupportedProtocol _ => true
  | _ => false

/-- What `run` comes to after one round of its loop: its result, or the supervisor for the next. -/
abbrev Round := Result Unit ⊕ LinkSupervisor

/-- Wait as decided, unless the session is closed. -/
def pause (decision : LinkDecision × LinkSupervisor) : Task Round := do
  if (← Async.get).closed then return .inl (.ok ())
  else
    match decision.1 with
    | .retry wait => sleep wait
    | _ => sleep .ZERO
    return .inr decision.2

/-- A round of `run` that has to connect. -/
def dial (i origin : Nat) (supervisor : LinkSupervisor) : Task Round := do
  match ← connect i with
  | .ok () => return .inr (supervisor.after .up (elapsed origin (← Async.get))).2
  | .error err =>
    if err.isHubKeyChanged || err.isClientKeyRejected then return .inl (.error err)
    else if err.isHubRefused then
      match supervisor.after .refused (elapsed origin (← Async.get)) with
      | (.giveUp _, _) => return .inl (.error err)
      | decision => pause decision
    else if unusable err then return .inl (.error err)
    else pause (supervisor.after .failed (elapsed origin (← Async.get)))

/-- A round of `run` that has a live client to watch. -/
def watch (i origin client : Nat) (supervisor : LinkSupervisor) : Task Round := do
  watchLink client
  if (← Async.get).closed then return .inl (.ok ())
  else
    let supervisor ← withHeld i do
      match (← Async.get).held.client with
      | none => return supervisor
      | some current =>
        if ← alive current then return supervisor
        else
          -- a cleanup that fails is retried by the next attempt
          let _ ← dropClient
          return (supervisor.after .dropped (elapsed origin (← Async.get))).2
    return .inr supervisor

/-- One round of the loop of `run`. -/
def round (i origin : Nat) (supervisor : LinkSupervisor) : Task Round := do
  if (← Async.get).closed then return .inl (.ok ())
  else
    match ← withHeld i do return (← Async.get).held.client with
    | none => dial i origin supervisor
    | some client =>
      if ← alive client then watch i origin client supervisor
      else dial i origin supervisor

/-- The loop of `run`, followed for so many rounds. -/
def rounds (i origin : Nat) : Nat → LinkSupervisor → Task (Result Unit)
  | 0, _ => return .ok ()
  | n + 1, supervisor => do
    match ← round i origin supervisor with
    | .inl result => return result
    | .inr supervisor => rounds i origin n supervisor

def run (i n : Nat) (refusalGrace : Duration) : Task (Result Unit) := do
  let s ← Async.get
  rounds i s.now n (.new s.policy refusalGrace)

def close (i : Nat) : Task (Result Unit) := do
  Async.modify fun s => { s with closed := true, sender := false }
  let dropped ← withHeld i dropClient
  Async.modify fun s => { s with states := false }
  return dropped

/-! ## The session -/

/-- What is called on a session, and what it spawns. -/
inductive Op where
  | connect
  | call
  | warm
  | warmTask
  | probe
  /-- `run`, followed for so many rounds. -/
  | run (n : Nat) (refusalGrace : Duration)
  | close

/-- A warming task begins when it has been spawned. -/
def start : Op → Inner → Option Inner
  | .warm, s => some (warm s)
  | .warmTask, s => if 0 < s.warms then some { s with warms := s.warms - 1 } else none
  | _, s => some s

def program (i : Nat) : Op → Task Unit
  | .connect => do let _ ← connect i
  | .call => do let _ ← call i
  | .warm => pure ()
  | .warmTask => do let _ ← warmTask i
  | .probe => do let _ ← probe i
  | .run n refusalGrace => do let _ ← run i n refusalGrace
  | .close => do
    match ← close i with
    | .ok () => Async.modify fun s => { s with shutDown := true }
    | .error _ => pure ()

/-- What happens around the operations. -/
inductive Around where
  /-- Time passes. -/
  | tick (nanos : Nat)
  | withSettleWindow (window : Duration)

def around : Around → Inner → Inner
  | .tick nanos, s => { s with now := s.now + nanos }
  | .withSettleWindow window, s => { s with settle := window }

def hubSession : AsyncSystem Inner Request Answer Op Around where
  enabled := enabled
  start := start
  program := program
  world := around

/-- A session, with a callback registered before the first connect. -/
def Inner.new (policy : HubSessionPolicy) (settle : Duration) (now : Nat) : Inner where
  policy := policy
  settle := settle
  held := { client := none, retired := none, relay := none }
  lock := none
  generation := 0
  sender := true
  retry := { due := none, wait := policy.retry }
  closed := false
  warming := false
  hasClient := false
  states := true
  now := now
  warms := 0
  seen := { told := [], built := 0, shut := [], begun := [] }
  shutDown := false

end Thalovant.Session
