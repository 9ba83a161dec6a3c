import Mathlib.Data.Finset.Card
import Mathlib.Logic.Function.Basic
import Thalovant.Client.AskCollector

/-!
# The calls of a client on one transport

Asks and queries reserve the reply they wait for on the transport, and give the reservation back
however they end. A fire-and-forget utterance reserves nothing: the transport notes when it went out.
As an ask reads a denial, it counts both.

The calls run side by side. `World` is the transport with all of them, and a step of it is one stretch
of code between two waits. A step that a call cannot take changes nothing.
-/

namespace Thalovant.Client

/-! ## What a transport has out -/

/-- Drops what is past the grace window, and any excess beyond the cap. -/
@[irreducible] def pruneUntrackedSends (now : Nat) (sends : List Nat) : List Nat :=
  let live := sends.dropWhile fun sent => now - sent > UNTRACKED_UTTERANCE_GRACE
  live.drop (live.length - 1024)

/-- The replies that are waited for, by the kind of the call and its id, and when each
fire-and-forget utterance went out. -/
structure ConnectionControl where
  activeReplies : Finset (Bool × String) := ∅
  untrackedSends : List Nat := []

namespace ConnectionControl

variable (control : ConnectionControl)

/-- Notes a fire-and-forget utterance. -/
def recordUntrackedSend (now : Nat) : ConnectionControl :=
  { control with untrackedSends := pruneUntrackedSends now (control.untrackedSends ++ [now]) }

/-- The asks, queries and fire-and-forget utterances that are out, and the utterances kept. -/
def utterancesInFlight (now : Nat) : InFlight × ConnectionControl :=
  let queries := (control.activeReplies.filter fun key => key.1 = true).card
  let asks := control.activeReplies.card - queries
  let sends := pruneUntrackedSends now control.untrackedSends
  ({ asks := asks, queries := queries, sends := sends.length },
    { control with untrackedSends := sends })

def reserveReply (query : Bool) (id : String) : Result ConnectionControl :=
  if (query, id) ∈ control.activeReplies then
    .error (.runtime "reply correlation ID is already active on this transport")
  else .ok { control with activeReplies := insert (query, id) control.activeReplies }

/-- The `Drop` of a reservation. -/
def dropReservation (key : Bool × String) : ConnectionControl :=
  { control with activeReplies := control.activeReplies.erase key }

end ConnectionControl

/-! ## Calls -/

/-- A call that waits for a reply. -/
inductive Call where
  | asking (ask : Ask)
  | querying (queryId : String)

/-- What a call reserves its reply under. -/
def Call.key : Call → Bool × String
  | .asking ask => (false, ask.requestId)
  | .querying queryId => (true, queryId)

/-- An event of the hub: when it arrived, and the utterance it was sent because of, if any. -/
structure Arrival where
  time : Nat
  event : Event
  cause : Option Nat

/-- How far a call has come. -/
inductive CallState where
  | idle
  | refused (err : ThalovantError)
  | reserved (call : Call)
  /-- An ask that is subscribed, with what it holds and what it has not read yet. -/
  | collecting (ask : Ask) (c : Collection) (inbox : List Arrival)
  | querying (queryId : String)
  /-- An ask that ended on a failure, with its reservation still in hand. -/
  | settled (ask : Ask) (c : Collection)
  /-- Over: `opened` tells whether it came as far as to send. -/
  | ended (opened : Bool)

namespace CallState

/-- The reservation a call holds. -/
def key : CallState → Option (Bool × String)
  | .reserved call => some call.key
  | .collecting ask _ _ | .settled ask _ => some (Call.asking ask).key
  | .querying queryId => some (Call.querying queryId).key
  | .idle | .refused _ | .ended _ => none

/-- A call sends once it is subscribed. What it handed to the transport may leave after its end. -/
def opened : CallState → Bool
  | .collecting _ _ _ | .querying _ | .settled _ _ | .ended true => true
  | _ => false

/-- The connection is up: the call subscribes, to send its utterance. -/
def subscribe : CallState → CallState
  | .reserved (.asking ask) => .collecting ask {} []
  | .reserved (.querying queryId) => .querying queryId
  | state => state

/-- An event goes to every ask that is subscribed. -/
def deliver (a : Arrival) : CallState → CallState
  | .collecting ask c inbox => .collecting ask c (inbox ++ [a])
  | state => state

end CallState

/-! ## The world -/

/-- Who publishes an utterance: a call, or a fire-and-forget `emit`. -/
inductive Publisher where
  | call (n : Nat)
  | emit (k : Nat)
  deriving DecidableEq

structure Publication where
  publisher : Publisher
  time : Nat

/-- A transport with the calls on it, the instants at which each `emit` was noted, and the utterances
that were published. -/
structure World where
  now : Nat := 0
  control : ConnectionControl := {}
  calls : Nat → CallState := fun _ => .idle
  emits : Nat → Option Nat := fun _ => none
  published : List Publication := []

inductive Act where
  | tick (d : Nat)
  | reserve (n : Nat) (call : Call)
  | subscribe (n : Nat)
  | record (k : Nat)
  | publish (publisher : Publisher)
  | arrive (event : Event) (cause : Option Nat)
  | read (n : Nat)
  | release (n : Nat)

/-- An ask that is about to read an event. -/
structure Reading where
  ask : Ask
  c : Collection
  arrival : Arrival
  inbox : List Arrival

namespace World

variable (w : World)

def setCall (n : Nat) (state : CallState) : World :=
  { w with calls := Function.update w.calls n state }

/-- The start of an `ask` or a `query`. -/
def reserve (n : Nat) (call : Call) : World :=
  match w.calls n with
  | .idle =>
    match w.control.reserveReply call.key.1 call.key.2 with
    | .error err => w.setCall n (.refused err)
    | .ok control => { w.setCall n (.reserved call) with control := control }
  | _ => w

/-- An `emit` of an utterance, right before it is published. -/
def record (k : Nat) : World :=
  match w.emits k with
  | none => { w with
      control := w.control.recordUntrackedSend w.now
      emits := Function.update w.emits k (some w.now) }
  | some _ => w

/-- A publisher has an utterance to send, and has not sent it yet. -/
def canPublish (publisher : Publisher) : Bool :=
  (match publisher with
    | .call n => (w.calls n).opened
    | .emit k => (w.emits k).isSome)
  && w.published.all fun p => p.publisher ≠ publisher

def publish (publisher : Publisher) : World :=
  if w.canPublish publisher then
    { w with published := w.published ++ [{ publisher := publisher, time := w.now }] }
  else w

/-- An event of the hub. What it was sent because of was published before. -/
def arrive (event : Event) (cause : Option Nat) : World :=
  if ∀ u ∈ cause, u < w.published.length then
    { w with
      calls := fun n => (w.calls n).deliver { time := w.now, event := event, cause := cause } }
  else w

/-- The event an ask reads next, unless it stops waiting first. -/
def next (n : Nat) : Option Reading :=
  match w.calls n with
  | .collecting ask c (a :: inbox) =>
    if w.now < ask.wake c then some { ask := ask, c := c, arrival := a, inbox := inbox } else none
  | _ => none

/-- An event, with what the client has out as it is read. -/
def heard (a : Arrival) : Heard where
  time := a.time
  event := a.event
  inFlight := (w.control.utterancesInFlight w.now).1

/-- The transport after an event is read: only for a denial does the ask count what is out. -/
def controlAfter (a : Arrival) : ConnectionControl :=
  if a.event.name = EVENT_POLICY_DENIED then (w.control.utterancesInFlight w.now).2 else w.control

def read (n : Nat) : World :=
  match w.next n with
  | none => w
  | some r =>
    let w' := { w with control := w.controlAfter r.arrival }
    match r.ask.hear w.now (w.heard r.arrival) r.c with
    | (c, true) => w'.setCall n (.settled r.ask c)
    | (c, false) => w'.setCall n (.collecting r.ask c r.inbox)

/-- A call ends: with its answer, with its wait run out, with an error or cancelled. -/
def release (n : Nat) : World :=
  match (w.calls n).key with
  | some key => { w.setCall n (.ended (w.calls n).opened) with
      control := w.control.dropReservation key }
  | none => w

def step : Act → World
  | .tick d => { w with now := w.now + d }
  | .reserve n call => w.reserve n call
  | .subscribe n => w.setCall n (w.calls n).subscribe
  | .record k => w.record k
  | .publish publisher => w.publish publisher
  | .arrive event cause => w.arrive event cause
  | .read n => w.read n
  | .release n => w.release n

/-- The world after the first acts of a run. -/
def after (acts : List Act) : World := acts.foldl World.step {}

@[simp] theorem after_nil : after [] = {} := rfl

theorem after_concat (acts : List Act) (act : Act) : after (acts ++ [act]) = (after acts).step act := by
  simp [after]

end World

end Thalovant.Client
