import Thalovant.Client.Correlation

/-!
# Event streams

A stream of events is a subscription to the hub's bus with a filter, a limit and a deadline. A caller
asks for the next event and may withdraw the question while it waits. What a call does between two
waits is one step here; the channel, the clock and the health probe answer in any order.
-/

namespace Thalovant.Stream

/-! ## The channel -/

/-- A receiver of a `tokio::sync::broadcast` channel: what waits for it, and how many of the oldest were
dropped because it fell behind. -/
structure Receiver where
  capacity : Nat
  waiting : List Event
  missed : Nat
  closed : Bool

/-- What `recv` of the channel gives. -/
inductive Received where
  | item (event : Event)
  | lagged (count : Nat)
  | closed

namespace Receiver

/-- `subscribe`. -/
def subscribe (capacity : Nat) : Receiver where
  capacity := capacity
  waiting := []
  missed := 0
  closed := false

/-- An event is sent; the oldest makes room. -/
def send (event : Event) (r : Receiver) : Receiver :=
  if r.waiting.length < r.capacity then { r with waiting := r.waiting ++ [event] }
  else { r with waiting := (r.waiting ++ [event]).drop 1, missed := r.missed + 1 }

/-- `recv`, if it is ready. -/
def recv (r : Receiver) : Option (Received × Receiver) :=
  if r.missed > 0 then some (.lagged r.missed, { r with missed := 0 })
  else
    match r.waiting with
    | event :: waiting => some (.item event, { r with waiting := waiting })
    | [] => if r.closed then some (.closed, r) else none

end Receiver

/-! ## The stream -/

/-- What a caller asks of a stream. -/
structure ListenOptions where
  maxEvents : Option Nat := none
  sessionId : Option String := none
  requestId : Option String := none
  predicate : Option (Event → Bool) := none

/-- `EventStream`. Of the transport only that there is one: what it says of its health is an input. -/
structure EventStream where
  receiver : Option Receiver
  transport : Bool
  eventName : String
  expected : Context
  options : ListenOptions
  deadline : Option Nat
  received : Nat

/-- Where a call waits: for the channel or a wake-up, or for the health of the transport. -/
inductive Await where
  | select (wake : Nat)
  | probe (deadline : Nat)

/-- What a call comes to before it waits: it returned, or it waits. -/
inductive Progress where
  | returned (result : Result (Option Event))
  | waits (await : Await)

namespace EventStream

def new (receiver : Receiver) (transport : Bool) (eventName : String) (options : ListenOptions)
    (deadline : Option Nat) : EventStream where
  receiver := some receiver
  transport := transport
  eventName := eventName
  expected :=
    let expected := match options.sessionId with
      | some id => Map.insert "session_id" (.string id) []
      | none => []
    match options.requestId with
    | some id => expected.insert "request_id" (.string id)
    | none => expected
  options := options
  deadline := deadline
  received := 0

def close (s : EventStream) : EventStream := { s with receiver := none }

/-- The deadline has passed. -/
def expired (s : EventStream) (now : Nat) : Bool := s.deadline.any (· ≤ now)

/-- A tenth of a second from now, or the deadline. -/
def wake (s : EventStream) (now : Nat) : Nat :=
  match s.deadline with
  | some deadline => min deadline (now + 100000000)
  | none => now + 100000000

/-- The event is one that the caller listens to. -/
def wants (s : EventStream) (event : Event) : Bool :=
  event.name = s.eventName && Client.eventMatchesContext event (some s.expected)
    && s.options.predicate.all fun filter => filter event

def EXPIRED : ThalovantError := .timeout "event stream deadline expired"

def overflow (count : Nat) : ThalovantError :=
  .runtime s!"event subscription overflow: missed {count} events"

def CLOSED : ThalovantError := .connection "event transport closed"

def UNAUTHENTICATED : ThalovantError := .connection "event transport is no longer authenticated"

/-- The head of the loop of `recv`. -/
def head (s : EventStream) (now : Nat) : EventStream × Progress :=
  if s.receiver.isNone then (s, .returned (.ok none))
  else if s.expired now then (s.close, .returned (.error EXPIRED))
  else (s, .waits (.select (s.wake now)))

/-- The loop goes on with what the channel gave. -/
def receive (s : EventStream) (now : Nat) (result : Received) : EventStream × Progress :=
  if s.expired now then (s.close, .returned (.error EXPIRED))
  else
    match result with
    | .item event =>
      if !s.wants event then s.head now
      else
        let s := { s with received := s.received + 1 }
        (if s.options.maxEvents.any (· ≤ s.received) then s.close else s,
          .returned (.ok (some event)))
    | .lagged count => (s.close, .returned (.error (overflow count)))
    | .closed => (s.close, .returned (.error CLOSED))

/-- The loop goes on with the wake-up. -/
def woken (s : EventStream) (now : Nat) : EventStream × Progress :=
  if s.expired now then (s.close, .returned (.error EXPIRED))
  else if s.transport then (s, .waits (.probe (s.wake now)))
  else s.head now

/-- The loop goes on with what the transport said of its health; none if it did not in time. -/
def probed (s : EventStream) (now : Nat) (handshakeComplete : Option Bool) : EventStream × Progress :=
  match handshakeComplete with
  | some false => (s.close, .returned (.error UNAUTHENTICATED))
  | _ => s.head now

end EventStream

/-! ## Listening -/

/-- A stream with the call that waits on it, what has arrived for it, what it took from its channel
before a terminal condition was noticed, and what its calls returned. -/
structure Listening where
  stream : EventStream
  call : Option Await
  now : Nat
  arrived : List Event
  taken : List Event
  answers : List (Result (Option Event))

/-- What happens to a stream. -/
inductive Input where
  /-- Time passes. -/
  | pass (nanos : Nat)
  /-- The hub sends an event. -/
  | arrive (event : Event)
  /-- The channel is closed. -/
  | hangUp
  /-- The caller asks for the next event. -/
  | recv
  /-- The caller withdraws the question. -/
  | withdraw
  /-- The channel is read. -/
  | receive
  /-- The wake-up is due. -/
  | wake
  /-- The transport says whether its handshake is complete. -/
  | health (handshakeComplete : Bool)
  /-- The transport did not say so in time. -/
  | healthTimeout
  /-- The caller closes the stream. -/
  | close

namespace Listening

def new (stream : EventStream) (now : Nat) : Listening where
  stream := stream
  call := none
  now := now
  arrived := []
  taken := []
  answers := []

/-- The call comes to a wait or to its end. -/
def settle (s : Listening) (outcome : EventStream × Progress) : Listening :=
  match outcome with
  | (stream, .returned result) =>
    { s with stream := stream, call := none, answers := s.answers ++ [result] }
  | (stream, .waits await) => { s with stream := stream, call := some await }

/-- The events of a result of the channel that count as taken. -/
def counted (s : Listening) : Received → List Event
  | .item event => if s.stream.expired s.now then [] else [event]
  | _ => []

/-- The channel is changed under the stream. -/
def setReceiver (s : Listening) (receiver : Receiver) : Listening :=
  { s with stream := { s.stream with receiver := some receiver } }

/-- One step; what is not due does nothing. -/
def step (s : Listening) : Input → Listening
  | .pass nanos => { s with now := s.now + nanos }
  | .arrive event =>
    match s.stream.receiver with
    | some receiver => { s.setReceiver (receiver.send event) with arrived := s.arrived ++ [event] }
    | none => s
  | .hangUp =>
    match s.stream.receiver with
    | some receiver => s.setReceiver { receiver with closed := true }
    | none => s
  | .recv =>
    match s.call with
    | none => s.settle (s.stream.head s.now)
    | some _ => s
  | .withdraw => { s with call := none }
  | .receive =>
    match s.call, s.stream.receiver.bind Receiver.recv with
    | some (.select _), some (result, receiver) =>
      let stream := { s.stream with receiver := some receiver }
      { s with taken := s.taken ++ s.counted result }.settle (stream.receive s.now result)
    | _, _ => s
  | .wake =>
    match s.call with
    | some (.select wake) => if wake ≤ s.now then s.settle (s.stream.woken s.now) else s
    | _ => s
  | .health handshakeComplete =>
    match s.call with
    | some (.probe _) => s.settle (s.stream.probed s.now (some handshakeComplete))
    | _ => s
  | .healthTimeout =>
    match s.call with
    | some (.probe deadline) => if deadline ≤ s.now then s.settle (s.stream.probed s.now none) else s
    | _ => s
  | .close =>
    match s.call with
    | none => { s with stream := s.stream.close }
    | some _ => s

/-- A run. -/
def run (s : Listening) (inputs : List Input) : Listening := inputs.foldl step s

/-- The event of a result. -/
def yielded : Result (Option Event) → Option Event
  | .ok event => event
  | .error _ => none

/-- The events that calls returned, in order. -/
def yields (s : Listening) : List Event := s.answers.filterMap yielded

end Listening

end Thalovant.Stream
