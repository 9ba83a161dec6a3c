import Thalovant.Refusal

/-!
# The collector of an ask

An ask sends an utterance and collects the events that answer it: speech, completions, failures. It
waits until its deadline at most. The first speech replaces the deadline by a short wait for more
fragments, and a completion without speech by a longer wait for late speech.

Instants and waits are in nanoseconds, and the clock is ideal: reading an event takes no time, and a
wait ends at its instant. What the loop is given is what its receiver delivers, in order, each at the
instant it arrived; an event is read when the loop comes to it, at its arrival or later, and only
before the instant at which the loop wakes.
-/

namespace Thalovant.Client

/-- The first instant the clock cannot represent. -/
def INSTANT_END : Nat := 2 ^ 63 * 1000000000

/-- `now.checked_add(wait)`. -/
def checkedAdd (now : Nat) (wait : Nat) : Option Nat :=
  if now + wait < INSTANT_END then some (now + wait) else none

/-! ## What the loop is given -/

/-- What an ask is collected under. -/
structure Ask where
  context : Context := []
  requestId : String
  deadline : Nat
  emptyReplyWait : Nat := 5000000000
  replySettle : Nat := 250000000
  representable : deadline < INSTANT_END

/-- An event, when it arrived, and what the client has out as it is read. -/
structure Heard where
  time : Nat
  event : Event
  inFlight : InFlight := { asks := 1, queries := 0, sends := 0 }

/-- What a receiver delivers: an event, the report that it lagged behind, or that no more will come. -/
inductive Delivery where
  | event (heard : Heard)
  | lagged (time : Nat) (skipped : Nat)
  | closed (time : Nat)

def Delivery.time : Delivery → Nat
  | .event heard => heard.time
  | .lagged time _ => time
  | .closed time => time

/-! ## What the loop keeps -/

structure Collection where
  events : List Event := []
  mediaBudget : ReplyMediaBudget := {}
  fragments : List String := []
  hardFailure : Option Event := none
  softFailure : Option Event := none
  emptyDeadline : Option Nat := none
  settleDeadline : Option Nat := none
  /-- The events given to `remember`. -/
  remembered : List Event := []

/-- The text with one space between its words. -/
def normalized (text : String) : String := joinWords (splitWhitespace text)

def pushFragment (fragments : List String) (text : String) : List String :=
  if normalized text = "" then fragments
  else if fragments.getLast? ≠ some (normalized text) then fragments ++ [normalized text]
  else fragments

/-! ## The loop -/

section Kinds

variable (e : Event)

def isSpeech : Bool := e.name = EVENT_SPEAK || e.name = EVENT_OVOS_UTTERANCE_SPEAK

def isSoftMiss : Bool := e.name = EVENT_INTENT_FAILURE || e.name = EVENT_INTENT_UNMATCHED

def isHardFailure : Bool := e.name = EVENT_POLICY_DENIED || e.name = EVENT_QUERY_TIMEOUT

def isHandled : Bool := e.name = EVENT_UTTERANCE_HANDLED

end Kinds

namespace Ask

variable (ask : Ask)

/-- A wait from now on, but not past the deadline. -/
def window (now : Nat) (wait : Nat) : Nat :=
  min ((checkedAdd now wait).getD ask.deadline) ask.deadline

/-- When the loop gives up waiting. -/
def wake (c : Collection) : Nat :=
  min ((c.settleDeadline <|> c.emptyDeadline).getD ask.deadline) ask.deadline

/-- An event belongs to the ask. A denial may come without a request id. -/
def belongs (heard : Heard) : Bool :=
  if heard.event.name = EVENT_POLICY_DENIED then
    refusalBelongsToAsk heard.event.requestId ask.requestId (heard.event.data.getStr "denied_type")
      heard.inFlight
  else heard.event.requestId = some ask.requestId

/-- What an event of the ask changes, by its name. -/
def take (now : Nat) (e : Event) (c : Collection) : Collection :=
  if isSpeech e then
    let fragments := pushFragment c.fragments e.text
    if fragments ≠ [] && c.settleDeadline.isNone then
      { c with
        fragments := fragments
        settleDeadline := some (ask.window now ask.replySettle) }
    else { c with fragments := fragments }
  else if isSoftMiss e then
    { c with
      softFailure := some e
      emptyDeadline := some (c.emptyDeadline.getD (ask.window now ask.emptyReplyWait)) }
  else if isHardFailure e then { c with hardFailure := some e }
  else if isHandled e then
    { c with
      remembered := c.remembered ++ [e]
      emptyDeadline := some (c.emptyDeadline.getD (ask.window now ask.emptyReplyWait)) }
  else c

/-- One event: what is kept after it, and whether it ended the loop. -/
def hear (now : Nat) (heard : Heard) (c : Collection) : Collection × Bool :=
  if !ask.belongs heard then (c, false)
  else
    let (kept, budget) := c.mediaBudget.accept heard.event
    let c := { c with mediaBudget := budget }
    if !kept then (c, false)
    else
      let c := ask.take now heard.event c
      ({ c with events := c.events ++ [heard.event] }, c.hardFailure.isSome)

/-- How the loop ended: when, with which error of the receiver if any, and with what was kept. -/
structure Ended where
  time : Nat
  interrupted : Option ThalovantError
  collection : Collection

/-- The loop, from an instant on. -/
def collectFrom : Nat → Collection → List Delivery → Ended
  | now, c, [] => { time := max now (ask.wake c), interrupted := none, collection := c }
  | now, c, d :: rest =>
    if ask.wake c ≤ now then { time := now, interrupted := none, collection := c }
    else if ask.wake c ≤ d.time then
      -- the wait for the next event runs out first
      { time := ask.wake c, interrupted := none, collection := c }
    else
      let now := max now d.time
      match d with
      | .lagged _ skipped =>
        { time := now
          interrupted := some (.runtime ("reply event buffer overflow: skipped "
            ++ toString skipped ++ " events"))
          collection := c }
      | .closed _ =>
        { time := now
          interrupted := some (.connection "hub session closed while collecting a reply")
          collection := c }
      | .event heard =>
        match ask.hear now heard c with
        | (c, true) => { time := now, interrupted := none, collection := c }
        | (c, false) => collectFrom now c rest

/-! ## The answer -/

/-- The error of an ask that heard no speech. -/
def failure : Option Event → ThalovantError
  | some e => failureError e
  | none => .timeout "hub finished without a speak reply"

def reply (c : Collection) : Result Reply :=
  let failureEvent := c.hardFailure <|> if c.fragments = [] then c.softFailure else none
  if c.fragments = [] then .error (failure failureEvent)
  else
    .ok {
      droppedMedia := c.mediaBudget.dropped
      text := joinWords c.fragments
      utterances := c.fragments
      handled := failureEvent.isNone
      ok := failureEvent.isNone
      sessionId := ((c.events.filterMap Event.sessionId).find? fun id => !isBlank id)
        <|> ((ask.context.get "session").bind Json.Value.asObject).bind (Map.getStr "session_id")
      requestId := some ask.requestId
      events := c.events
      failureEvent := failureEvent }

/-- What an ask answers, when, and which events it handed to `remember`. -/
structure Outcome where
  result : Result Reply
  time : Nat
  remembered : List Event

def outcome (ended : Ended) : Outcome where
  result := match ended.interrupted with
    | some err => .error err
    | none => ask.reply ended.collection
  time := ended.time
  remembered := ended.collection.remembered

/-- An ask collected from an instant on, over what its receiver delivers. -/
def collectAskReply (start : Nat) (deliveries : List Delivery) : Outcome :=
  ask.outcome (ask.collectFrom start {} deliveries)

end Ask

end Thalovant.Client
