import Thalovant.Client.AskCollector
import Thalovant.Client.Correlation
import Thalovant.Intents.Definition
import Thalovant.Lib.Machine

/-!
# Describing many intents

The registrations wanted are described in windows of at most `batch`: every request of a window goes
out, then the replies are read, and only then comes the next window. One deadline is over all of them.

A step is the next thing that happens to the call: it reads the clock, its request is published or
fails, it is given an event, or a wait of it elapses, at the deadline or later. Which comes when is
free, and so is when the clock is read, except that time does not run back.

Beside what the code keeps, the state has what happened: what was sent, and for every window what it
heard.
-/

namespace Thalovant.Intents

/-- `(skill_id, intent_name, lang)`: one registration to describe. -/
abbrev Wanted := String × String × String

/-- What was found for each registration. -/
abbrev Described := List (Wanted × List IntentDefinition)

/-- Something other than an empty answer was found. -/
def Described.usable (found : Described) : Bool := found.any fun entry => !entry.2.isEmpty

def Described.has (found : Described) (key : Wanted) : Bool := found.any fun entry => entry.1 = key

/-- `HashMap::extend`: the entries of `other` stay. -/
def Described.extend (found other : Described) : Described :=
  (found.filter fun entry => !Described.has other entry.1) ++ other

/-- What the call depends on of the session and of the libraries below. -/
structure DescribeLink where
  siteId : Option String
  newRequestId : Nat → String
  lowercase : String → String

/-- One describe window. -/
structure DescribeWindow where
  unique : List Wanted
  /-- The registration of each request id, the last first. -/
  byRequest : List (String × Wanted) := []
  found : Described := []
  heard : List Event := []

inductive DescribePhase where
  /-- Before the clock is read and the first of the unsent requests goes out. -/
  | checkSend (key : Wanted) (unsent : List Wanted)
  /-- A request is being published. -/
  | emitting (unsent : List Wanted)
  /-- Before the clock is read for how long to wait. -/
  | startWait
  | waiting (within : Nat)
  /-- After a window, before the clock is read. -/
  | checkEnd
  | done (result : Result Described)

structure DescribeMany where
  now : Nat
  finish : Option Nat
  windowed : Bool
  later : List (List Wanted)
  /-- What the windows before found. -/
  total : Described
  window : DescribeWindow
  phase : DescribePhase
  past : List DescribeWindow := []
  sent : List (Wanted × String) := []
  /-- A denial, a closure or a failed send ended the call. -/
  failed : Bool := false

/-- What happens to a call. -/
inductive Happening where
  | clock
  | emitted (result : Result Unit)
  | event (event : Event)
  | lagged
  | closed
  | elapsed

structure DescribeInput where
  time : Nat
  happening : Happening

/-! ## A request -/

def describePayload (key : Wanted) : Data :=
  (((Map.insert "skill_id" (.string key.1) []).insert "intent_name" (.string key.2.1)).insert "lang"
    (.string key.2.2))

def queryContext (siteId lang : Option String) (requestId : String) : Context :=
  let base : Context := match lang with
    | some lang => Map.insert "lang" (.string lang) []
    | none => []
  Client.contextWithCorrelation (some base) none siteId lang (some requestId)

/-- The message of a request. -/
def describeMessage (link : DescribeLink) (key : Wanted) (requestId : String) :
    String × Data × Context :=
  (EVENT_INTENT_DESCRIBE, describePayload key, queryContext link.siteId (some key.2.2) requestId)

/-! ## A window -/

namespace DescribeWindow

/-- The registration that an event may be the reply for. -/
def keyOf (lowercase : String → String) (window : DescribeWindow) (event : Event) : Option Wanted :=
  match event.requestId with
  | some requestId => window.byRequest.lookup requestId
  | none =>
    (definitionsOf event).head?.bind fun first =>
      window.unique.find? fun key =>
        key.1 = first.skillId && key.2.1 = first.intentName
          && sameLanguage lowercase key.2.2 first.lang

/-- The event is the reply for a registration of the window. -/
def replyKey (lowercase : String → String) (window : DescribeWindow) (event : Event) : Option Wanted :=
  if event.name ≠ EVENT_INTENT_DESCRIBE_RESPONSE then none else window.keyOf lowercase event

/-- The event may be of a request of the window. -/
def correlates (window : DescribeWindow) (event : Event) : Bool :=
  match event.requestId with
  | some requestId => (window.byRequest.lookup requestId).isSome
  | none => true

/-- What the first reply for a registration adds. -/
def accept (lowercase : String → String) (window : DescribeWindow) (event : Event) :
    Option DescribeWindow :=
  match window.replyKey lowercase event with
  | none => none
  | some key =>
    if window.found.has key then none
    else some { window with found := window.found ++ [(key, definitionsOf event)] }

/-- Every registration of the window is answered. -/
def full (window : DescribeWindow) : Bool := window.found.length = window.unique.length

end DescribeWindow

/-! ## A call -/

def SEND_TIMED_OUT : ThalovantError := .timeout "intent describe send timed out"

/-- `chunks(n)`, of a list that is not longer than the fuel. -/
def chunks {α : Type} (n : Nat) : Nat → List α → List (List α)
  | _, [] => []
  | 0, _ :: _ => []
  | fuel + 1, x :: xs => (x :: xs).take n :: chunks n fuel ((x :: xs).drop n)

/-- The registrations wanted, each once. -/
def uniqueOf (wanted : List Wanted) : List Wanted :=
  wanted.foldl (fun unique key => if unique.contains key then unique else unique ++ [key]) []

namespace DescribeMany

/-- The time is up. -/
def timeUp (s : DescribeMany) : Bool := s.finish.any (· ≤ s.now)

def begin (s : DescribeMany) (unique : List Wanted) : DescribeMany :=
  { s with
    window := { unique := unique }
    phase := match unique with
      | [] => .done (.ok [])
      | key :: unsent => .checkSend key unsent }

def start (now deadline : Nat) (batch : Nat) (wanted : List Wanted) : DescribeMany :=
  let unique := uniqueOf wanted
  let s : DescribeMany :=
    { now := now, finish := Client.checkedAdd now deadline, windowed := false, later := [],
      total := [], window := { unique := unique },
      phase := .done (.error (.runtime "intent describe timeout is too large")) }
  if s.finish.isNone then s
  else if 0 < batch && batch < unique.length then
    match chunks batch unique.length unique with
    | [] => s
    | unique :: later => { s with windowed := true, later := later }.begin unique
  else s.begin unique

/-- The window ends with what it found. -/
def windowDone (s : DescribeMany) : DescribeMany :=
  if s.windowed then
    { s with total := s.total.extend s.window.found, phase := .checkEnd }
  else { s with phase := .done (.ok s.window.found) }

/-- The window ends with an error, which a denial, a closure or a failed send may have caused. -/
def windowFailed (s : DescribeMany) (err : ThalovantError) (caused : Bool) : DescribeMany :=
  match err with
  | .timeout _ =>
    if s.windowed && s.total.usable then { s with phase := .checkEnd }
    else { s with phase := .done (.error err), failed := caused }
  | _ => { s with phase := .done (.error err), failed := caused }

/-- A request goes out. -/
def send (link : DescribeLink) (s : DescribeMany) (key : Wanted) (unsent : List Wanted) :
    DescribeMany :=
  let requestId := link.newRequestId s.sent.length
  { s with
    window := { s.window with byRequest := (requestId, key) :: s.window.byRequest }
    sent := s.sent ++ [(key, requestId)]
    phase := .emitting unsent }

def goOn (s : DescribeMany) : List Wanted → DescribeMany
  | [] => { s with phase := .startWait }
  | key :: unsent => { s with phase := .checkSend key unsent }

/-- An event is read. -/
def hear (link : DescribeLink) (s : DescribeMany) (event : Event) : DescribeMany :=
  let heard := { s with window := { s.window with heard := s.window.heard ++ [event] } }
  if deniedTypeOf event = some EVENT_INTENT_DESCRIBE && s.window.correlates event then
    heard.windowFailed (policyDenied event) true
  else
    match heard.window.accept link.lowercase event with
    | none => heard
    | some window =>
      let accepted := { heard with window := window }
      if window.full then accepted.windowDone else accepted

def CLOSED : ThalovantError := .connection "hub session closed while waiting for a reply"

/-- The wait for replies elapses. -/
def waitElapsed (s : DescribeMany) (within : Nat) : DescribeMany :=
  if s.window.found.usable then s.windowDone
  else s.windowFailed (.timeout
    ("hub did not answer " ++ EVENT_INTENT_DESCRIBE ++ " within " ++ toString (within / 1000000)
      ++ "ms")) false

def nextWindow (s : DescribeMany) : DescribeMany :=
  match s.later with
  | [] => { s with phase := .done (.ok s.total) }
  | unique :: later => { s with later := later, past := s.past ++ [s.window] }.begin unique

/-- What happens next, at the time that it is. -/
def react (link : DescribeLink) (s : DescribeMany) (happening : Happening) : DescribeMany :=
  match s.phase, happening with
  | .checkSend key unsent, .clock =>
    if s.timeUp then s.windowFailed SEND_TIMED_OUT false else s.send link key unsent
  | .emitting unsent, .emitted (.ok ()) => s.goOn unsent
  | .emitting _, .emitted (.error err) => s.windowFailed err true
  | .emitting _, .elapsed => if s.timeUp then s.windowFailed SEND_TIMED_OUT false else s
  | .startWait, .clock => { s with phase := .waiting (s.finish.getD 0 - s.now) }
  | .waiting _, .event event => s.hear link event
  | .waiting _, .closed => s.windowFailed CLOSED true
  | .waiting within, .elapsed => if s.timeUp then s.waitElapsed within else s
  | .checkEnd, .clock => if s.timeUp then { s with phase := .done (.ok s.total) } else s.nextWindow
  | _, _ => s

/-- The message that is published. -/
def published (link : DescribeLink) (s : DescribeMany) (happening : Happening) :
    Option (String × Data × Context) :=
  match s.phase, happening with
  | .checkSend key _, .clock =>
    if s.timeUp then none
    else some (describeMessage link key (link.newRequestId s.sent.length))
  | _, _ => none

def step (link : DescribeLink) (s : DescribeMany) (input : DescribeInput) :
    Option (String × Data × Context) × DescribeMany :=
  if input.time < s.now then (none, s)
  else
    let s := { s with now := input.time }
    (s.published link input.happening, s.react link input.happening)

end DescribeMany

end Thalovant.Intents
