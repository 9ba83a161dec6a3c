import Mathlib.Logic.Function.Basic
import Thalovant.Lib.Machine

/-!
# The event handlers of a session

Each event is handed to every handler of its type, on a task of its own. Threads register and remove
handlers, dispatch events and close the session at the same time: `step` takes a thread from one
section under a lock to the next. The handlers are under one lock, and the tasks of each handler are
under one of its own (`Tasks`), so a dispatch starts tasks from a copy of the handlers.
-/

namespace Thalovant.Session.Handlers

/-! ## The state -/

/-- The tasks one handler still has running, by task number, and whether it has been removed. -/
structure Tasks where
  retired : Bool
  running : List (UInt64 × Nat)

structure Registration where
  id : Nat
  eventType : String
  deriving DecidableEq

/-- A task of a handler: the tasks are counted as they are started. -/
structure Started where
  task : Nat
  handler : Nat
  number : UInt64
  deriving DecidableEq

/-- Where a thread is between two sections. -/
inductive Thread where
  | idle
  /-- `on` has found the session open. -/
  | registering (eventType : String)
  /-- `off` has removed the handler, and has yet to retire it. -/
  | removing (id : Nat)
  /-- A relay has found the session open and the link its own, and dispatches an event. -/
  | dispatching (name : String)
  /-- The copies of a dispatch that are left: the handler and the number of its task. -/
  | starting (left : List (Nat × UInt64))
  /-- `close` has set the flag. -/
  | closing
  /-- `close` has closed the event channel, and lets go of the client. -/
  | dropping
  | taking (ok : Bool)
  /-- `close` has taken the handlers: those that it has yet to retire. -/
  | forgetting (ok : Bool) (left : List Nat)

structure Registry where
  closed : Bool
  /-- The event channel is open. -/
  sender : Bool
  generation : UInt64
  /-- The last identifier handed out: a `u64` of the source, which no run of fewer than 2 ^ 64 steps
  exceeds (`nextId_lt`). -/
  nextId : Nat
  nextTask : UInt64
  events : List Registration
  /-- The state callbacks. -/
  states : List Nat
  tasks : Nat → Tasks
  threads : Nat → Thread
  /-- The tasks that have not ended. -/
  live : List Started
  aborted : List Nat
  /-- The handlers of the tasks that have been started, in order. -/
  started : List Nat
  /-- The handlers of which an `off` has returned. -/
  offs : List Nat
  /-- A `close` has returned `Ok`. -/
  shutDown : Bool

def Registry.new : Registry where
  closed := false
  sender := true
  generation := 0
  nextId := 0
  nextTask := 0
  events := []
  states := []
  tasks _ := { retired := false, running := [] }
  threads _ := .idle
  live := []
  aborted := []
  started := []
  offs := []
  shutDown := false

def Registry.goto (s : Registry) (i : Nat) (thread : Thread) : Registry :=
  { s with threads := Function.update s.threads i thread }

def Registry.setTasks (s : Registry) (id : Nat) (tasks : Tasks) : Registry :=
  { s with tasks := Function.update s.tasks id tasks }

/-! ## The tasks of a handler -/

namespace Tasks

def insert (tasks : Tasks) (number : UInt64) (task : Nat) : Tasks :=
  { tasks with running := (number, task) :: tasks.running.filter (·.1 != number) }

def remove (tasks : Tasks) (number : UInt64) : Tasks :=
  { tasks with running := tasks.running.filter (·.1 != number) }

end Tasks

/-- Start one handler task and record it, unless the handler was removed. -/
def startTask (id : Nat) (number : UInt64) (s : Registry) : Registry :=
  if (s.tasks id).retired then s
  else
    let task := s.started.length
    { s.setTasks id ((s.tasks id).insert number task) with
      live := ⟨task, id, number⟩ :: s.live
      started := s.started ++ [id] }

/-- A task ends, in whatever way, and its entry with it. -/
def finish (task : Nat) (s : Registry) : Registry :=
  match s.live.find? (·.task == task) with
  | none => s
  | some t =>
    { s.setTasks t.handler ((s.tasks t.handler).remove t.number) with
      live := s.live.filter (·.task != task) }

/-- Retire a removed handler, and abort its tasks. -/
def retire (id : Nat) (s : Registry) : Registry :=
  { s.setTasks id { retired := true, running := [] } with
    aborted := s.aborted ++ (s.tasks id).running.map Prod.snd }

/-! ## The sections -/

def on (i : Nat) (eventType : String) (s : Registry) : Registry :=
  if s.closed then s else s.goto i (.registering eventType)

def register (eventType : String) (s : Registry) : Registry :=
  { s with
    nextId := s.nextId + 1
    events := s.events ++ [{ id := s.nextId + 1, eventType := eventType }] }

def onStateChange (s : Registry) : Registry :=
  { s with nextId := s.nextId + 1, states := s.states ++ [s.nextId + 1] }

/-- An `off` returns; its identifier is one that has been handed out. -/
def returned (id : Nat) (s : Registry) : Registry :=
  if id ≤ s.nextId then { s with offs := id :: s.offs } else s

def Registry.registered (s : Registry) (id : Nat) : Bool := s.events.any (·.id == id)

def off (i id : Nat) (s : Registry) : Registry :=
  if s.registered id then { s with events := s.events.eraseP (·.id == id) }.goto i (.removing id)
  else returned id { s with states := s.states.filter (· != id) }

/-- The relay of one generation has an event. -/
def relay (i : Nat) (generation : UInt64) (name : String) (s : Registry) : Registry :=
  if s.generation != generation || s.closed || !s.sender then s else s.goto i (.dispatching name)

/-- The handlers of an event. -/
def matching (name : String) (s : Registry) : List Nat :=
  (s.events.filter (·.eventType == name)).map Registration.id

/-- Number the tasks to come, after this number. -/
def numbered (last : UInt64) : List Nat → List (Nat × UInt64)
  | [] => []
  | id :: ids => (id, last + 1) :: numbered (last + 1) ids

def dispatch (i : Nat) (name : String) (s : Registry) : Registry :=
  let ids := matching name s
  { s with nextTask := s.nextTask + UInt64.ofNat ids.length }.goto i (.starting (numbered s.nextTask ids))

/-- `close` takes the handlers and forgets the state callbacks. -/
def takeHandlers (i : Nat) (ok : Bool) (s : Registry) : Registry :=
  { s with states := [], events := [] }.goto i (.forgetting ok (s.events.map Registration.id))

/-- What is called on a session. -/
inductive Call where
  | on (eventType : String)
  | onStateChange
  | off (id : Nat)
  | relay (generation : UInt64) (name : String)
  | close

inductive Act where
  | call (i : Nat) (call : Call)
  /-- A thread goes on to its next section; `ok` is what is not up to the session. -/
  | go (i : Nat) (ok : Bool)
  | finish (task : Nat)
  /-- The client is replaced, and its relay with it. -/
  | renew

def begin (i : Nat) (s : Registry) : Call → Registry
  | .on eventType => on i eventType s
  | .onStateChange => onStateChange s
  | .off id => off i id s
  | .relay generation name => relay i generation name s
  | .close => { s with closed := true }.goto i .closing

def go (i : Nat) (ok : Bool) (s : Registry) : Registry :=
  match s.threads i with
  | .idle => s
  | .registering eventType => (register eventType s).goto i .idle
  | .removing id => (returned id (retire id s)).goto i .idle
  | .dispatching name => dispatch i name s
  | .starting [] => s.goto i .idle
  -- the handler may panic before there is a task
  | .starting ((id, number) :: left) =>
    (if ok then startTask id number s else s).goto i (.starting left)
  | .closing => { s with sender := false }.goto i .dropping
  | .dropping => { s with generation := s.generation + 1 }.goto i (.taking ok)
  | .taking ok => takeHandlers i ok s
  | .forgetting ok [] => { s with shutDown := s.shutDown || ok }.goto i .idle
  | .forgetting ok (id :: left) => (retire id s).goto i (.forgetting ok left)

def step (s : Registry) : Act → Registry
  | .call i call =>
    match s.threads i with
    | .idle => begin i s call
    | _ => s
  | .go i ok => go i ok s
  | .finish task => finish task s
  | .renew => { s with generation := s.generation + 1 }

def run (s : Registry) (acts : List Act) : Registry := acts.foldl step s

end Thalovant.Session.Handlers
