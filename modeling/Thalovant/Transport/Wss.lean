import Mathlib.Logic.Function.Basic
import Thalovant.Lib.Machine
import Thalovant.Transport.Channel

/-!
# The WebSocket transport

One Noise channel over one socket, and all that runs over them at a time: the sends of any number of
callers, each in a task of its own (`send_detached`), the readers of the link
(`handle_socket_message`), and the connect or disconnect under way.

A task runs from one `await` to the next in one step. It takes the writer's lock, then the channel's,
and keeps both until its last frame is written; `active` is the task that holds the writer's lock. A
task may be dropped at every `await`: a send by its timeout or because the link is retired, a reader
because it is aborted. Whatever the file system and the random source answer is an input of the step.
-/

namespace Thalovant.Transport

open Thalovant.Noise

/-! ## Tasks -/

inductive Job where
  | send (message : HiveMessage)
  | receive (data : Bytes) (binary : Bool)

/-- A task that waits for the writer's lock. `withdrawn`: its caller has given up. -/
structure Waiting where
  job : Job
  withdrawn : Bool

/-- How far the task that holds the writer's lock has come. -/
inductive Stage where
  /-- It waits for the channel's lock. -/
  | atNoise
  /-- A worker reads a frame of the negotiation. -/
  | reading
  /-- The next frame is not yet handed to the socket. -/
  | writing (rest : List NoiseWrite)
  /-- A frame has been handed to the socket, which has not yet flushed it. -/
  | flushing (rest : List NoiseWrite)

/-- The frames that are still to write, once there are any. -/
def Stage.rest : Stage → Option (List NoiseWrite)
  | writing rest => some rest
  | flushing rest => some rest
  | _ => none

structure Active where
  task : Nat
  job : Job
  stage : Stage
  /-- What was received, to be delivered when all is written. -/
  message : Option HiveMessage

/-- The task holds the channel's lock. -/
def Active.holdsNoise (a : Active) : Bool :=
  match a.stage with
  | .atNoise => false
  | _ => true

/-- How far a connect or a disconnect has come, under the gate. -/
inductive Lifecycle where
  | idle
  | closed
  | made
  deriving DecidableEq, Repr

/-! ## The transport -/

/-- One encrypted message: its frames, and the cipher they came from, if not that of a new session. -/
structure Sealed (snow : Snow) where
  link : Nat
  task : Nat
  cipher : Option snow.cipher.State
  frames : List NoiseWrite

/-- A frame on a socket. -/
structure Written where
  socket : Nat
  link : Nat
  task : Nat
  write : NoiseWrite

structure Wss (snow : Snow) where
  waiting : Nat → Option Waiting
  next : Nat
  active : Option Active
  /-- The socket, by the number of the link it was opened for. -/
  writer : Option Nat
  channel : Option (NoiseChannel snow)
  /-- The number of the channel. -/
  link : Nat
  sessionValid : Bool
  cancelled : Bool
  lifecycle : Lifecycle
  /-- What has been encrypted and what has been written, so far. -/
  log : List (Sealed snow)
  wire : List Written
  /-- The links with a write that was dropped or failed. -/
  spoilt : List Nat

/-- A transport that has not connected. -/
def Wss.new (snow : Snow) : Wss snow where
  waiting _ := none
  next := 0
  active := none
  writer := none
  channel := none
  link := 0
  sessionValid := false
  cancelled := false
  lifecycle := .idle
  log := []
  wire := []
  spoilt := []

/-- The frames that the session has encrypted. -/
def sealedOf (writes : List NoiseWrite) : List NoiseWrite := writes.filter NoiseWrite.binary

variable {snow : Snow}

/-- The messages encrypted under the session of a link, in order. -/
def Wss.messages (w : Wss snow) (link : Nat) : List (Sealed snow) :=
  w.log.filter fun s => s.link = link

/-- Their frames. -/
def Wss.encrypted (w : Wss snow) (link : Nat) : List NoiseWrite :=
  (w.messages link).flatMap Sealed.frames

/-- The frames of the session of a link that have been written. -/
def Wss.onWire (w : Wss snow) (link : Nat) : List NoiseWrite :=
  sealedOf ((w.wire.filter fun e => e.link = link).map Written.write)

/-- The channel's lock is free. -/
def Wss.noiseFree (w : Wss snow) : Bool := !w.active.any Active.holdsNoise

/-! ## Steps of a task -/

/-- The task ends, and its locks are free. -/
def leave (w : Wss snow) : Wss snow := { w with active := none }

/-- Every frame is written. -/
def complete (w : Wss snow) (a : Active) : Option HiveMessage × Wss snow :=
  let w := { w with channel := w.channel.map fun c => { c with failed := false } }
  match a.job with
  | .send _ => (none, leave w)
  | .receive _ _ =>
    (a.message, leave { w with sessionValid := w.channel.any NoiseChannel.ready })

/-- `write_noise_frames`, before its next frame. -/
def goOn (w : Wss snow) (a : Active) : List NoiseWrite → Option HiveMessage × Wss snow
  | [] => complete w a
  | rest => (none, { w with active := some { a with stage := .writing rest } })

/-- The channel `c` has become `c'` and encrypted a message, which makes it failed until all is
written. -/
def Wss.record (w : Wss snow) (a : Active) (c c' : NoiseChannel snow) (writes : List NoiseWrite) :
    Wss snow :=
  let message : Sealed snow :=
    { link := w.link
      task := a.task
      cipher := c.session.map NoiseSession.transport
      frames := sealedOf writes }
  { w with channel := some { c' with failed := true }, log := w.log ++ [message] }

/-- `write_noise_frames`, which needs a socket. -/
def startWriting (w : Wss snow) (a : Active) (writes : List NoiseWrite) :
    Option HiveMessage × Wss snow :=
  match w.writer with
  | none => (none, leave { w with sessionValid := false })
  | some _ => goOn w a writes

variable {σ : Type} (env : ChannelEnv σ)

/-- `handle_socket_message`, after the channel has read the frame. -/
def received (w : Wss env.snow) (a : Active) (c : NoiseChannel env.snow) :
    Result (Option HiveMessage × List NoiseWrite) × Link env → Option HiveMessage × Wss env.snow
  | (.error _, (c', _)) => (none, leave { w with channel := some c', sessionValid := false })
  | (.ok (message, writes), (c', _)) => 
    startWriting (w.record a c c' writes) { a with message := message } writes

/-- The task takes the channel's lock. -/
def takeNoise (w : Wss env.snow) (a : Active) (world : σ) : Option HiveMessage × Wss env.snow :=
  match w.channel with
  | none => (none, leave w)
  | some c =>
    match a.job with
    | .send message =>
      if w.sessionValid then
        match encode env message (c, world) with
        | (.error _, (c', _)) => (none, leave { w with channel := some c', sessionValid := false })
        | (.ok writes, (c', _)) => startWriting (w.record a c c' writes) a writes
      else (none, leave w)
    | .receive data binary =>
      if c.session.isSome then
        if w.sessionValid then received env w a c (receive env data binary (c, world))
        else (none, leave w)
      else (none, { w with active := some { a with stage := .reading } })

/-- The worker has read its frame. -/
def finishReading (w : Wss env.snow) (a : Active) (world : σ) : Option HiveMessage × Wss env.snow :=
  match w.channel, a.job with
  | some c, .receive data binary => received env w a c (receive env data binary (c, world))
  | _, _ => (none, w)

/-- The task is dropped, or its write fails. -/
def stop (w : Wss snow) (a : Active) : Wss snow :=
  match a.stage with
  | .atNoise => leave w
  -- the channel stays with the worker, which drops it
  | .reading => leave { w with sessionValid := false, channel := none }
  | .writing _ | .flushing _ =>
    leave { w with sessionValid := false, spoilt := w.spoilt ++ [w.link] }

/-! ## Steps of the transport -/

inductive WssEvent (σ : Type) where
  | submit (job : Job)
  | withdraw (task : Nat)
  | takeWriter (task : Nat)
  /-- A reader is aborted while it waits. -/
  | abort (task : Nat)
  | takeNoise (world : σ)
  | finishReading (world : σ)
  | handOver
  | flushed
  | stop
  | cancel (cancelled : Bool)
  /-- `session_valid` is cleared: by a retiring, or by `reset_noise`, which then clears the channel. -/
  | invalidate
  | clear
  /-- The steps of `disconnect_inner` and `connect_locked`. -/
  | closeWriter
  | makeChannel (identity : Identity) (stateDir : Option String) (forceXx : Bool)
      (adoptFrom : Option String)
  | openSocket
  | giveUp

/-- The writer's lock goes to a waiting task. A send whose caller has given up ends. -/
def takeWriter (w : Wss snow) (i : Nat) (t : Waiting) : Wss snow :=
  let w := { w with waiting := Function.update w.waiting i none }
  match t.job with
  | .send _ =>
    if t.withdrawn || w.cancelled then w
    else { w with active := some { task := i, job := t.job, stage := .atNoise, message := none } }
  | .receive _ _ =>
    { w with active := some { task := i, job := t.job, stage := .atNoise, message := none } }

/-- One step. It answers with the message that it delivers. A step that is not possible does nothing. -/
def wssStep (w : Wss env.snow) : WssEvent σ → Option HiveMessage × Wss env.snow
  | .submit job => (none, { w with
      waiting := Function.update w.waiting w.next (some { job := job, withdrawn := false })
      next := w.next + 1 })
  | .withdraw i => (none, { w with
      waiting := Function.update w.waiting i
        ((w.waiting i).map fun t => { t with withdrawn := true }) })
  | .takeWriter i =>
    match w.active, w.waiting i with
    | none, some t => (none, takeWriter w i t)
    | _, _ => (none, w)
  | .abort i => (none, { w with waiting := Function.update w.waiting i none })
  | .takeNoise world =>
    match w.active with
    | some { task, job, stage := .atNoise, message } =>
      takeNoise env w { task, job, stage := .atNoise, message } world
    | _ => (none, w)
  | .finishReading world =>
    match w.active with
    | some { task, job, stage := .reading, message } =>
      finishReading env w { task, job, stage := .reading, message } world
    | _ => (none, w)
  | .handOver =>
    match w.active, w.writer with
    | some { task, job, stage := .writing (write :: rest), message }, some socket =>
      (none, { w with
        wire := w.wire ++ [{ socket := socket, link := w.link, task := task, write := write }]
        active := some { task, job, stage := .flushing rest, message } })
    | _, _ => (none, w)
  | .flushed =>
    match w.active with
    | some { task, job, stage := .flushing rest, message } =>
      goOn w { task, job, stage := .flushing rest, message } rest
    | _ => (none, w)
  | .stop =>
    match w.active with
    | some a => (none, stop w a)
    | none => (none, w)
  | .cancel cancelled => (none, { w with cancelled := cancelled })
  | .invalidate => (none, { w with sessionValid := false })
  | .clear => (none, if w.noiseFree then { w with channel := none } else w)
  | .closeWriter =>
    (none, if w.active.isNone then { w with writer := none, lifecycle := .closed } else w)
  | .makeChannel identity stateDir forceXx adoptFrom =>
    (none, if w.lifecycle = .closed && w.noiseFree then
      { w with
        link := w.link + 1
        channel := some (NoiseChannel.new env.snow identity stateDir forceXx adoptFrom)
        lifecycle := .made }
      else w)
  | .openSocket =>
    (none, if w.lifecycle = .made && w.active.isNone then
      { w with writer := some w.link, lifecycle := .idle } else w)
  | .giveUp => (none, { w with lifecycle := .idle })

end Thalovant.Transport
