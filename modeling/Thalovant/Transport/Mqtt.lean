import Thalovant.Transport.Wss

/-!
# The MQTT transport

One Noise channel over one connection to a broker. A link has a client of its own: the requests that
wait for its event loop, which hands them to the broker one by one, the payloads that the broker has
delivered, and the task that reads these.

A send has the gate from its first step to its last, as a connect or a disconnect has; the reader does
not, and takes turns with the send at the channel's lock. `holder` is the task that has this lock.
Nothing says that a session is invalid, as over a socket: a send that fails keeps the gate until it has
cleared the channel.
-/

namespace Thalovant.Transport

open Thalovant.Noise

/-! ## The client of a link -/

/-- A request to the broker, on a topic of the identity. -/
inductive Packet where
  | subscribe
  /-- The retained status of the device. -/
  | status (online : Bool)
  | frame (write : NoiseWrite)
  | disconnect
  deriving DecidableEq, Repr

def Packet.write : Packet → Option NoiseWrite
  | frame write => some write
  | _ => none

/-- How far the task that reads what the broker has delivered has come. -/
inductive Reader where
  | idle
  /-- It waits for the channel's lock. -/
  | atNoise (payload : Bytes)
  | working
  /-- The payload was refused, or an answer could not be published. -/
  | failing
  | ended
  deriving DecidableEq, Repr

/-- `AsyncClient::new(options, 16)` -/
def REQUEST_CAPACITY : Nat := 16

/-- `mpsc::channel::<Vec<u8>>(64)` -/
def INCOMING_CAPACITY : Nat := 64

structure MqttClient where
  /-- The event loop runs. -/
  polling : Bool
  requests : List Packet
  inbox : List Bytes
  reader : Reader
  /-- What the broker has been handed and has delivered, and what the reader has taken, so far. -/
  sent : List Packet
  arrived : List Bytes
  taken : List Bytes

/-- A client that has not been opened. -/
def MqttClient.closed : MqttClient where
  polling := false
  requests := []
  inbox := []
  reader := .ended
  sent := []
  arrived := []
  taken := []

namespace MqttClient

def opened : MqttClient := { closed with polling := true, reader := .idle }

def hasRoom (c : MqttClient) : Bool := c.polling && c.requests.length < REQUEST_CAPACITY

def push (c : MqttClient) (packet : Packet) : MqttClient :=
  { c with requests := c.requests ++ [packet] }

/-- The event loop hands the next request to the broker. -/
def poll (c : MqttClient) : MqttClient :=
  match c.polling, c.requests with
  | true, packet :: requests => { c with requests := requests, sent := c.sent ++ [packet] }
  | _, _ => c

/-- The event loop ends, and its requests with it. -/
def endPolling (c : MqttClient) : MqttClient := { c with polling := false, requests := [] }

/-- The broker delivers a payload. An event loop that cannot pass it on ends. -/
def arrive (c : MqttClient) (payload : Bytes) : MqttClient :=
  if c.polling then
    if c.inbox.length < INCOMING_CAPACITY && c.reader ≠ .ended then
      { c with inbox := c.inbox ++ [payload], arrived := c.arrived ++ [payload] }
    else endPolling { c with arrived := c.arrived ++ [payload] }
  else c

/-- The reader takes the next payload. -/
def take (c : MqttClient) : MqttClient :=
  match c.reader, c.inbox with
  | .idle, payload :: inbox =>
    { c with inbox := inbox, reader := .atNoise payload, taken := c.taken ++ [payload] }
  | _, _ => c

/-- The reader ends: its work has failed, or there is no event loop and nothing left to read. -/
def endReader (c : MqttClient) : MqttClient :=
  if c.reader = .failing || (c.reader = .idle && !c.polling && c.inbox.isEmpty) then
    { c with reader := .ended }
  else c

end MqttClient

/-! ## Tasks -/

inductive SendStage where
  /-- It waits for the channel's lock. -/
  | atNoise
  | working
  /-- It has failed, and waits for the channel's lock to clear the channel. -/
  | failing
  deriving DecidableEq, Repr

/-- How far a connect or a disconnect has come. -/
inductive LinkStage where
  | begun
  /-- There is no client any more; its last requests are still to make. -/
  | closed (old : Option Nat) (farewell : List Packet)
  | made
  /-- There is a client; its first requests are still to make. -/
  | opened (greeting : List Packet)

/-- Who has the gate. -/
inductive Gate where
  | free
  | send (task : Nat) (message : HiveMessage) (stage : SendStage)
  | link (stage : LinkStage)

/-- The send that has the gate goes on. -/
def Gate.goTo (stage : SendStage) : Gate → Gate
  | send task message _ => send task message stage
  | gate => gate

/-- A send has failed and has not yet cleared the channel. -/
def Gate.failing : Gate → Bool
  | send _ _ .failing => true
  | _ => false

inductive Worker where
  | send
  | reader (link : Nat)
  deriving DecidableEq, Repr

inductive HolderStage where
  /-- A worker reads a payload of the negotiation. -/
  | reading
  /-- The next frame has no client yet. -/
  | publishing (rest : List NoiseWrite)
  /-- A frame waits for room among the requests of a client. -/
  | queueing (client : Nat) (write : NoiseWrite) (rest : List NoiseWrite)

/-- The task that has the channel's lock. -/
structure Holder where
  worker : Worker
  task : Nat
  job : Job
  stage : HolderStage
  /-- What was received, to be delivered when all is published. -/
  message : Option HiveMessage

/-! ## The transport -/

structure Mqtt (snow : Snow) where
  /-- The sends that wait for the gate. -/
  waiting : Nat → Option Waiting
  cancelled : Bool
  gate : Gate
  holder : Option Holder
  /-- The client in use, by the number of its link. -/
  client : Option Nat
  clients : Nat → MqttClient
  channel : Option (NoiseChannel snow)
  /-- The number of the channel. -/
  link : Nat
  /-- The jobs so far: a send's when it is submitted, a reader's when it has the channel. -/
  jobs : List Job
  log : List (Sealed snow)
  /-- The frames that a client has taken, so far. -/
  published : List Written
  /-- The links with frames that were not all published. -/
  spoilt : List Nat

/-- A transport that has not connected. -/
def Mqtt.new (snow : Snow) : Mqtt snow where
  waiting _ := none
  cancelled := false
  gate := .free
  holder := none
  client := none
  clients _ := .closed
  channel := none
  link := 0
  jobs := []
  log := []
  published := []
  spoilt := []

namespace Mqtt

variable {snow : Snow}

def setClient (m : Mqtt snow) (link : Nat) (f : MqttClient → MqttClient) : Mqtt snow :=
  { m with clients := Function.update m.clients link (f (m.clients link)) }

def setReader (m : Mqtt snow) (link : Nat) (reader : Reader) : Mqtt snow :=
  m.setClient link fun c => { c with reader := reader }

/-- The messages encrypted under the session of a link, in order. -/
def messages (m : Mqtt snow) (link : Nat) : List (Sealed snow) :=
  m.log.filter fun s => s.link = link

/-- The frames of the session of a link that its client has taken. -/
def publishedOn (m : Mqtt snow) (link : Nat) : List NoiseWrite :=
  sealedOf ((m.published.filter fun e => e.link = link).map Written.write)

/-- The frames of the session of a link that the broker has been handed. -/
def onBroker (m : Mqtt snow) (link : Nat) : List NoiseWrite :=
  sealedOf ((m.clients link).sent.filterMap Packet.write)

/-! ## Steps of a task -/

/-- The task that had the channel's lock has failed: a send has the channel to clear, a reader its
link to end. -/
def fail (m : Mqtt snow) (worker : Worker) : Mqtt snow :=
  match worker with
  | .send => { m with holder := none, gate := m.gate.goTo .failing }
  | .reader link => setReader { m with holder := none } link .failing

/-- Every frame is published. -/
def complete (m : Mqtt snow) (h : Holder) : Option HiveMessage × Mqtt snow :=
  let m : Mqtt snow := { m with
    holder := none
    channel := m.channel.map fun c => { c with failed := false } }
  match h.worker with
  | .send => (none, { m with gate := .free })
  | .reader link => (h.message, m.setReader link .idle)

/-- The loop over the frames, before its next one. -/
def goOn (m : Mqtt snow) (h : Holder) : List NoiseWrite → Option HiveMessage × Mqtt snow
  | [] => m.complete h
  | rest => (none, { m with holder := some { h with stage := .publishing rest } })

/-- The channel `c` has become `c'` and encrypted a message, which makes it failed until all is
published. -/
def record (m : Mqtt snow) (task : Nat) (c c' : NoiseChannel snow) (writes : List NoiseWrite) :
    Mqtt snow :=
  let message : Sealed snow :=
    { link := m.link
      task := task
      cipher := c.session.map NoiseSession.transport
      frames := sealedOf writes }
  { m with channel := some { c' with failed := true }, log := m.log ++ [message] }

/-- A holder that is dropped, or cannot publish its frame. -/
def stop (m : Mqtt snow) (h : Holder) : Mqtt snow :=
  match h.stage with
  -- the channel stays with the worker, which drops it
  | .reading => fail { m with channel := none } h.worker
  | _ => fail { m with spoilt := m.spoilt ++ [m.link] } h.worker

variable {σ : Type} (env : ChannelEnv σ)

/-- `send_encrypted`, which has the channel's lock. -/
def sendEncrypted (m : Mqtt env.snow) (task : Nat) (message : HiveMessage) (world : σ) :
    Option HiveMessage × Mqtt env.snow :=
  match m.channel with
  | none => (none, m.fail .send)
  | some c =>
    match encode env message (c, world) with
    | (.error _, (c', _)) => (none, fail { m with channel := some c' } .send)
    | (.ok writes, (c', _)) =>
      goOn { m.record task c c' writes with gate := m.gate.goTo .working }
        { worker := .send, task, job := .send message, stage := .reading, message := none } writes

/-- `handle_raw_mqtt_payload`, after the channel has read the payload. -/
def received (m : Mqtt env.snow) (h : Holder) (c : NoiseChannel env.snow) :
    Result (Option HiveMessage × List NoiseWrite) × Link env → Option HiveMessage × Mqtt env.snow
  | (.error _, (c', _)) => (none, fail { m with channel := some c' } h.worker)
  | (.ok (message, writes), (c', _)) =>
    goOn (m.record h.task c c' writes) { h with message := message } writes

/-- `handle_raw_mqtt_payload`, which has the channel's lock. -/
def handleRawMqttPayload (m : Mqtt env.snow) (link : Nat) (payload : Bytes) (world : σ) :
    Option HiveMessage × Mqtt env.snow :=
  match m.channel with
  | none => (none, m.fail (.reader link))
  | some c =>
    let job := Job.receive payload c.ready
    let h : Holder :=
      { worker := .reader link, task := m.jobs.length, job, stage := .reading, message := none }
    let m := setReader { m with jobs := m.jobs ++ [job] } link .working
    if c.session.isSome then received env m h c (receive env payload c.ready (c, world))
    else (none, { m with holder := some h })

/-- The worker has read the payload. -/
def finishReading (m : Mqtt env.snow) (h : Holder) (world : σ) :
    Option HiveMessage × Mqtt env.snow :=
  match m.channel, h.job with
  | some c, .receive payload binary => received env m h c (receive env payload binary (c, world))
  | _, _ => (none, m)

/-- `publish_frame`: the client in use. -/
def takeClient (m : Mqtt snow) (h : Holder) (write : NoiseWrite) (rest : List NoiseWrite) :
    Mqtt snow :=
  match m.client with
  | none => m.stop h
  | some client => { m with holder := some { h with stage := .queueing client write rest } }

/-- `publish_frame`: the request is made once there is room, unless there is no event loop. -/
def publish (m : Mqtt snow) (h : Holder) (client : Nat) (write : NoiseWrite)
    (rest : List NoiseWrite) : Option HiveMessage × Mqtt snow :=
  if !(m.clients client).polling then (none, m.stop h)
  else if (m.clients client).hasRoom then
    let m := m.setClient client fun c => c.push (.frame write)
    goOn { m with published := m.published ++ [{ socket := client, link := m.link, task := h.task, write := write }] }
      h rest
  else (none, m)

/-! ## Steps of a connect or a disconnect -/

/-- `disconnect_inner` takes the client, which is to say goodbye. -/
def closeClient (m : Mqtt snow) : Mqtt snow :=
  { m with client := none, gate := .link (.closed m.client [.status false, .disconnect]) }

/-- The first requests of a client: its topic, its status and the HELLO in clear text. -/
def greeting (identity : Identity) (uuid : String) : List Packet :=
  [.subscribe, .status true] ++
    match env.toVec (helloHiveMessage identity "thalovant-rust-mqtt-" uuid) with
    | .ok payload => [.frame { payload := payload, binary := false }]
    | .error _ => []

/-- The next request of a connect or a disconnect, once there is room for it. -/
def request (m : Mqtt snow) : Mqtt snow :=
  match m.gate with
  | .link (.closed (some old) (packet :: farewell)) =>
    if (m.clients old).hasRoom then
      setClient { m with gate := .link (.closed (some old) farewell) } old fun c => c.push packet
    else m
  | .link (.opened (packet :: greeting)) =>
    match m.client with
    | some client =>
      if (m.clients client).hasRoom then
        setClient { m with gate := .link (.opened greeting) } client fun c => c.push packet
      else m
    | none => m
  | _ => m

end Mqtt

/-! ## Steps of the transport -/

inductive MqttEvent (σ : Type) where
  | submit (message : HiveMessage)
  | withdraw (task : Nat)
  | takeGate (task : Nat)
  /-- The send takes the channel's lock. -/
  | encode (world : σ)
  /-- The send is retired, or its time is over. -/
  | retire
  /-- A send that has failed clears the channel. -/
  | markError
  | take (link : Nat)
  /-- The reader takes the channel's lock. -/
  | receive (link : Nat) (world : σ)
  | finishReading (world : σ)
  | abort (link : Nat)
  | endReader (link : Nat)
  | takeClient
  | publish
  | poll (link : Nat)
  | arrive (link : Nat) (payload : Bytes)
  | endPolling (link : Nat)
  | cancel (cancelled : Bool)
  | clear
  /-- The steps of `disconnect_inner` and `connect_inner`. -/
  | lock
  | closeClient
  | makeChannel (identity : Identity) (stateDir : Option String) (forceXx : Bool)
      (adoptFrom : Option String)
  | openClient (identity : Identity) (uuid : String)
  | request
  | unlock

namespace Mqtt

variable {snow : Snow}

/-- The gate goes to a waiting send, unless its caller has given up. -/
def takeGate (m : Mqtt snow) (task : Nat) (t : Waiting) : Mqtt snow :=
  let m := { m with waiting := Function.update m.waiting task none }
  match t.job with
  | .send message =>
    if t.withdrawn then m
    else { m with gate := .send task message (if m.cancelled then .failing else .atNoise) }
  | .receive _ _ => m

/-- The send is dropped where it waits. -/
def retire (m : Mqtt snow) : Mqtt snow :=
  match m.gate, m.holder with
  | .send _ _ .atNoise, _ => { m with gate := m.gate.goTo .failing }
  | .send _ _ .working, some h => if h.worker = .send then m.stop h else m
  | _, _ => m

/-- The reader is dropped where it waits. -/
def abort (m : Mqtt snow) (link : Nat) : Mqtt snow :=
  let m := match m.holder with
    | some h => if h.worker = Worker.reader link then m.stop h else m
    | none => m
  m.setReader link .ended

end Mqtt

variable {σ : Type} (env : ChannelEnv σ)

/-- One step. It answers with the message that it delivers. A step that is not possible does nothing. -/
def mqttStep (m : Mqtt env.snow) : MqttEvent σ → Option HiveMessage × Mqtt env.snow
  | .submit message => (none, { m with
      waiting := Function.update m.waiting m.jobs.length
        (some { job := .send message, withdrawn := false })
      jobs := m.jobs ++ [.send message] })
  | .withdraw i => (none, { m with
      waiting := Function.update m.waiting i
        ((m.waiting i).map fun t => { t with withdrawn := true }) })
  | .takeGate i =>
    match m.gate, m.waiting i with
    | .free, some t => (none, m.takeGate i t)
    | _, _ => (none, m)
  | .encode world =>
    match m.gate, m.holder with
    | .send task message .atNoise, none => m.sendEncrypted env task message world
    | _, _ => (none, m)
  | .retire => (none, m.retire)
  | .markError =>
    (none, if m.gate.failing && m.holder.isNone then { m with channel := none, gate := .free } else m)
  | .take link => (none, m.setClient link .take)
  | .receive link world =>
    match (m.clients link).reader, m.holder with
    | .atNoise payload, none => m.handleRawMqttPayload env link payload world
    | _, _ => (none, m)
  | .finishReading world =>
    match m.holder with
    | some { worker, task, job, stage := .reading, message } =>
      m.finishReading env { worker, task, job, stage := .reading, message } world
    | _ => (none, m)
  | .abort link => (none, m.abort link)
  | .endReader link => (none, m.setClient link .endReader)
  | .takeClient =>
    match m.holder with
    | some { worker, task, job, stage := .publishing (write :: rest), message } =>
      (none, m.takeClient { worker, task, job, stage := .publishing (write :: rest), message }
        write rest)
    | _ => (none, m)
  | .publish =>
    match m.holder with
    | some { worker, task, job, stage := .queueing client write rest, message } =>
      m.publish { worker, task, job, stage := .queueing client write rest, message } client write rest
    | _ => (none, m)
  | .poll link => (none, m.setClient link .poll)
  | .arrive link payload => (none, m.setClient link fun c => c.arrive payload)
  | .endPolling link => (none, m.setClient link .endPolling)
  | .cancel cancelled => (none, { m with cancelled := cancelled })
  | .clear => (none, if m.holder.isNone then { m with channel := none } else m)
  | .lock =>
    match m.gate with
    | .free => (none, { m with gate := .link .begun })
    | _ => (none, m)
  | .closeClient =>
    match m.gate with
    | .link _ => (none, m.closeClient)
    | _ => (none, m)
  | .makeChannel identity stateDir forceXx adoptFrom =>
    match m.gate, m.holder with
    | .link (.closed _ _), none => (none, { m with
        link := m.link + 1
        channel := some (NoiseChannel.new env.snow identity stateDir forceXx adoptFrom)
        gate := .link .made })
    | _, _ => (none, m)
  | .openClient identity uuid =>
    match m.gate with
    | .link .made => (none, { m with
        client := some m.link
        clients := Function.update m.clients m.link .opened
        gate := .link (.opened (Mqtt.greeting env identity uuid)) })
    | _ => (none, m)
  | .request => (none, m.request)
  | .unlock =>
    match m.gate with
    | .link _ => (none, { m with gate := .free })
    | _ => (none, m)

end Thalovant.Transport
