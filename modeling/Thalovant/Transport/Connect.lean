import Mathlib.Logic.Function.Basic
import Thalovant.Lib.Machine
import Thalovant.Noise.Pins
import Thalovant.Transport.ChannelSteps

/-!
# Connects over one noise store

Clients connect over one store. A connect makes a KK attempt when a pin is held, and follows one that
did not authenticate at once by an XX attempt (`connect_kk_then_xx`). Each attempt has a channel of
its own; what happens on it, in which order, is up to the hub and the network.

The steps of all clients interleave. One step of `connect_kk_then_xx` is one from one `await` to the
next: `connect` clears the flags, `openLink` is where the transport makes the channel of an attempt,
`finish` is where the attempt returns and the connect goes on or ends, and `cancel` is where its
caller stops waiting. Between them the link's reader runs, also that of a link which an earlier
connect has left behind, until `openLink` ends it.

Before the session a frame is read by a worker that owns the channel. When its caller is cancelled
(`abandon`) the worker goes on by itself, drops the channel, and installs its result nowhere.
-/

namespace Thalovant.Transport

open Thalovant.Noise

/-- What channels over the store depend on. -/
structure Surroundings where
  snow : Snow
  numbers : Json.NumberFormat Number
  store : StoreEnv
  derivePsk : String → String → Result Bytes
  /-- The n-th draw of random bytes for a handshake, and of an id. -/
  seed : Nat → Nat
  uuid : Nat → String
  fromSlice : Bytes → Except String HiveMessage
  toVec : HiveMessage → Except String Bytes
  decodeHiveBinaryFrame : Bytes → Result HiveMessage

/-- The environment of a channel over the store. -/
abbrev Surroundings.env (S : Surroundings) : ChannelEnv Disk where
  snow := S.snow
  numbers := S.numbers
  adoptLegacyKey := Store.adoptLegacyKey S.store
  loadNoisePin := Store.loadNoisePin S.store
  loadOrCreateNoiseKey := Store.loadOrCreateNoiseKey S.store
  loadCachedPsk := Store.loadCachedPsk S.store
  saveCachedPsk := Store.saveCachedPsk S.store
  forgetCachedPsk := Store.forgetCachedPsk S.store
  pinHubKey := Store.pinHubKey S.store
  derivePsk := S.derivePsk
  drawSeed d := (S.seed d.draws, { d with draws := d.draws + 1 })
  newUuid d := (S.uuid d.draws, { d with draws := d.draws + 1 })
  fromSlice := S.fromSlice
  toVec := S.toVec
  decodeHiveBinaryFrame := S.decodeHiveBinaryFrame

/-! ## A client -/

/-- Which attempt of a connect is under way. -/
inductive Phase where
  | idle
  | first
  | second
  deriving DecidableEq, Repr

/-- One transport: its channel, and the flags of its `ConnectionControl`. -/
structure Client (snow : Snow) where
  identity : Identity
  stateDir : Option String
  adoptFrom : Option String
  channel : Option (NoiseChannel snow)
  /-- The channels whose worker was abandoned, with the frame it has to read. -/
  abandoned : List (NoiseChannel snow × Bytes × Bool)
  generation : Nat
  kkFailed : Bool
  forceXx : Bool
  phase : Phase
  /-- The attempt under way has made its channel. -/
  opened : Bool
  /-- The channels made since the connect under way began. -/
  links : Nat

/-- A client that has not connected. -/
def Client.new (snow : Snow) (identity : Identity) (stateDir adoptFrom : Option String) :
    Client snow where
  identity := identity
  stateDir := stateDir
  adoptFrom := adoptFrom
  channel := none
  abandoned := []
  generation := 0
  kkFailed := false
  forceXx := false
  phase := .idle
  opened := false
  links := 0

/-- A step of a client. `written` says whether everything there was to write went out. -/
inductive LinkStep where
  | connect
  | openLink
  | frame (data : Bytes) (binary written : Bool)
  /-- The caller of a frame's worker is cancelled. -/
  | abandon (data : Bytes) (binary : Bool)
  /-- The n-th abandoned worker runs. -/
  | worker (n : Nat)
  | send (message : HiveMessage) (written : Bool)
  /-- The hub turns the credentials away: a close with a refusal code, or a 401 or 403. -/
  | refusal
  /-- The link is reset. -/
  | drop
  | finish (result : Result Unit)
  | cancel

variable (S : Surroundings)

/-- A client and the store. -/
abbrev Party : Type := Client S.snow × Disk

/-- `drop` of a channel: an abandoned first message takes its cached credential with it. -/
def dropChannel (channel : Option (NoiseChannel S.snow)) (disk : Disk) : Disk :=
  match channel with
  | none => disk
  | some c =>
    if c.handshake.isSome && c.session.isNone then
      (Store.forgetCachedPsk S.store c.stateDir c.nodeId disk).2
    else disk

/-- `note_failure`: whether a KK attempt did not authenticate. -/
def noteFailure (err : ThalovantError) (channel : NoiseChannel S.snow) (kkFailed : Bool) : Bool :=
  kkFailed || ((err.isHubRefused || err.isHubKeyChanged) && channel.kkFailed)

/-- `receive_noise`, and the writes that follow it. -/
def receiveNoise (data : Bytes) (binary written : Bool) (channel : NoiseChannel S.snow) :
    Party S → Party S := fun (client, disk) =>
  match receive S.env data binary (channel, disk) with
  | (.error err, (channel', disk)) =>
    ({ client with
        channel := some channel'
        kkFailed := if channel.session.isSome then client.kkFailed
          else noteFailure S err channel' client.kkFailed }, disk)
  | (.ok _, (channel', disk)) =>
    ({ client with channel := some { channel' with failed := !written } }, disk)

/-- `encode`, and the writes that follow it. -/
def sendNoise (message : HiveMessage) (written : Bool) (channel : NoiseChannel S.snow) :
    Party S → Party S := fun (client, disk) =>
  match encode S.env message (channel, disk) with
  | (.error _, (channel', disk)) => ({ client with channel := some channel' }, disk)
  | (.ok _, (channel', disk)) =>
    ({ client with channel := some { channel' with failed := !written } }, disk)

/-- The worker of a frame before the session takes the channel, and its caller is gone. -/
def abandon (data : Bytes) (binary : Bool) (channel : NoiseChannel S.snow) (client : Client S.snow) :
    Client S.snow :=
  if channel.session.isSome then client
  else { client with channel := none, abandoned := (channel, data, binary) :: client.abandoned }

/-- An abandoned worker reads its frame and drops the channel. -/
def finishWorker (n : Nat) (channel : NoiseChannel S.snow) (data : Bytes) (binary : Bool) :
    Party S → Party S := fun (client, disk) =>
  let (_, channel', disk) := receive S.env data binary (channel, disk)
  ({ client with abandoned := client.abandoned.eraseIdx n }, dropChannel S (some channel') disk)

/-- `connect_attempt`, until its channel is made. -/
def openLink : Party S → Party S := fun (client, disk) =>
  ({ client with
      channel := some
        (NoiseChannel.new S.snow client.identity client.stateDir client.forceXx client.adoptFrom)
      opened := true
      links := client.links + 1 },
    dropChannel S client.channel disk)

/-- Where an attempt returns to `connect_kk_then_xx`. -/
def finish (result : Result Unit) (client : Client S.snow) :
    Option (Result Unit) × Client S.snow :=
  match client.phase with
  | .idle => (none, client)
  | .first =>
    match result, client.kkFailed with
    | .error _, true =>
      (none, { client with kkFailed := false, forceXx := true, phase := .second, opened := false })
    | result, _ => (some result, { client with phase := .idle, opened := false })
  | .second => (some result, { client with forceXx := false, phase := .idle, opened := false })

/-- One step of a client: what the connect returns, if it does, and what it leaves. -/
def clientStep : Party S → LinkStep → Option (Result Unit) × Party S := fun (client, disk) step =>
  match step with
  | .connect =>
    (none, if client.phase = .idle then
      { client with
        generation := client.generation + 1
        kkFailed := false
        forceXx := false
        phase := .first
        opened := false
        links := 0 }
      else client, disk)
  | .openLink =>
    (none, if client.phase = .idle || client.opened then (client, disk)
      else openLink S (client, disk))
  | .frame data binary written =>
    (none, match client.channel with
      | none => (client, disk)
      | some channel => receiveNoise S data binary written channel (client, disk))
  | .abandon data binary =>
    (none, match client.channel with
      | none => client
      | some channel => abandon S data binary channel client, disk)
  | .worker n =>
    (none, match client.abandoned[n]? with
      | none => (client, disk)
      | some (channel, data, binary) => finishWorker S n channel data binary (client, disk))
  | .send message written =>
    (none, match client.channel with
      | none => (client, disk)
      | some channel => sendNoise S message written channel (client, disk))
  | .refusal =>
    (none, { client with
      kkFailed := client.kkFailed || client.channel.any NoiseChannel.kkPending }, disk)
  | .drop => (none, { client with channel := none }, dropChannel S client.channel disk)
  | .finish result => ((finish S result client).1, (finish S result client).2, disk)
  | .cancel => (none, { client with phase := .idle, opened := false }, disk)

/-! ## Clients over one store -/

variable {ι : Type} [DecidableEq ι]

/-- The clients and the store they share. -/
structure Clients (ι : Type) where
  client : ι → Client S.snow
  disk : Disk

/-- One client takes a step. -/
def clientsStep (w : Clients S ι) (x : ι × LinkStep) : Option (Result Unit) × Clients S ι :=
  let r := clientStep S (w.client x.1, w.disk) x.2
  (r.1, { client := Function.update w.client x.1 r.2.1, disk := r.2.2 })

end Thalovant.Transport
