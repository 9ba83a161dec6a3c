import Thalovant.HiveMessage
import Thalovant.Lib.Fallible
import Thalovant.Noise.Handshake

/-!
# The Noise channel

`NoiseChannel` is the negotiation of one link: the hub's HELLO, its offer, the handshake, then the
session. It does not know the transport. Bytes come in with the flag that says whether the link
delivered them as binary, and what goes out is returned for the caller to write.

What the channel calls is its environment (`ChannelEnv`): the state folder, the derivation of the
pre-shared key, the JSON and binary codecs, random draws and `snow`. The calls that touch the world
run over a state of it, so that each may answer anything at each call.
-/

namespace Thalovant.Transport

open Thalovant.Noise

/-! ## What the channel calls -/

structure ChannelEnv (σ : Type) where
  snow : Snow
  numbers : Json.NumberFormat Number
  adoptLegacyKey : String → String → String → Fallible ThalovantError σ Bool
  loadNoisePin : Option String → String → Fallible ThalovantError σ (Option String)
  loadOrCreateNoiseKey : Option String → Fallible ThalovantError σ Bytes
  loadCachedPsk : Option String → String → Fallible ThalovantError σ (Option Bytes)
  saveCachedPsk : Option String → String → Bytes → Fallible ThalovantError σ Unit
  forgetCachedPsk : Option String → String → Fallible ThalovantError σ Unit
  pinHubKey : Option String → String → String → Fallible ThalovantError σ Unit
  derivePsk : String → String → Result Bytes
  /-- The random bytes a handshake state will draw. -/
  drawSeed : σ → Nat × σ
  /-- `Uuid::new_v4().simple()`. -/
  newUuid : σ → String × σ
  /-- `serde_json::from_slice`. -/
  fromSlice : Bytes → Except String HiveMessage
  /-- `serde_json::to_vec`. -/
  toVec : HiveMessage → Except String Bytes
  decodeHiveBinaryFrame : Bytes → Result HiveMessage

/-- Bytes for the transport to write. -/
structure NoiseWrite where
  payload : Bytes
  binary : Bool
  deriving DecidableEq, Repr

structure NoiseChannel (snow : Snow) where
  identity : Identity
  stateDir : Option String
  hello : Option Map
  nodeId : String
  handshake : Option (NoiseHandshake snow)
  session : Option (NoiseSession snow.cipher)
  failed : Bool
  forceXx : Bool
  pattern : Option String
  kkFailed : Bool
  heard : Bool
  adoptFrom : Option String

namespace NoiseChannel

/-- `NoiseChannel::new`, then `adopting`. -/
def new (snow : Snow) (identity : Identity) (stateDir : Option String) (forceXx : Bool)
    (adoptFrom : Option String) : NoiseChannel snow where
  identity := identity
  stateDir := stateDir
  hello := none
  nodeId := ""
  handshake := none
  session := none
  failed := false
  forceXx := forceXx
  pattern := none
  kkFailed := false
  heard := false
  adoptFrom := adoptFrom

variable {snow : Snow}

/-- A KK handshake is under way and has not finished. -/
def kkPending (c : NoiseChannel snow) : Bool :=
  c.session.isNone && c.handshake.isSome && c.pattern = some NOISE_PATTERN_KK

def ready (c : NoiseChannel snow) : Bool := c.session.isSome && !c.failed

end NoiseChannel

variable {σ : Type} (env : ChannelEnv σ)

/-- A channel and the world around it. -/
abbrev Link : Type := NoiseChannel env.snow × σ

abbrev Act (α : Type) : Type := Fallible ThalovantError (Link env) α

/-- A call to the world, which leaves the channel alone. -/
abbrev call {α : Type} (m : Fallible ThalovantError σ α) : Act env α := Fallible.onSnd m

/-- A draw from the world. -/
def draw {α : Type} (f : σ → α × σ) : Act env α := fun s => (.ok (f s.2).1, (s.1, (f s.2).2))

/-- An error of the JSON parser. -/
def ofJson {α : Type} : Except String α → Result α
  | .ok a => .ok a
  | .error err => .error (.json err)

/-! ## Sending -/

/-- Why `encode` refuses. -/
def notEstablished : ThalovantError :=
  .connection "refusing to send before the v3 Noise session is established"

/-- `encode`, under a session. -/
def encodeUnder (session : NoiseSession env.snow.cipher) (message : HiveMessage) :
    Act env (List NoiseWrite) := do
  let payload ← Fallible.ofExcept (ofJson (env.toVec message))
  let (encrypted, session) := encryptMessage session payload true
  Fallible.modify fun s => ({ s.1 with session := some session }, s.2)
  let frames ← Fallible.ofExcept encrypted
  return frames.map fun frame => { payload := frame, binary := true }

/-- `encode`: one message, as the frames that carry it. -/
def encode (message : HiveMessage) : Act env (List NoiseWrite) := do
  let c ← Fallible.read Prod.fst
  match c.session with
  | none => Fallible.fail notEstablished
  | some session =>
    if c.failed then Fallible.fail notEstablished else encodeUnder env session message

/-- `NoiseChannel::clear`: a handshake message in clear text. -/
def clear (params : Map) : Result NoiseWrite := do
  let payload ← ofJson (env.toVec { msgType := "shake", payload := [("noise", .object params)] })
  return { payload := payload, binary := false }

def helloHiveMessage (identity : Identity) (pre uuid : String) : HiveMessage where
  msgType := "hello"
  payload := [
    ("pubkey", .string (identity.publicKey.getD "")),
    ("session", .object [("session_id", .string (pre ++ uuid))]),
    ("site_id", .string identity.siteId)]

/-! ## The offer -/

/-- The texts of a list, the other items left out. -/
def stringList (value : Option Value) : List String :=
  match value.bind Json.Value.asArray with
  | none => []
  | some items => items.filterMap Json.Value.asStr

/-- The pre-shared key: the one kept, or a fresh one, which is then kept if it can be. -/
def cachedOrDerivedPsk (c : NoiseChannel env.snow) : Fallible ThalovantError σ Bytes := do
  match ← env.loadCachedPsk c.stateDir c.nodeId with
  | some psk => return psk
  | none =>
    let derived ← Fallible.ofExcept (env.derivePsk c.identity.password c.nodeId)
    let _ ← Fallible.attempt (env.saveCachedPsk c.stateDir c.nodeId derived)
    return derived

/-- The part of `start` between the checks and the first message. -/
def prepare (c : NoiseChannel env.snow) (offer params : Map) :
    Fallible ThalovantError σ (NoiseHandshake env.snow × String × String) := do
  let pin ← env.loadNoisePin c.stateDir c.nodeId
  -- after a failed KK, XX whatever is pinned; the pin is still checked when XX completes
  let selectionPin := if c.forceXx then none else pin
  match selectNoiseOptions (stringList (params.get "patterns")) (stringList (params.get "suites"))
      selectionPin with
  | none => Fallible.fail (.connection "no supported Noise pattern and suite")
  | some (pattern, suite) =>
    -- a node id is set with its HELLO
    let prologue :=
      buildPrologue env.numbers (c.hello.getD []) offer (noiseProtocolName pattern suite)
    let key ← env.loadOrCreateNoiseKey c.stateDir
    let psk ← cachedOrDerivedPsk env c
    let seed ← fun w => (.ok (env.drawSeed w).1, (env.drawSeed w).2)
    let handshake ←
      Fallible.ofExcept (NoiseHandshake.new env.snow pattern suite psk prologue key pin seed)
    return (handshake, pattern, suite)

/-- Copy the key and the pins of an older folder, if there is one to copy from. -/
def adoptKey (c : NoiseChannel env.snow) : Fallible ThalovantError σ Unit :=
  match c.stateDir, c.adoptFrom with
  | some target, some source => do
    let _ ← env.adoptLegacyKey target source c.nodeId
    return ()
  | _, _ => return ()

/-- `start`: answer the hub's offer with the first handshake message. -/
def start (offer params : Map) : Act env (List NoiseWrite) := do
  let c ← Fallible.read Prod.fst
  if c.nodeId = "" || c.handshake.isSome then
    Fallible.fail (.connection "unexpected Noise capability offer")
  else if c.identity.password = "" then
    Fallible.fail
      (.missingIdentityField "password: v3 Noise requires the identity password")
  else
    -- `take`, whether there is a folder to copy into or not
    Fallible.modify fun s => ({ s.1 with adoptFrom := none }, s.2)
    call env (adoptKey env c)
    let (handshake, pattern, suite) ← call env (prepare env c offer params)
    let preferences := canonicalJson env.numbers
      (.object [("binarize", .bool false), ("encodings", .array [])])
    let (written, handshake) := handshake.writeMessage (utf8 preferences)
    let msg ← Fallible.ofExcept written
    Fallible.modify fun s =>
      ({ s.1 with handshake := some handshake, pattern := some pattern }, s.2)
    let write ← Fallible.ofExcept (clear env
      [("msg", .string (hexEncode msg)), ("pattern", .string pattern), ("suite", .string suite)])
    return [write]

/-! ## The hub's answer -/

/-- The bytes of the envelope. -/
def envelope (params : Map) : Result Bytes :=
  match params.getStr "msg" with
  | none => .error (.connection "malformed Noise envelope")
  | some encoded =>
    if encoded = "" then .error (.connection "malformed Noise envelope")
    else
      match hexDecode encoded with
      | none => .error (.connection "malformed Noise envelope")
      | some msg => .ok msg

/-- The hub's answer did not authenticate: the cached credential goes, the pin stays. -/
def rejectAnswer : Act env (List NoiseWrite) := do
  let c ← Fallible.read Prod.fst
  let _ ← Fallible.attempt (call env (env.forgetCachedPsk c.stateDir c.nodeId))
  Fallible.modify fun s => ({ s.1 with
    handshake := none
    kkFailed := s.1.kkFailed || s.1.pattern = some NOISE_PATTERN_KK }, s.2)
  Fallible.fail (ThalovantError.hubRefused "the hub's Noise handshake did not authenticate under this password (wrong password, or a tampered negotiation)")

/-- The message that finishes the pattern, if it is still ours to write. -/
def finishPattern (handshake : NoiseHandshake env.snow) : Act env (List NoiseWrite) := do
  if handshake.isFinished then return []
  else
    let (written, handshake) := handshake.writeMessage []
    Fallible.modify fun s => ({ s.1 with handshake := some handshake }, s.2)
    let msg ← Fallible.ofExcept written
    let write ← Fallible.ofExcept (clear env [("msg", .string (hexEncode msg))])
    return [write]

/-- Trust on first use: a pin that is there has to be the key of the session, else it becomes it. -/
def checkHubKey (c : NoiseChannel env.snow) (remote : String) : Fallible ThalovantError σ Unit := do
  let pin ← env.loadNoisePin c.stateDir c.nodeId
  if pin.any fun pinned => !eqIgnoreAsciiCase pinned remote then
    Fallible.fail (ThalovantError.hubKeyChanged "if the hub was not reinstalled or replaced, another machine may be answering at this address. If it was, drop the stale pin with forget_noise_pin and connect again")
  else env.pinHubKey c.stateDir c.nodeId remote

/-- Install the session of a handshake, once the hub's key is the one to trust. -/
def install : Act env Unit := do
  let c ← Fallible.read Prod.fst
  Fallible.modify fun s => ({ s.1 with handshake := none }, s.2)
  match c.handshake with
  | none => Fallible.fail (.connection "Noise response before negotiation")
  | some handshake =>
    let session ← Fallible.ofExcept handshake.intoSession
    match session.remoteStaticKey with
    | none => Fallible.fail (.connection "Noise peer supplied no static identity")
    | some remote =>
      call env (checkHubKey env c remote)
      Fallible.modify fun s => ({ s.1 with session := some session }, s.2)

/-- `continue_handshake`. -/
def continueHandshake (params : Map) : Act env (List NoiseWrite) := do
  let msg ← Fallible.ofExcept (envelope params)
  let c ← Fallible.read Prod.fst
  match c.handshake with
  | none => Fallible.fail (.connection "Noise response before negotiation")
  | some handshake =>
    let (read, handshake) := handshake.readMessage msg
    Fallible.modify fun s => ({ s.1 with handshake := some handshake }, s.2)
    match read with
    | .error _ => rejectAnswer env
    | .ok _ =>
      let writes ← finishPattern env handshake
      install env
      let uuid ← draw env env.newUuid
      let hello ← encode env (helloHiveMessage c.identity "thalovant-rust-" uuid)
      return writes ++ hello

/-! ## Receiving -/

/-- `receive_inner`, of a frame under the session. -/
def receiveFrame (session : NoiseSession env.snow.cipher) (data : Bytes) :
    Act env (Option HiveMessage × List NoiseWrite) := do
  let (decrypted, session) := decryptFrame session data
  Fallible.modify fun s => ({ s.1 with session := some session }, s.2)
  let frame ← Fallible.ofExcept decrypted
  Fallible.modify fun s => ({ s.1 with heard := true }, s.2)
  match frame with
  | .partial_ => return (none, [])
  | .message payload true =>
    let message ← Fallible.ofExcept (ofJson (env.fromSlice payload))
    return (some message, [])
  | .message payload false =>
    let message ← Fallible.ofExcept (env.decodeHiveBinaryFrame payload)
    return (some message, [])

/-- The hub's HELLO. -/
def receiveHello (message : HiveMessage) : Act env (List NoiseWrite) := do
  let c ← Fallible.read Prod.fst
  if c.hello.isSome || c.handshake.isSome then
    Fallible.fail (.connection "duplicate Noise HELLO")
  else
    let nodeId := (message.payload.getStr "node_id").getD ""
    Fallible.modify fun s => ({ s.1 with nodeId := nodeId }, s.2)
    if nodeId = "" then Fallible.fail (.connection "Noise HELLO lacks node_id")
    else
      Fallible.modify fun s => ({ s.1 with hello := some message.payload }, s.2)
      return []

/-- The hub's offer, or its answer in the handshake. -/
def receiveShake (message : HiveMessage) : Act env (List NoiseWrite) :=
  match (message.payload.get "noise").bind Json.Value.asObject with
  | none => Fallible.fail (.connection "the hub did not offer v3 Noise")
  | some params =>
    if Map.containsKey "msg" params then continueHandshake env params
    else start env message.payload params

/-- `receive_inner`, of a message before the session. -/
def receiveClear (message : HiveMessage) : Act env (List NoiseWrite) :=
  if message.msgType = "hello" then receiveHello env message
  else if message.msgType = "shake" || message.msgType = "handshake" then receiveShake env message
  else Fallible.fail (.connection "application traffic received before Noise negotiation")

/-- `receive_inner`. -/
def receiveInner (data : Bytes) (binary : Bool) :
    Act env (Option HiveMessage × List NoiseWrite) := do
  let c ← Fallible.read Prod.fst
  match c.session with
  | some session =>
    if binary then receiveFrame env session data
    else Fallible.fail (.connection "plaintext received after Noise negotiation")
  | none =>
    if binary then Fallible.fail (.connection "ciphertext arrived before Noise negotiation")
    else
      let message ← Fallible.ofExcept (ofJson (env.fromSlice data))
      let writes ← receiveClear env message
      return (none, writes)

/-- `receive`: an error is the end of the channel. -/
def receive (data : Bytes) (binary : Bool) : Act env (Option HiveMessage × List NoiseWrite) :=
  fun (c, w) =>
    if c.failed then
      (.error (.connection "Noise session failed; reconnect required"), (c, w))
    else
      match receiveInner env data binary (c, w) with
      | (.ok result, s) => (.ok result, s)
      | (.error err, (c, w)) => (.error err, ({ c with failed := true }, w))

end Thalovant.Transport
