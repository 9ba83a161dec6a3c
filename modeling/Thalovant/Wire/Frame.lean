import Thalovant.Error
import Thalovant.HiveMessage

/-!
# Binary frames of the mesh

A frame is packed bit by bit, with its padding in front: a first set bit, a flag for a version, the
type, a flag for compression, the metadata with its length, and the payload.

A read past the end of the payload, or a count of bits below zero, would be a panic. The reader here can
come to one, so that whether it ever does is something to prove.
-/

namespace Thalovant.Wire

/-- What is called of the JSON and zlib libraries. -/
structure WireCodec where
  /-- `serde_json::to_vec`, of a map. -/
  toVec : Map → Except String Bytes
  /-- `serde_json::from_str`. -/
  fromStr : String → Except String Value
  /-- All that a zlib stream inflates to, and the error that it ends with, if it does. -/
  zlib : Bytes → Bytes × Option String
  /-- What the error of bytes that are not UTF-8 displays as. -/
  displayUtf8Error : Bytes → String

variable (codec : WireCodec)

/-! ## Binary payloads -/

def BINARY_PAYLOAD_KINDS : List (UInt8 × String) :=
  [(1, "raw_audio"), (2, "numpy_image"), (3, "file"), (4, "stt_transcribe"), (5, "stt_handle"),
    (6, "tts_audio")]

/-- Name a payload type; one nobody has named goes under its number. -/
def binaryKindName (wireNumber : UInt8) : String :=
  match BINARY_PAYLOAD_KINDS.find? (·.1 = wireNumber) with
  | some (_, name) => name
  | none => "binary:" ++ toString wireNumber.toNat

def binaryFrame (kind : String) (data : Bytes) (metadata : Map) : ThalovantBinary :=
  let text := fun key => (metadata.getStr key).filter (· ≠ "")
  { kind := kind
    data := data
    metadata := metadata
    utterance := text "utterance"
    lang := text "lang"
    fileName := text "file_name" }

/-! ## Types -/

def hiveTypeToInt : String → UInt8
  | "shake" | "handshake" => 0
  | "bus" => 1
  | "shared_bus" => 2
  | "broadcast" => 3
  | "propagate" => 4
  | "escalate" => 5
  | "hello" => 6
  | "query" => 7
  | "cascade" => 8
  | "ping" => 9
  | "rendezvous" => 10
  | "3rdparty" => 11
  | "bin" => 12
  | _ => 11

def hiveIntToType (typeId : UInt8) : String :=
  match typeId.toNat with
  | 0 => "shake"
  | 1 => "bus"
  | 2 => "shared_bus"
  | 3 => "broadcast"
  | 4 => "propagate"
  | 5 => "escalate"
  | 6 => "hello"
  | 7 => "query"
  | 8 => "cascade"
  | 9 => "ping"
  | 10 => "rendezvous"
  | 12 => "bin"
  | _ => "3rdparty"

/-- The hive's own frame kinds, which a client may subscribe to. -/
def HIVE_KINDS : List String := ["broadcast", "propagate", "escalate", "intercom", "rendezvous"]

/-! ## Encoding -/

/-- The first byte of a frame without a version or compression. -/
def frameHeader (typeId : UInt8) : UInt8 := (0x80 : UInt8) ||| ((typeId &&& 0x1f) <<< (1 : UInt8))

def encodeHiveBinaryFrame (message : HiveMessage) : Result Bytes := do
  let typeId := hiveTypeToInt message.msgType
  let metadata ← (codec.toVec message.metadata).mapError .json
  if metadata.length > 255 then
    throw (.runtime "HiveMind binary metadata cannot exceed 255 bytes")
  let payload ← (codec.toVec message.payload).mapError .json
  return frameHeader typeId :: UInt8.ofNat metadata.length :: (metadata ++ payload)

/-! ## Texts -/

/-- The most a compressed part of a binary frame may inflate to: 32 MiB. -/
def MAX_INFLATED : Nat := 32 * 1024 * 1024

/-- Inflate a zlib stream to at most `limit` bytes. It is read for one byte more. -/
def inflate (payload : Bytes) (limit : Nat) : Result Bytes :=
  let (out, err) := codec.zlib payload
  if out.length > limit then
    .error (.runtime
      ("HiveMind binary frame inflates past the size limit (" ++ toString limit ++ " bytes)"))
  else
    match err with
    | some err => .error (.io err)
    | none => .ok out

def decodeWireText (payload : Bytes) (compressed : Bool) : Result String := do
  let bytes ← if compressed then inflate codec payload MAX_INFLATED else pure payload
  match fromUtf8 bytes with
  | some text => return text
  | none => throw (.runtime (codec.displayUtf8Error bytes))

/-- A value that is no object counts as an empty one. -/
def parseMap (raw : String) : Result Map := do
  let value ← (codec.fromStr raw).mapError .json
  return value.asObject.getD []

/-! ## Reading bits -/

structure BitReader where
  payload : Bytes
  offset : Nat

inductive Fault where
  | panic
  | error (err : ThalovantError)

abbrev Read := StateT BitReader (Except Fault)

def Read.ofResult {α : Type} (r : Result α) : Read α := fun reader =>
  match r with
  | .ok a => .ok (a, reader)
  | .error err => .error (.error err)

def Read.panics {α : Type} : Read α := fun _ => .error .panic

/-- The number of bits of the whole payload. -/
def BitReader.length (r : BitReader) : Nat := r.payload.length * 8

def readBit : Read Bool := fun r =>
  if r.offset ≥ r.length then
    .error (.error (.runtime "unexpected end of HiveMind binary frame"))
  else
    match r.payload[r.offset / 8]? with
    | none => .error .panic
    | some byte => .ok (byte.toNat.testBit (7 - r.offset % 8), { r with offset := r.offset + 1 })

/-- Skip to behind the first set bit, which comes within so many bits. -/
def skipPadding : Nat → Read Unit
  | 0 => Read.panics
  | fuel + 1 => do
    if ← readBit then return ()
    else skipPadding fuel

def skipLeftPadding : Read Unit := fun r => skipPadding (r.length + 1) r

/-- Read so many bits more, after those of `value`. -/
def readUintFrom (value : Nat) : Nat → Read Nat
  | 0 => return value
  | width + 1 => do
    let bit ← readBit
    readUintFrom (2 * value + bit.toNat) width

def readUint (width : Nat) : Read Nat := readUintFrom 0 width

def readBytes : Nat → Read Bytes
  | 0 => return []
  | len + 1 => do
    let byte ← readUint 8
    return UInt8.ofNat byte :: (← readBytes len)

def readRemainingBytes : Read Bytes := fun r =>
  if r.length < r.offset then .error .panic else readBytes ((r.length - r.offset) / 8) r

/-! ## Decoding -/

/-- The version, where there is one. -/
def readVersion : Read Unit := do
  if ← readBit then
    let version ← readUint 8
    if version > 1 then
      Read.ofResult (.error (.runtime
        ("unsupported HiveMind binary protocol version: " ++ toString version)))

def readMap (bytes : Bytes) (compressed : Bool) : Read Map :=
  Read.ofResult ((decodeWireText codec bytes compressed).bind (parseMap codec))

def readFrame : Read HiveMessage := do
  skipLeftPadding
  readVersion
  let typeId ← readUint 5
  let compressed ← readBit
  let metadataLen ← readUint 8
  let metadata ← readMap codec (← readBytes metadataLen) compressed
  let msgType := hiveIntToType (UInt8.ofNat typeId)
  if msgType = "bin" then
    -- what follows the kind is the clip itself, which is never parsed
    let kind ← readUint 4
    let clip ← readRemainingBytes
    return {
      msgType := msgType
      payload := []
      binary := some (binaryFrame (binaryKindName (UInt8.ofNat kind)) clip metadata)
      metadata := metadata }
  else
    let payload ← readMap codec (← readRemainingBytes) compressed
    return { msgType := msgType, payload := payload, metadata := metadata }

def decodeHiveBinaryFrame (payload : Bytes) : Except Fault HiveMessage :=
  (readFrame codec ⟨payload, 0⟩).map Prod.fst

end Thalovant.Wire
