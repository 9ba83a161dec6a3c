import Thalovant.Error
import Thalovant.Lib.Json.Text
import Thalovant.Lib.Machine

/-!
# The session's message framing

A completed Noise session: the transport cipher, and the markers that say how to put decrypted frames
together. `encrypt_message` cuts a message into frames of at most `NOISE_CHUNK_SIZE` bytes;
`decrypt_frame` is a state machine over the frames that come in.

The cipher is the `snow` crate's. It is a parameter (`TransportCipher`), which answers as it likes;
what a theorem relies on is a named hypothesis of that theorem. The two locks of the source are not
modelled: a session is used by one caller at a time, and the error of a poisoned lock needs a panic
under one.
-/

namespace Thalovant.Noise

/-! ## The transport cipher -/

/-- `snow::TransportState`: encrypting and decrypting one Noise transport message. -/
structure TransportCipher where
  State : Type
  writeMessage : State → Bytes → Except String Bytes × State
  readMessage : State → Bytes → Except String Bytes × State

/-- The most bytes a Noise message has, its authentication tag included. -/
def NOISE_MAX_MESSAGE : Nat := 65535

/-- The bytes of the authentication tag. -/
def NOISE_TAG_SIZE : Nat := 16

/-- The tag that stands for message `n` in `countingCipher`. -/
def countingTag (n : Nat) : Bytes := List.replicate NOISE_TAG_SIZE (UInt8.ofNat n)

/--
A cipher to run the definitions on: it encrypts nothing and checks the order by its counters, of the
messages sent and of those received.
-/
def countingCipher : TransportCipher where
  State := Nat × Nat
  writeMessage n plaintext :=
    if plaintext.length + NOISE_TAG_SIZE ≤ NOISE_MAX_MESSAGE then
      (.ok (plaintext ++ countingTag n.1), (n.1 + 1, n.2))
    else (.error "input error", n)
  readMessage n data :=
    if data.length ≤ NOISE_MAX_MESSAGE
        ∧ data.drop (data.length - NOISE_TAG_SIZE) = countingTag n.2 then
      (.ok (data.take (data.length - NOISE_TAG_SIZE)), (n.1, n.2 + 1))
    else (.error "decrypt error", n)

/-! ## Frame markers -/

def FRAME_JSON : UInt8 := 0x00
def FRAME_BINARY : UInt8 := 0x01
def FRAME_FIRST_JSON : UInt8 := 0x02
def FRAME_FIRST_BINARY : UInt8 := 0x03
def FRAME_MORE : UInt8 := 0x04
def FRAME_LAST : UInt8 := 0x05

@[irreducible] def NOISE_CHUNK_SIZE : Nat := 65000

theorem chunkSize_eq : NOISE_CHUNK_SIZE = 65000 := by unfold NOISE_CHUNK_SIZE; rfl

theorem chunkSize_pos : 0 < NOISE_CHUNK_SIZE := by rw [chunkSize_eq]; omega

/-- The reassembly budget: 32 MiB. -/
def NOISE_MAX_REASSEMBLY : Nat := 33554432

/-- One decrypted message, or word that a frame only advanced a chunked one. -/
inductive NoiseFrame where
  | message (payload : Bytes) (isJson : Bool)
  | partial_
  deriving DecidableEq, Repr

/-- A chunked message that has begun. -/
structure Reassembly where
  buffer : Bytes
  isJson : Bool
  deriving DecidableEq, Repr

structure NoiseSession (cipher : TransportCipher) where
  transport : cipher.State
  reassembly : Option Reassembly
  remoteStaticKey : Option String

/-- A session of the counting cipher that has sent and received so many messages. -/
def countingSession (sent received : Nat) : NoiseSession countingCipher where
  transport := (sent, received)
  reassembly := none
  remoteStaticKey := none

variable {cipher : TransportCipher}

/-! ## Encrypting -/

def encryptOne (transport : cipher.State) (marker : UInt8) (body : Bytes) :
    Result Bytes × cipher.State :=
  match cipher.writeMessage transport (marker :: body) with
  | (.ok frame, transport) => (.ok frame, transport)
  | (.error err, transport) =>
    (.error (.connection s!"Noise transport encryption failed: {err}"), transport)

/-- The loop over the chunks of a payload, from `offset` on. -/
def encryptChunks (first : UInt8) (payload : Bytes) (offset : Nat) (transport : cipher.State) :
    Result (List Bytes) × cipher.State :=
  if offset < payload.length then
    let lastOffset := payload.length - NOISE_CHUNK_SIZE
    let marker := if offset = 0 then first else if lastOffset ≤ offset then FRAME_LAST else FRAME_MORE
    let body := (payload.drop offset).take NOISE_CHUNK_SIZE
    match encryptOne transport marker body with
    | (.error err, transport) => (.error err, transport)
    | (.ok frame, transport) =>
      match encryptChunks first payload (NOISE_CHUNK_SIZE + offset) transport with
      | (.error err, transport) => (.error err, transport)
      | (.ok frames, transport) => (.ok (frame :: frames), transport)
  else (.ok [], transport)
termination_by payload.length - offset
decreasing_by
  have := chunkSize_pos
  omega

/-- `encrypt_message`: one frame, or a chunked message. -/
def encryptMessage (session : NoiseSession cipher) (payload : Bytes) (isJson : Bool) :
    Result (List Bytes) × NoiseSession cipher :=
  let single := if isJson then FRAME_JSON else FRAME_BINARY
  let first := if isJson then FRAME_FIRST_JSON else FRAME_FIRST_BINARY
  if payload.length ≤ NOISE_CHUNK_SIZE then
    match encryptOne session.transport single payload with
    | (.error err, transport) => (.error err, { session with transport := transport })
    | (.ok frame, transport) => (.ok [frame], { session with transport := transport })
  else
    let r := encryptChunks first payload 0 session.transport
    (r.1, { session with transport := r.2 })

/-! ## Decrypting -/

/-- What `guard_reassembly_cap` fails with. -/
def capExceeded (buffered : Nat) : ThalovantError :=
  .connection s!"chunked reassembly exceeded the {NOISE_MAX_REASSEMBLY} byte cap ({buffered} buffered); dropping the message"

/-- Drop the whole buffer once it passes the cap. -/
def guardReassemblyCap (current : Reassembly) : Result Unit × Option Reassembly :=
  if current.buffer.length ≤ NOISE_MAX_REASSEMBLY then (.ok (), some current)
  else (.error (capExceeded current.buffer.length), none)

/-- `unknown:02x`. -/
def hex2 (byte : UInt8) : String :=
  String.ofList [Json.hexDigit (byte.toNat / 16), Json.hexDigit (byte.toNat % 16)]

/-- What `decrypt_frame` does with a decrypted frame. -/
def reassemble (open_ : Option Reassembly) : Bytes → Result NoiseFrame × Option Reassembly
  | [] => (.error (.connection "empty Noise transport message"), open_)
  | marker :: body =>
    if marker = FRAME_JSON || marker = FRAME_BINARY then
      match open_ with
      | some stale =>
        (.error (.connection s!"a complete frame arrived while {stale.buffer.length} bytes of a chunked message were still buffered"), none)
      | none => (.ok (.message body (marker = FRAME_JSON)), none)
    else if marker = FRAME_FIRST_JSON || marker = FRAME_FIRST_BINARY then
      match open_ with
      | some stale =>
        (.error (.connection s!"a new chunked message started while {stale.buffer.length} bytes of a previous one were still buffered"), none)
      | none =>
        match guardReassemblyCap { buffer := body, isJson := marker = FRAME_FIRST_JSON } with
        | (.error err, open_) => (.error err, open_)
        | (.ok (), open_) => (.ok .partial_, open_)
    else if marker = FRAME_MORE then
      match open_ with
      | none =>
        (.error (.connection "a middle chunk arrived with no chunked message open"), none)
      | some current =>
        match guardReassemblyCap { current with buffer := current.buffer ++ body } with
        | (.error err, open_) => (.error err, open_)
        | (.ok (), open_) => (.ok .partial_, open_)
    else if marker = FRAME_LAST then
      match open_ with
      | none =>
        (.error (.connection "a final chunk arrived with no chunked message open"), none)
      | some current =>
        match guardReassemblyCap { current with buffer := current.buffer ++ body } with
        | (.error err, open_) => (.error err, open_)
        | (.ok (), _) => (.ok (.message (current.buffer ++ body) current.isJson), none)
    else (.error (.connection ("unknown v3 frame marker 0x" ++ hex2 marker)), open_)

/-- `decrypt_frame`. -/
def decryptFrame (session : NoiseSession cipher) (data : Bytes) :
    Result NoiseFrame × NoiseSession cipher :=
  match cipher.readMessage session.transport data with
  | (.error err, transport) =>
    (.error (.connection s!"Noise transport message rejected (tampered, replayed or out-of-order): {err}"),
      { session with transport := transport })
  | (.ok plaintext, transport) =>
    let r := reassemble session.reassembly plaintext
    (r.1, { session with transport := transport, reassembly := r.2 })

/-! ## The plaintext frames of a message

`encrypt_message` hands the cipher a fixed list of plaintexts, one after the other, whatever the
cipher answers; an error ends it.
-/

/-- The plaintext frames of a payload's chunks, from `offset` on. -/
def chunkFrames (first : UInt8) (payload : Bytes) (offset : Nat) : List Bytes :=
  if offset < payload.length then
    let lastOffset := payload.length - NOISE_CHUNK_SIZE
    let marker := if offset = 0 then first else if lastOffset ≤ offset then FRAME_LAST else FRAME_MORE
    (marker :: (payload.drop offset).take NOISE_CHUNK_SIZE)
      :: chunkFrames first payload (NOISE_CHUNK_SIZE + offset)
  else []
termination_by payload.length - offset
decreasing_by
  have := chunkSize_pos
  omega

/-- The plaintext frames of a message. -/
def plaintextFrames (payload : Bytes) (isJson : Bool) : List Bytes :=
  if payload.length ≤ NOISE_CHUNK_SIZE then
    [(if isJson then FRAME_JSON else FRAME_BINARY) :: payload]
  else chunkFrames (if isJson then FRAME_FIRST_JSON else FRAME_FIRST_BINARY) payload 0

/-- Encrypt plaintexts in order, up to the first that fails. -/
def writeAll : cipher.State → List Bytes → Result (List Bytes) × cipher.State
  | transport, [] => (.ok [], transport)
  | transport, plaintext :: plaintexts =>
    match cipher.writeMessage transport plaintext with
    | (.error err, transport) =>
      (.error (.connection s!"Noise transport encryption failed: {err}"), transport)
    | (.ok frame, transport) =>
      match writeAll transport plaintexts with
      | (.error err, transport) => (.error err, transport)
      | (.ok frames, transport) => (.ok (frame :: frames), transport)

theorem encryptChunks_eq_writeAll (first : UInt8) (payload : Bytes) (offset : Nat)
    (transport : cipher.State) :
    encryptChunks first payload offset transport
      = writeAll transport (chunkFrames first payload offset) := by
  rw [encryptChunks, chunkFrames]
  split
  · next h =>
    simp only [encryptOne, writeAll]
    rcases hw : cipher.writeMessage transport _ with ⟨err | frame, transport'⟩
    · rfl
    · have hrec := encryptChunks_eq_writeAll first payload (NOISE_CHUNK_SIZE + offset) transport'
      simp only [hrec]
  · rfl
termination_by payload.length - offset
decreasing_by
  have := chunkSize_pos
  omega

/-- **`encrypt_message` is the cipher over the plaintext frames**, in order. -/
theorem encryptMessage_eq_writeAll (session : NoiseSession cipher) (payload : Bytes)
    (isJson : Bool) :
    encryptMessage session payload isJson
      = ((writeAll session.transport (plaintextFrames payload isJson)).1,
        { session with transport :=
            (writeAll session.transport (plaintextFrames payload isJson)).2 }) := by
  unfold encryptMessage plaintextFrames
  by_cases hle : payload.length ≤ NOISE_CHUNK_SIZE
  · simp only [hle, if_true, writeAll, encryptOne]
    rcases hw : cipher.writeMessage session.transport _ with ⟨err | frame, transport'⟩ <;> rfl
  · simp only [hle, if_false, encryptChunks_eq_writeAll]

end Thalovant.Noise
