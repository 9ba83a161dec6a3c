import Thalovant.Noise.Canonical
import Thalovant.Noise.Session
import Thalovant.Text

/-!
# The initiator's side of the handshake

`NoiseHandshake` runs a handshake state of the `snow` crate, which is a parameter (`Snow`): it
answers as it likes. The handshake moves to transport mode with the message that finishes the
pattern, whichever side it comes from.
-/

namespace Thalovant.Noise

/-! ## Patterns and suites -/

def NOISE_PATTERN_KK : String := "KKpsk0"

def NOISE_PATTERN_XX : String := "XXpsk2"

def NOISE_SUITES : List String := ["25519_ChaChaPoly_SHA256", "25519_AESGCM_SHA256"]

def noiseProtocolName (pattern suite : String) : String := s!"Noise_{pattern}_{suite}"

/-- `select_noise_options`: `KKpsk0` only with a pinned key, else `XXpsk2`. -/
def selectNoiseOptions (hubPatterns hubSuites : List String) (pinnedRemoteKey : Option String) :
    Option (String × String) :=
  match NOISE_SUITES.find? fun candidate => hubSuites.contains candidate with
  | none => none
  | some suite =>
    if (pinnedRemoteKey.any fun key => key ≠ "") && hubPatterns.contains NOISE_PATTERN_KK then
      some (NOISE_PATTERN_KK, suite)
    else if hubPatterns.contains NOISE_PATTERN_XX then some (NOISE_PATTERN_XX, suite)
    else none

theorem pattern_of_select {hubPatterns hubSuites : List String} {pin : Option String}
    {pattern suite : String} (h : selectNoiseOptions hubPatterns hubSuites pin = some (pattern, suite)) :
    pattern = NOISE_PATTERN_XX ∨ pattern = NOISE_PATTERN_KK ∧ ∃ key, pin = some key ∧ key ≠ "" := by
  unfold selectNoiseOptions at h
  split at h
  · cases h
  · split at h
    · next hkk =>
      cases h
      rw [Bool.and_eq_true, Option.any_eq_true] at hkk
      obtain ⟨⟨key, hkey, hne⟩, -⟩ := hkk
      exact .inr ⟨rfl, key, hkey, by simpa using hne⟩
    · split at h
      · cases h
        exact .inl rfl
      · cases h

/-! ## The `snow` crate -/

/-- What the handshake uses of `snow`. -/
structure Snow where
  cipher : TransportCipher
  Params : Type
  Builder : Type
  HandshakeState : Type
  parse : String → Except String Params
  builder : Params → Builder
  localPrivateKey : Builder → Bytes → Except String Builder
  prologue : Builder → Bytes → Except String Builder
  psk : Builder → Nat → Bytes → Except String Builder
  remotePublicKey : Builder → Bytes → Except String Builder
  /-- The second argument stands for the random bytes that the state will draw. -/
  buildInitiator : Builder → Nat → Except String HandshakeState
  writeMessage : HandshakeState → Bytes → Except String Bytes × HandshakeState
  readMessage : HandshakeState → Bytes → Except String Bytes × HandshakeState
  isHandshakeFinished : HandshakeState → Bool
  getRemoteStatic : HandshakeState → Option Bytes
  intoTransportMode : HandshakeState → Except String cipher.State

/--
A `snow` to run the definitions on: a handshake of three messages, where message `n` is the byte `n`,
that ends in the counting cipher.
-/
def countingSnow : Snow where
  cipher := countingCipher
  Params := Unit
  Builder := Unit
  HandshakeState := Nat
  parse _ := .ok ()
  builder _ := ()
  localPrivateKey _ _ := .ok ()
  prologue _ _ := .ok ()
  psk _ _ _ := .ok ()
  remotePublicKey _ _ := .ok ()
  buildInitiator _ _ := .ok 0
  writeMessage n _ := (.ok [UInt8.ofNat n], n + 1)
  readMessage n message :=
    if message = [UInt8.ofNat n] then (.ok [], n + 1) else (.error "decrypt error", n)
  isHandshakeFinished n := decide (3 ≤ n)
  getRemoteStatic _ := some [7]
  intoTransportMode _ := .ok (0, 0)

variable {snow : Snow}

/-! ## `NoiseHandshake` -/

structure NoiseHandshake (snow : Snow) where
  state : Option snow.HandshakeState
  transport : Option snow.cipher.State
  pattern : String
  remoteStaticKey : Option String

namespace NoiseHandshake

/-- An error of `snow`, in the words of the caller. -/
def orFail {α : Type} (context : String) : Except String α → Result α
  | .ok a => .ok a
  | .error err => .error (.connection s!"{context}: {err}")

/-- The place of the pre-shared key in the pattern. -/
def pskIndex (pattern : String) : Result Nat :=
  if pattern = NOISE_PATTERN_XX then .ok 2
  else if pattern = NOISE_PATTERN_KK then .ok 0
  else .error (.connection s!"unsupported Noise pattern {pattern}")

/-- The key of the hub, which `KKpsk0` has to know. -/
def withRemoteKey (name pattern : String) (pinnedRemoteKey : Option String)
    (builder : snow.Builder) : Result snow.Builder :=
  if pattern = NOISE_PATTERN_KK then
    match hexDecode (pinnedRemoteKey.getD "") with
    | none => .error (.connection "KKpsk0 needs a pinned 32-byte hub static key")
    | some remoteBytes =>
      if remoteBytes.length ≠ 32 then
        .error (.connection "KKpsk0 needs a pinned 32-byte hub static key")
      else orFail s!"could not configure {name}" (snow.remotePublicKey builder remoteBytes)
  else .ok builder

/-- `NoiseHandshake::new`. -/
def new (snow : Snow) (pattern suite : String) (psk prologue staticKey : Bytes)
    (pinnedRemoteKey : Option String) (seed : Nat) : Result (NoiseHandshake snow) := do
  let name := noiseProtocolName pattern suite
  let params ← orFail s!"unsupported Noise protocol {name}" (snow.parse name)
  let index ← pskIndex pattern
  let setupFailed := s!"could not configure {name}"
  let builder ← orFail setupFailed (snow.localPrivateKey (snow.builder params) staticKey)
  let builder ← orFail setupFailed (snow.prologue builder prologue)
  let builder ← orFail setupFailed (snow.psk builder index psk)
  let builder ← withRemoteKey name pattern pinnedRemoteKey builder
  let state ← orFail s!"could not start {name}" (snow.buildInitiator builder seed)
  return { state := some state, transport := none, pattern := pattern, remoteStaticKey := none }

/-- Move to transport mode once the pattern has run its course. -/
def maybeFinish (handshake : NoiseHandshake snow) : Result Unit × NoiseHandshake snow :=
  match handshake.state with
  | none => (.ok (), handshake)
  | some state =>
    if snow.isHandshakeFinished state then
      let handshake := { handshake with
        state := none
        remoteStaticKey := (snow.getRemoteStatic state).map hexEncode }
      match snow.intoTransportMode state with
      | .error err =>
        (.error (.connection s!"could not enter Noise transport mode: {err}"), handshake)
      | .ok transport => (.ok (), { handshake with transport := some transport })
    else (.ok (), handshake)

/-- `write_message`. -/
def writeMessage (handshake : NoiseHandshake snow) (payload : Bytes) :
    Result Bytes × NoiseHandshake snow :=
  match handshake.state with
  | none => (.error (.connection "the Noise handshake has already finished"), handshake)
  | some state =>
    match snow.writeMessage state payload with
    | (.error err, state) =>
      (.error (.connection s!"Noise handshake write failed: {err}"),
        { handshake with state := some state })
    | (.ok message, state) =>
      match maybeFinish { handshake with state := some state } with
      | (.error err, handshake) => (.error err, handshake)
      | (.ok (), handshake) => (.ok message, handshake)

/-- `read_message`. -/
def readMessage (handshake : NoiseHandshake snow) (message : Bytes) :
    Result Bytes × NoiseHandshake snow :=
  match handshake.state with
  | none => (.error (.connection "the Noise handshake has already finished"), handshake)
  | some state =>
    match snow.readMessage state message with
    | (.error err, state) =>
      (.error (.connection s!"Noise handshake authentication failed (wrong password or tampered negotiation): {err}"),
        { handshake with state := some state })
    | (.ok payload, state) =>
      match maybeFinish { handshake with state := some state } with
      | (.error err, handshake) => (.error err, handshake)
      | (.ok (), handshake) => (.ok payload, handshake)

/-! The pattern is the one it was begun with. -/

theorem new_pattern {pattern suite : String} {psk prologue staticKey : Bytes}
    {pin : Option String} {seed : Nat} {handshake : NoiseHandshake snow}
    (h : new snow pattern suite psk prologue staticKey pin seed = .ok handshake) :
    handshake.pattern = pattern := by
  unfold new at h
  simp only [bind, Except.bind] at h
  repeat' split at h
  all_goals cases h
  rfl

theorem maybeFinish_pattern (handshake : NoiseHandshake snow) :
    (maybeFinish handshake).2.pattern = handshake.pattern := by
  unfold maybeFinish
  repeat' split
  all_goals rfl

theorem writeMessage_pattern (handshake : NoiseHandshake snow) (payload : Bytes) :
    (handshake.writeMessage payload).2.pattern = handshake.pattern := by
  unfold writeMessage
  split
  · rfl
  · next state hstate =>
    rcases snow.writeMessage state payload with ⟨err | message, state'⟩
    · rfl
    · have h := maybeFinish_pattern { handshake with state := some state' }
      dsimp only
      split <;> next hfinish => rw [hfinish] at h; exact h

theorem readMessage_pattern (handshake : NoiseHandshake snow) (message : Bytes) :
    (handshake.readMessage message).2.pattern = handshake.pattern := by
  unfold readMessage
  split
  · rfl
  · next state hstate =>
    rcases snow.readMessage state message with ⟨err | payload, state'⟩
    · rfl
    · have h := maybeFinish_pattern { handshake with state := some state' }
      dsimp only
      split <;> next hfinish => rw [hfinish] at h; exact h

def isFinished (handshake : NoiseHandshake snow) : Bool := handshake.transport.isSome

/-- `into_session`. -/
def intoSession (handshake : NoiseHandshake snow) : Result (NoiseSession snow.cipher) :=
  match handshake.transport with
  | none => .error (.connection "the Noise handshake is not finished")
  | some transport =>
    .ok { transport := transport, reassembly := none,
          remoteStaticKey := handshake.remoteStaticKey }

end NoiseHandshake

/-! ## What a read message says -/

/-- `snow` reads a handshake message only when it is authentic. -/
def ReadsAuthentic (snow : Snow) (Authentic : snow.HandshakeState → Bytes → Prop) : Prop :=
  ∀ state message payload state', snow.readMessage state message = (.ok payload, state') →
    Authentic state message

theorem readsAuthentic_countingSnow :
    ReadsAuthentic countingSnow fun n message => message = [UInt8.ofNat n] := by
  intro n message payload n' h
  by_cases hmessage : message = [UInt8.ofNat n]
  · exact hmessage
  · simp only [countingSnow, if_neg hmessage] at h
    cases h

/-- The handshake was waiting for this message, and it is authentic. -/
def NoiseHandshake.Authenticated (Authentic : snow.HandshakeState → Bytes → Prop)
    (handshake : NoiseHandshake snow) (message : Bytes) : Prop :=
  ∃ state, handshake.state = some state ∧ Authentic state message

theorem NoiseHandshake.authenticated_of_read {Authentic : snow.HandshakeState → Bytes → Prop}
    (hreads : ReadsAuthentic snow Authentic) {handshake handshake' : NoiseHandshake snow}
    {message payload : Bytes} (h : handshake.readMessage message = (.ok payload, handshake')) :
    handshake.Authenticated Authentic message := by
  unfold readMessage at h
  split at h
  · cases h
  · next state hstate =>
    split at h
    · cases h
    · next hread => exact ⟨state, hstate, hreads _ _ _ _ hread⟩

/-! ## The send counter -/

/-- `counter` counts the transport messages sent: from zero, and one for each that is encrypted. -/
structure SendCounter (snow : Snow) (counter : snow.cipher.State → Nat) : Prop where
  start : ∀ state transport, snow.intoTransportMode state = .ok transport → counter transport = 0
  write : ∀ transport plaintext frame transport',
    snow.cipher.writeMessage transport plaintext = (.ok frame, transport') →
    counter transport' = counter transport + 1
  read : ∀ transport data, counter (snow.cipher.readMessage transport data).2 = counter transport

theorem sendCounter_countingSnow : SendCounter countingSnow Prod.fst where
  start := by
    rintro state _ ⟨⟩
    rfl
  write := by
    rintro ⟨s, m⟩ plaintext frame s' h
    simp only [countingSnow, countingCipher] at h
    split at h <;> cases h
    rfl
  read := by
    rintro ⟨s, m⟩ data
    simp only [countingSnow, countingCipher]
    split <;> rfl

/-- Nothing has been sent in transport mode. -/
def NoiseHandshake.Unsent (counter : snow.cipher.State → Nat) (handshake : NoiseHandshake snow) :
    Prop :=
  ∀ transport, handshake.transport = some transport → counter transport = 0

namespace NoiseHandshake

variable {counter : snow.cipher.State → Nat}

theorem unsent_new {pattern suite : String} {psk prologue staticKey : Bytes} {pin : Option String}
    {seed : Nat} {handshake : NoiseHandshake snow}
    (h : new snow pattern suite psk prologue staticKey pin seed = .ok handshake) :
    handshake.Unsent counter := by
  unfold new at h
  simp only [bind, Except.bind] at h
  repeat' split at h
  all_goals cases h
  exact fun _ h => nomatch h

theorem Unsent.maybeFinish (hcounter : SendCounter snow counter) {handshake : NoiseHandshake snow}
    (h : handshake.Unsent counter) : (maybeFinish handshake).2.Unsent counter := by
  unfold NoiseHandshake.maybeFinish
  split
  · exact h
  · next state hstate =>
    split
    · dsimp only
      split
      · exact h
      · next transport htransport =>
        rintro _ ⟨⟩
        exact hcounter.start state transport htransport
    · exact h

theorem Unsent.writeMessage (hcounter : SendCounter snow counter) {handshake : NoiseHandshake snow}
    (h : handshake.Unsent counter) (payload : Bytes) :
    (handshake.writeMessage payload).2.Unsent counter := by
  unfold NoiseHandshake.writeMessage
  split
  · exact h
  · next state hstate =>
    rcases snow.writeMessage state payload with ⟨err | message, state'⟩
    · exact h
    · have hfinish := Unsent.maybeFinish hcounter
        (show Unsent counter { handshake with state := some state' } from h)
      dsimp only
      split <;> next heq => rw [heq] at hfinish; exact hfinish

theorem Unsent.readMessage (hcounter : SendCounter snow counter) {handshake : NoiseHandshake snow}
    (h : handshake.Unsent counter) (message : Bytes) :
    (handshake.readMessage message).2.Unsent counter := by
  unfold NoiseHandshake.readMessage
  split
  · exact h
  · next state hstate =>
    rcases snow.readMessage state message with ⟨err | payload, state'⟩
    · exact h
    · have hfinish := Unsent.maybeFinish hcounter
        (show Unsent counter { handshake with state := some state' } from h)
      dsimp only
      split <;> next heq => rw [heq] at hfinish; exact hfinish

theorem Unsent.intoSession {handshake : NoiseHandshake snow} (h : handshake.Unsent counter)
    {session : NoiseSession snow.cipher} (hsession : handshake.intoSession = .ok session) :
    counter session.transport = 0 := by
  unfold NoiseHandshake.intoSession at hsession
  split at hsession
  · cases hsession
  · next transport htransport =>
    cases hsession
    exact h transport htransport

end NoiseHandshake

theorem writeAll_counter {counter : snow.cipher.State → Nat} (hcounter : SendCounter snow counter) :
    ∀ {plaintexts frames : List Bytes} {transport transport' : snow.cipher.State},
      writeAll transport plaintexts = (.ok frames, transport') →
      counter transport' = counter transport + frames.length
  | [], frames, transport, transport', h => by
    cases h
    rfl
  | plaintext :: plaintexts, frames, transport, transport', h => by
    rw [writeAll] at h
    rcases hwrite : snow.cipher.writeMessage transport plaintext with ⟨err | frame, transport₁⟩ <;>
      rw [hwrite] at h
    · cases h
    · dsimp only at h
      rcases hrest : writeAll transport₁ plaintexts with ⟨err | rest, transport₂⟩ <;> rw [hrest] at h
      · cases h
      · cases h
        have hfirst := hcounter.write _ _ _ _ hwrite
        have hothers := writeAll_counter hcounter hrest
        rw [List.length_cons]
        omega

theorem encryptMessage_counter {counter : snow.cipher.State → Nat}
    (hcounter : SendCounter snow counter) {session session' : NoiseSession snow.cipher}
    {payload : Bytes} {isJson : Bool} {frames : List Bytes}
    (h : encryptMessage session payload isJson = (.ok frames, session')) :
    counter session'.transport = counter session.transport + frames.length := by
  rw [encryptMessage_eq_writeAll] at h
  rcases hwrite : writeAll session.transport (plaintextFrames payload isJson) with ⟨r, transport⟩
  rw [hwrite] at h
  cases h
  exact writeAll_counter hcounter hwrite

theorem decryptFrame_counter {counter : snow.cipher.State → Nat}
    (hcounter : SendCounter snow counter) (session : NoiseSession snow.cipher) (data : Bytes) :
    counter (decryptFrame session data).2.transport = counter session.transport := by
  have hread := hcounter.read session.transport data
  unfold decryptFrame
  split <;> next h => rw [h] at hread; exact hread

end Thalovant.Noise
