import Thalovant.Noise.Pins
import Thalovant.Transport.ChannelSteps
import Thalovant.Transport.Connect

/-!
# What a frame does to the pins, and to the attempt

Over the store, the pins change in two places of a channel: `start` may fill an empty file from an
older folder, and `install` records the key of the first session of a hub. `receive_pins` says which
of the two a frame has done, if any.

What a connect goes by is the channel's pattern (`NoiseChannel.Sound`) and what `note_failure` reads
off a failed frame (`FailsKk`).
-/

namespace Thalovant.Transport

open Thalovant.Noise Thalovant.Noise.Store Fallible

variable {S : Surroundings}

/-! ## The pins -/

/-- The pins of the channel's folder, which had none, are now those of an older folder. -/
def Adopts (S : Surroundings) (c : NoiseChannel S.snow) (d : Disk)
    (pins : String → Stored TextMap) : Prop :=
  ∃ target source, c.stateDir = some target ∧ c.adoptFrom = some source ∧ c.handshake = none
    ∧ isThere (d.folders target).key = false ∧ (d.pins target).entries = []
    ∧ pins = pinsWith d.pins target (d.pins source).entries

/-- The key is the pinned one, or there was none and the key is now pinned. -/
def PinCheck (S : Surroundings) (c : NoiseChannel S.snow) (remote : String) (d : Disk)
    (pins : String → Stored TextMap) : Prop :=
  ∃ folder, resolveDir S.store c.stateDir = .ok folder
    ∧ (d.pinOf folder c.nodeId = none
        ∧ pins = pinsWith d.pins folder (SortedMap.insert c.nodeId remote (d.pins folder).entries)
      ∨ ∃ pinned, d.pinOf folder c.nodeId = some pinned ∧ eqIgnoreAsciiCase pinned remote = true
        ∧ pins = d.pins)

theorem adoptKey_pins {c : NoiseChannel S.snow} (hhandshake : c.handshake = none) (d : Disk) :
    (adoptKey S.env c d).2.pins = d.pins ∨ Adopts S c d (adoptKey S.env c d).2.pins := by
  unfold adoptKey
  rcases htarget : c.stateDir with _ | target
  · exact .inl rfl
  rcases hsource : c.adoptFrom with _ | source
  · exact .inl rfl
  · dsimp only
    have hstate : ((Store.adoptLegacyKey S.store target source c.nodeId >>= fun _ =>
        (pure () : Store Unit)) d).2 = (Store.adoptLegacyKey S.store target source c.nodeId d).2 := by
      rcases h : Store.adoptLegacyKey S.store target source c.nodeId d with ⟨err | adopted, d'⟩
      · rw [bind_error h]
      · rw [bind_ok h]
        rfl
    rcases adoptLegacyKey_cases S.store target source c.nodeId d with h | ⟨hkey, hempty, -, h⟩
    · exact .inl ((congrArg Disk.pins hstate).trans h)
    · exact .inr ⟨target, source, htarget, hsource, hhandshake, hkey, hempty,
        (congrArg Disk.pins hstate).trans h⟩

theorem cachedOrDerivedPsk_pins {Q : String → Stored TextMap} (c : NoiseChannel S.snow) :
    KeepsPins Q (cachedOrDerivedPsk S.env c) := by
  refine .bind (loadCachedPsk_pins S.store c.stateDir c.nodeId) fun psk => ?_
  rcases psk with _ | psk
  · exact .bind (.ofExcept _) fun derived =>
      .bind (.attempt (saveCachedPsk_pins S.store c.stateDir c.nodeId derived)) fun _ => .pure _
  · exact .pure _

theorem prepare_pins {Q : String → Stored TextMap} (c : NoiseChannel S.snow) (offer params : Map) :
    KeepsPins Q (prepare S.env c offer params) := by
  refine .bind (loadNoisePin_pins S.store c.stateDir c.nodeId) fun pin => ?_
  dsimp only
  rcases selectNoiseOptions (stringList (params.get "patterns")) (stringList (params.get "suites"))
    (if c.forceXx then none else pin) with _ | ⟨pattern, suite⟩
  · exact .fail _
  · exact .bind (loadOrCreateNoiseKey_pins S.store c.stateDir) fun _ =>
      .bind (cachedOrDerivedPsk_pins c) fun _ => .bind (fun d hd => hd) fun _ =>
      .bind (.ofExcept _) fun _ => .pure _

theorem checkHubKey_pins (c : NoiseChannel S.snow) (remote : String) (d : Disk) :
    (∃ err, (checkHubKey S.env c remote d).1 = .error err)
      ∧ (checkHubKey S.env c remote d).2.pins = d.pins
    ∨ (checkHubKey S.env c remote d).1 = .ok ()
      ∧ PinCheck S c remote d (checkHubKey S.env c remote d).2.pins := by
  unfold checkHubKey
  have hpins := loadNoisePin_pins S.store (Q := d.pins) c.stateDir c.nodeId d rfl
  rcases hload : Store.loadNoisePin S.store c.stateDir c.nodeId d with ⟨err | pin, d₁⟩ <;>
    rw [hload] at hpins
  · rw [bind_error hload]
    exact .inl ⟨⟨err, rfl⟩, hpins⟩
  rw [bind_ok hload]
  split
  · exact .inl ⟨⟨_, rfl⟩, hpins⟩
  · have hpin : ∀ folder, d₁.pinOf folder c.nodeId = d.pinOf folder c.nodeId := fun folder => by
      rw [Disk.pinOf, Disk.pinOf, show d₁.pins = d.pins from hpins]
    rcases pinHubKey_cases S.store c.stateDir c.nodeId remote d₁ with ⟨herr, h⟩ |
      ⟨folder, hdir, hok, h⟩
    · exact .inl ⟨herr, h.trans hpins⟩
    · rw [hpin folder, show d₁.pins = d.pins from hpins] at h
      exact .inr ⟨hok, folder, hdir, h⟩

theorem rejectAnswer_pins (s : Link S.env) : (rejectAnswer S.env s).2.2.pins = s.2.pins :=
  forgetCachedPsk_pins S.store s.1.stateDir s.1.nodeId s.2 rfl

theorem started_pins {offer params : Map} {s : Link S.env}
    {out : Result (List NoiseWrite) × Link S.env} (h : Started offer params s out) :
    out.2.2.pins = s.2.pins ∨ Adopts S s.1 s.2 out.2.2.pins := by
  cases h with
  | refused err => exact .inl rfl
  | stopped err w hhandshake hworld =>
    have hadopt := adoptKey_pins hhandshake s.2
    rcases hworld with rfl | ⟨w₁, hw₁, rfl⟩
    · exact hadopt
    · rw [hw₁] at hadopt
      rw [prepare_pins s.1 offer params w₁ rfl]
      exact hadopt
  | begun r fresh handshake payload pattern suite w₁ w hhandshake hwrite hclear hw₁ hprepare =>
    have hadopt := adoptKey_pins hhandshake s.2
    have hpins := prepare_pins s.1 offer params w₁ rfl
    rw [hw₁] at hadopt
    rw [hprepare] at hpins
    exact hpins ▸ hadopt

theorem continued_pins {params : Map} {s : Link S.env} {out : Result (List NoiseWrite) × Link S.env}
    (h : Continued params s out) :
    out.2.1.session = s.1.session ∧ out.2.2.pins = s.2.pins
    ∨ ∃ remote, out.2.1.HasKey remote ∧ out.2.1.nodeId = s.1.nodeId
      ∧ PinCheck S s.1 remote s.2 out.2.2.pins := by
  cases h with
  | refused err => exact .inl ⟨rfl, rfl⟩
  | rejected message handshake err => exact .inl ⟨rfl, rejectAnswer_pins _⟩
  | stopped err before handshake w hhandshake hdone hworld =>
    refine .inl ⟨rfl, ?_⟩
    rcases hworld with rfl | ⟨remote, err', hcheck⟩
    · rfl
    · rcases checkHubKey_pins s.1 remote s.2 with ⟨-, h⟩ | ⟨hok, -⟩
      · rw [hcheck] at h
        exact h
      · rw [hcheck] at hok
        cases hok
  | installed message handshake read done payload session session' remote w writes sent henvelope
      hhandshake hread hdone hinto hremote hcheck hclear hsent =>
    refine .inr ⟨remote, ⟨session', rfl, hsent.remoteStaticKey.trans hremote⟩, rfl, ?_⟩
    rcases checkHubKey_pins s.1 remote s.2 with ⟨⟨err, herr⟩, -⟩ | ⟨-, h⟩
    · rw [hcheck] at herr
      cases herr
    · rw [hcheck] at h
      exact h

theorem negotiated_pins {s : Link S.env} {out : Result (List NoiseWrite) × Link S.env}
    (h : Negotiated s out) :
    out.2.1.session = s.1.session ∧ (out.2.2.pins = s.2.pins ∨ Adopts S s.1 s.2 out.2.2.pins)
    ∨ ∃ remote, out.2.1.HasKey remote ∧ out.2.1.nodeId = s.1.nodeId
      ∧ PinCheck S s.1 remote s.2 out.2.2.pins := by
  cases h with
  | refused err => exact .inl ⟨rfl, .inl rfl⟩
  | hello r nodeId hello hwrites => exact .inl ⟨rfl, .inl rfl⟩
  | offer offer params out h =>
    refine .inl ⟨?_, started_pins h⟩
    cases h <;> rfl
  | answer params out h =>
    rcases continued_pins h with ⟨hsession, hpins⟩ | h
    · exact .inl ⟨hsession, .inl hpins⟩
    · exact .inr h

/-- **What a frame does to the pins.** Where it installs no session it leaves them, or fills an empty
file; where it does, the hub's key has passed the pin check. -/
theorem receive_pins (data : Bytes) (binary : Bool) (s : Link S.env) :
    (receive S.env data binary s).2.1.session.isSome = s.1.session.isSome
      ∧ ((receive S.env data binary s).2.2.pins = s.2.pins
        ∨ Adopts S s.1 s.2 (receive S.env data binary s).2.2.pins)
    ∨ s.1.session = none ∧ ∃ remote, (receive S.env data binary s).2.1.HasKey remote
      ∧ (receive S.env data binary s).2.1.nodeId = s.1.nodeId
      ∧ PinCheck S s.1 remote s.2 (receive S.env data binary s).2.2.pins := by
  rcases hfailed : s.1.failed with _ | _
  · rcases receive_cases data binary hfailed with ⟨err, h⟩ |
      ⟨session, heard, failed, r, hsession, -, h, -⟩ | ⟨message, hnone, -, -, h⟩
    · rw [h]
      exact .inl ⟨rfl, .inl rfl⟩
    · rw [h, hsession]
      exact .inl ⟨rfl, .inl rfl⟩
    · have hpins := negotiated_pins (receiveClear_negotiated message s)
      rcases h with ⟨writes, -, h⟩ | ⟨err, -, h⟩ <;> rw [h]
      · rcases hpins with ⟨hsession, hpins⟩ | hpins
        · exact .inl ⟨by rw [hsession], hpins⟩
        · exact .inr ⟨hnone, hpins⟩
      · rcases hpins with ⟨hsession, hpins⟩ | hpins
        · exact .inl ⟨by rw [hsession], hpins⟩
        · exact .inr ⟨hnone, hpins⟩
  · rw [receive_of_failed hfailed]
    exact .inl ⟨rfl, .inl rfl⟩

theorem dropChannel_pins (channel : Option (NoiseChannel S.snow)) (d : Disk) :
    (dropChannel S channel d).pins = d.pins := by
  unfold dropChannel
  split
  · rfl
  · split
    · exact forgetCachedPsk_pins S.store _ _ d rfl
    · rfl

/-! ## The pattern of an attempt -/

section Pattern

variable {σ : Type} {env : ChannelEnv σ}

/-- What a channel says of its handshake is so. -/
structure NoiseChannel.Sound {snow : Snow} (c : NoiseChannel snow) : Prop where
  failed : c.kkFailed = true → c.failed = true
  pattern : ∀ handshake, c.handshake = some handshake → c.pattern = some handshake.pattern
  forced : c.forceXx = true → ∀ pattern, c.pattern = some pattern → pattern = NOISE_PATTERN_XX

theorem prepare_pattern {c : NoiseChannel env.snow} {offer params : Map} {w w' : σ}
    {handshake : NoiseHandshake env.snow} {pattern suite : String}
    (h : prepare env c offer params w = (.ok (handshake, pattern, suite), w')) :
    handshake.pattern = pattern ∧ (c.forceXx = true → pattern = NOISE_PATTERN_XX) := by
  obtain ⟨psk, prologue, key, pin, seed, hubPatterns, hubSuites, hnew, hselect⟩ := prepare_ok h
  refine ⟨NoiseHandshake.new_pattern hnew, fun hforce => ?_⟩
  rw [hforce, if_pos rfl] at hselect
  rcases pattern_of_select hselect with h | ⟨-, key, hkey, -⟩
  · exact h
  · cases hkey

/-- The channel with another verdict on its transport. -/
theorem NoiseChannel.Sound.setFailed {snow : Snow} {c : NoiseChannel snow} (h : c.Sound)
    {failed : Bool} (hkk : c.kkFailed = true → failed = true) :
    ({ c with failed := failed } : NoiseChannel snow).Sound :=
  ⟨hkk, h.pattern, h.forced⟩

/-- A channel whose step succeeded, with what became of its writes. -/
theorem NoiseChannel.Sound.written {snow : Snow} {c : NoiseChannel snow} (h : c.Sound)
    (hfailed : c.failed = false) (written : Bool) :
    ({ c with failed := !written } : NoiseChannel snow).Sound :=
  h.setFailed fun hkk => absurd (hfailed.symm.trans (h.failed hkk)) Bool.false_ne_true

theorem started_sound {offer params : Map} {s : Link env} {out : Result (List NoiseWrite) × Link env}
    (h : Started offer params s out) (hs : s.1.Sound) :
    out.2.1.Sound ∧ out.2.1.forceXx = s.1.forceXx := by
  cases h with
  | refused err => exact ⟨hs, rfl⟩
  | stopped err w hhandshake hworld => exact ⟨⟨hs.failed, hs.pattern, hs.forced⟩, rfl⟩
  | begun r fresh handshake payload pattern suite w₁ w hhandshake hwrite hclear hadopt hprepare =>
    obtain ⟨hfresh, hforced⟩ := prepare_pattern hprepare
    refine ⟨⟨hs.failed, ?_, ?_⟩, rfl⟩
    · rintro _ ⟨⟩
      rw [hwrite, NoiseHandshake.writeMessage_pattern, hfresh]
    · rintro hforce _ ⟨⟩
      exact hforced hforce

/-- The hub's answer leaves a sound channel, once it has failed if it was refused. -/
theorem continued_sound {params : Map} {s : Link env} {out : Result (List NoiseWrite) × Link env}
    (h : Continued params s out) (hs : s.1.Sound) :
    ({ out.2.1 with failed := true } : NoiseChannel env.snow).Sound
    ∧ ((∃ writes, out.1 = .ok writes) → out.2.1.Sound) ∧ out.2.1.forceXx = s.1.forceXx := by
  cases h with
  | refused err => exact ⟨hs.setFailed fun _ => rfl, fun _ => hs, rfl⟩
  | rejected message handshake err henvelope hhandshake hread =>
    refine ⟨⟨fun _ => rfl, (fun _ h => nomatch h), hs.forced⟩, ?_, rfl⟩
    rintro ⟨writes, h⟩
    cases h
  | stopped err before handshake w hhandshake hdone hworld =>
    refine ⟨⟨fun _ => rfl, ?_, hs.forced⟩, ?_, rfl⟩
    · intro done hsome
      rw [show done.pattern = before.pattern by
        obtain ⟨message, rfl | rfl⟩ := hdone done hsome
        · exact before.readMessage_pattern message
        · exact (NoiseHandshake.writeMessage_pattern _ []).trans (before.readMessage_pattern message)]
      exact hs.pattern before hhandshake
    · rintro ⟨writes, h⟩
      cases h
  | installed =>
    exact ⟨⟨fun _ => rfl, (fun _ h => nomatch h), hs.forced⟩,
      fun _ => ⟨hs.failed, (fun _ h => nomatch h), hs.forced⟩, rfl⟩

theorem negotiated_sound {s : Link env} {out : Result (List NoiseWrite) × Link env}
    (h : Negotiated s out) (hs : s.1.Sound) :
    ({ out.2.1 with failed := true } : NoiseChannel env.snow).Sound
    ∧ ((∃ writes, out.1 = .ok writes) → out.2.1.Sound) ∧ out.2.1.forceXx = s.1.forceXx := by
  cases h with
  | refused err => exact ⟨hs.setFailed fun _ => rfl, fun _ => hs, rfl⟩
  | hello r nodeId hello hwrites =>
    exact ⟨⟨fun _ => rfl, hs.pattern, hs.forced⟩, fun _ => ⟨hs.failed, hs.pattern, hs.forced⟩, rfl⟩
  | offer offer params out h =>
    obtain ⟨hsound, hforce⟩ := started_sound h hs
    exact ⟨hsound.setFailed fun _ => rfl, fun _ => hsound, hforce⟩
  | answer params out h => exact continued_sound h hs

theorem receive_sound (data : Bytes) (binary : Bool) {s : Link env} (hs : s.1.Sound) :
    (receive env data binary s).2.1.Sound
    ∧ (receive env data binary s).2.1.forceXx = s.1.forceXx := by
  rcases hfailed : s.1.failed with _ | _
  · rcases receive_cases data binary hfailed with ⟨err, h⟩ |
      ⟨session, heard, failed, r, -, -, h, -⟩ | ⟨message, -, -, -, h⟩
    · rw [h]
      exact ⟨hs.setFailed fun _ => rfl, rfl⟩
    · rw [h]
      refine ⟨⟨fun hkk => ?_, hs.pattern, hs.forced⟩, rfl⟩
      rw [hs.failed hkk] at hfailed
      cases hfailed
    · obtain ⟨hrefused, hok, hforce⟩ := negotiated_sound (receiveClear_negotiated message s) hs
      rcases h with ⟨writes, hwrites, h⟩ | ⟨err, -, h⟩ <;> rw [h]
      · exact ⟨hok ⟨writes, hwrites⟩, hforce⟩
      · exact ⟨hrefused, hforce⟩
  · rw [receive_of_failed hfailed]
    exact ⟨hs, rfl⟩

theorem encode_sound (message : HiveMessage) {s : Link env} (hs : s.1.Sound) :
    (encode env message s).2.1.Sound ∧ (encode env message s).2.1.forceXx = s.1.forceXx := by
  rcases encode_cases message s with ⟨h, -⟩ | ⟨session, hsession, -, h⟩
  · rw [h]
    exact ⟨hs, rfl⟩
  · obtain ⟨r, session', henc, -⟩ := encodeUnder_cases session message s hsession
    rw [h, henc]
    exact ⟨⟨hs.failed, hs.pattern, hs.forced⟩, rfl⟩

theorem negotiated_failed {s : Link env} {out : Result (List NoiseWrite) × Link env}
    (h : Negotiated s out) : out.2.1.failed = s.1.failed := by
  cases h with
  | refused err => rfl
  | hello r nodeId hello hwrites => rfl
  | offer offer params out h => cases h <;> rfl
  | answer params out h => cases h <;> rfl

/-- The channel has not failed where a frame was taken. -/
theorem failed_of_received {data : Bytes} {binary : Bool} {s s' : Link env} {r}
    (h : receive env data binary s = (.ok r, s')) : s'.1.failed = false := by
  rcases hfailed : s.1.failed with _ | _
  · rcases receive_cases data binary hfailed with ⟨err, hr⟩ |
      ⟨session, heard, failed, r', -, -, hr, hr'⟩ |
      ⟨message, -, -, -, ⟨writes, hwrites, hr⟩ | ⟨err, -, hr⟩⟩ <;> rw [hr] at h
    · cases h
    · cases h
      rcases hr' with ⟨err, herr⟩ | ⟨hr', -⟩
      · cases herr
      · exact hr'
    · cases h
      exact (negotiated_failed (receiveClear_negotiated message s)).trans hfailed
    · cases h
  · rw [receive_of_failed hfailed] at h
    cases h

end Pattern

/-! ## What `note_failure` reads off a frame -/

/-- The step of a client is the end of a KK handshake that did not authenticate: its answer does not,
or the hub refuses the credentials while the handshake waits for one. -/
def FailsKk (S : Surroundings) (client : Client S.snow) : LinkStep → Prop
  | .frame data binary _ =>
    binary = false ∧ ∃ channel handshake offer params message err, client.channel = some channel
      ∧ channel.session = none ∧ channel.failed = false ∧ channel.handshake = some handshake
      ∧ handshake.pattern = NOISE_PATTERN_KK ∧ IsShake S.env data offer params
      ∧ envelope params = .ok message ∧ (handshake.readMessage message).1 = .error err
  | .refusal =>
    ∃ channel handshake, client.channel = some channel ∧ channel.session = none
      ∧ channel.handshake = some handshake ∧ handshake.pattern = NOISE_PATTERN_KK
  | _ => False

/-- The verdict on a KK handshake is of the frame that failed it. -/
theorem failsKk_of_kkFailed {data : Bytes} {binary written : Bool} {client : Client S.snow}
    {s : Link S.env} (hclient : client.channel = some s.1) (hs : s.1.Sound)
    (hfailed : s.1.failed = false) (h : (receive S.env data binary s).2.1.kkFailed = true) :
    FailsKk S client (.frame data binary written) := by
  have hkk : s.1.kkFailed = false := by
    rcases hkk : s.1.kkFailed with _ | _
    · rfl
    · rw [hs.failed hkk] at hfailed
      cases hfailed
  rcases receive_cases data binary hfailed with ⟨err, hr⟩ |
    ⟨session, heard, failed, r, -, -, hr, -⟩ | ⟨message, hnone, rfl, hdata, hr⟩
  · rw [hr] at h
    exact absurd (hkk.symm.trans h) Bool.false_ne_true
  · rw [hr] at h
    exact absurd (hkk.symm.trans h) Bool.false_ne_true
  · have hclear : (receiveClear S.env message s).2.1.kkFailed = true := by
      rcases hr with ⟨writes, -, hr⟩ | ⟨err, -, hr⟩ <;> rw [hr] at h <;> exact h
    rcases @receiveClear_cases _ S.env message with ⟨-, hc⟩ |
      ⟨htype, params, hparams, ⟨-, hc⟩ | ⟨-, hc⟩⟩ | ⟨err, hc⟩ <;> rw [hc] at hclear
    · rcases receiveHello_cases message s with ⟨err, nodeId, hr⟩ | ⟨nodeId, hr⟩ <;>
        rw [hr] at hclear <;> exact absurd (hkk.symm.trans hclear) Bool.false_ne_true
    · have hcont := @continueHandshake_cases _ S.env params s
      generalize continueHandshake S.env params s = out at hclear hcont
      cases hcont with
      | refused err => exact absurd (hkk.symm.trans hclear) Bool.false_ne_true
      | rejected answer handshake err henvelope hhandshake hread =>
        have hpattern : s.1.pattern = some NOISE_PATTERN_KK := by
          have : (s.1.kkFailed || s.1.pattern = some NOISE_PATTERN_KK) = true := hclear
          simpa [hkk] using this
        refine ⟨rfl, s.1, handshake, message.payload, params, answer, err, hclient, hnone, hfailed,
          hhandshake, ?_, ⟨message, hdata, htype, rfl, hparams⟩, henvelope, hread⟩
        exact Option.some.inj ((hs.pattern handshake hhandshake).symm.trans hpattern)
      | stopped => exact absurd (hkk.symm.trans hclear) Bool.false_ne_true
      | installed => exact absurd (hkk.symm.trans hclear) Bool.false_ne_true
    · have hstart := @start_cases _ S.env message.payload params s
      generalize start S.env message.payload params s = out at hclear hstart
      cases hstart <;> exact absurd (hkk.symm.trans hclear) Bool.false_ne_true
    · exact absurd (hkk.symm.trans hclear) Bool.false_ne_true

/-! ## One step of a client -/

/-- The channel that reads a frame in a step, and the frame. -/
def frameOf (client : Client S.snow) : LinkStep → Option (NoiseChannel S.snow × Bytes × Bool)
  | .frame data binary _ => client.channel.map fun channel => (channel, data, binary)
  | .worker n => client.abandoned[n]?
  | _ => none

/-- What a step of a client has done. -/
inductive Stepped (client : Client S.snow) (d : Disk) : LinkStep → Party S → Prop where
  | still (step : LinkStep) (hreceived : frameOf client step = none) :
      Stepped client d step (client, d)
  | connected (hphase : client.phase = .idle) :
      Stepped client d .connect ({ client with
        generation := client.generation + 1
        kkFailed := false
        forceXx := false
        phase := .first
        opened := false
        links := 0 }, d)
  | opened (hphase : client.phase ≠ .idle) (hopened : client.opened = false) :
      Stepped client d .openLink (openLink S (client, d))
  | unread (data : Bytes) (binary written : Bool) (c c' : NoiseChannel S.snow) (err : ThalovantError)
      (d' : Disk) (hchannel : client.channel = some c)
      (h : receive S.env data binary (c, d) = (.error err, (c', d'))) :
      Stepped client d (.frame data binary written) ({ client with
        channel := some c'
        kkFailed := if c.session.isSome then client.kkFailed
          else noteFailure S err c' client.kkFailed }, d')
  | read (data : Bytes) (binary written : Bool) (c c' : NoiseChannel S.snow)
      (r : Option HiveMessage × List NoiseWrite) (d' : Disk) (hchannel : client.channel = some c)
      (h : receive S.env data binary (c, d) = (.ok r, (c', d'))) :
      Stepped client d (.frame data binary written)
        ({ client with channel := some { c' with failed := !written } }, d')
  | abandoned (data : Bytes) (binary : Bool) (c : NoiseChannel S.snow) :
      Stepped client d (.abandon data binary) ({ client with
        channel := none
        abandoned := (c, data, binary) :: client.abandoned }, d)
  | worked (n : Nat) (c : NoiseChannel S.snow) (data : Bytes) (binary : Bool)
      (h : client.abandoned[n]? = some (c, data, binary)) :
      Stepped client d (.worker n) (finishWorker S n c data binary (client, d))
  | unsent (message : HiveMessage) (written : Bool) (c c' : NoiseChannel S.snow)
      (err : ThalovantError) (hchannel : client.channel = some c)
      (h : encode S.env message (c, d) = (.error err, (c', d))) :
      Stepped client d (.send message written) ({ client with channel := some c' }, d)
  | sent (message : HiveMessage) (written : Bool) (c c' : NoiseChannel S.snow)
      (writes : List NoiseWrite) (hchannel : client.channel = some c)
      (h : encode S.env message (c, d) = (.ok writes, (c', d))) :
      Stepped client d (.send message written)
        ({ client with channel := some { c' with failed := !written } }, d)
  | refused : Stepped client d .refusal ({ client with
        kkFailed := client.kkFailed || client.channel.any NoiseChannel.kkPending }, d)
  | dropped :
      Stepped client d .drop ({ client with channel := none }, dropChannel S client.channel d)
  | retried (err : ThalovantError) (hphase : client.phase = .first) (hkk : client.kkFailed = true) :
      Stepped client d (.finish (.error err)) ({ client with
        kkFailed := false, forceXx := true, phase := .second, opened := false }, d)
  | finished (result : Result Unit) (forceXx : Bool) :
      Stepped client d (.finish result)
        ({ client with forceXx := forceXx, phase := .idle, opened := false }, d)
  | cancelled :
      Stepped client d .cancel ({ client with phase := .idle, opened := false }, d)

theorem encode_world (message : HiveMessage) (s : Link S.env) :
    (encode S.env message s).2.2 = s.2 := by
  rcases encode_cases message s with ⟨h, -⟩ | ⟨session, hsession, -, h⟩
  · rw [h]
  · obtain ⟨r, session', henc, -⟩ := encodeUnder_cases session message s hsession
    rw [h, henc]

/-- **What a step of a client can do.** -/
theorem clientStep_cases (client : Client S.snow) (d : Disk) (step : LinkStep) :
    Stepped client d step (clientStep S (client, d) step).2 := by
  cases step with
  | connect =>
    simp only [clientStep]
    split
    · next hphase => exact .connected hphase
    · exact .still _ rfl
  | openLink =>
    simp only [clientStep]
    split
    · exact .still _ rfl
    · next h =>
      rw [Bool.or_eq_true, decide_eq_true_eq, not_or, Bool.not_eq_true] at h
      exact .opened h.1 h.2
  | frame data binary written =>
    simp only [clientStep]
    rcases hchannel : client.channel with _ | c
    · exact .still _ (by rw [frameOf, hchannel]; rfl)
    · simp only [receiveNoise]
      rcases h : receive S.env data binary (c, d) with ⟨err | r, c', d'⟩
      · exact .unread data binary written c c' err d' hchannel h
      · exact .read data binary written c c' r d' hchannel h
  | abandon data binary =>
    simp only [clientStep]
    rcases client.channel with _ | c
    · exact .still _ rfl
    · simp only [abandon]
      split
      · exact .still _ rfl
      · exact .abandoned data binary c
  | worker n =>
    simp only [clientStep]
    rcases h : client.abandoned[n]? with _ | ⟨c, data, binary⟩
    · exact .still _ h
    · exact .worked n c data binary h
  | send message written =>
    simp only [clientStep]
    rcases hchannel : client.channel with _ | c
    · exact .still _ rfl
    · have hworld := encode_world message ((c, d) : Link S.env)
      simp only [sendNoise]
      rcases h : encode S.env message (c, d) with ⟨err | writes, c', d'⟩ <;> rw [h] at hworld
      · obtain rfl : d' = d := hworld
        exact .unsent message written c c' err hchannel h
      · obtain rfl : d' = d := hworld
        exact .sent message written c c' writes hchannel h
  | refusal => exact .refused
  | drop => exact .dropped
  | finish result =>
    simp only [clientStep, finish]
    split
    · exact .still _ rfl
    · next hphase =>
      split
      · next err hkk => exact .retried _ hphase hkk
      · next =>
        exact .finished _ client.forceXx
    · exact .finished _ false
  | cancel => exact .cancelled

/-- The pins after a step are those after the frame it reads, if it reads one. -/
theorem clientStep_pins (client : Client S.snow) (d : Disk) (step : LinkStep) :
    (∃ c data binary, frameOf client step = some (c, data, binary)
      ∧ (clientStep S (client, d) step).2.2.pins = (receive S.env data binary (c, d)).2.2.pins)
    ∨ frameOf client step = none ∧ (clientStep S (client, d) step).2.2.pins = d.pins := by
  have h := clientStep_cases client d step
  generalize (clientStep S (client, d) step).2 = out at h ⊢
  cases h with
  | unread data binary written c c' err d' hchannel h =>
    exact .inl ⟨c, data, binary, by rw [frameOf, hchannel]; rfl, by rw [h]⟩
  | read data binary written c c' r d' hchannel h =>
    exact .inl ⟨c, data, binary, by rw [frameOf, hchannel]; rfl, by rw [h]⟩
  | worked n c data binary h => exact .inl ⟨c, data, binary, h, dropChannel_pins _ _⟩
  | still _ hreceived => exact .inr ⟨hreceived, rfl⟩
  | opened => exact .inr ⟨rfl, dropChannel_pins _ _⟩
  | dropped => exact .inr ⟨rfl, dropChannel_pins _ _⟩
  | _ => exact .inr ⟨rfl, rfl⟩

end Thalovant.Transport
