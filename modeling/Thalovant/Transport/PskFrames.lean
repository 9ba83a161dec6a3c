import Thalovant.Noise.PskCache
import Thalovant.Transport.ChannelSafety
import Thalovant.Transport.ConnectSteps

/-!
# What a frame does to the cached pre-shared keys

A handshake takes the cached pre-shared key if there is one, else it derives and caches one. Two things
touch the cache: a frame that is read (`readFrame_framed`), where it is an offer or an answer that does
not authenticate, and the drop of a channel in the middle of its handshake (`dropChannel_cases`).

The store works: it is the handshakes that fail here, at any message, as the hub likes.
-/

namespace Thalovant.Transport

open Thalovant.Noise Thalovant.Noise.Store Fallible

variable (S : Surroundings)

/-! ## Frames -/

/-- A frame of the link. `written` says whether everything there was to write in answer went out. -/
structure LinkFrame where
  data : Bytes
  binary : Bool
  written : Bool

/-- `receive_noise`, and the writes that follow it. -/
def readFrame (s : Link S.env) (f : LinkFrame) : Link S.env :=
  match receive S.env f.data f.binary s with
  | (.ok _, (c, d)) => ({ c with failed := !f.written }, d)
  | (.error _, s) => s

/-- The pre-shared key that `start` comes to. -/
def startPsk (c : NoiseChannel S.snow) : Store Bytes := do
  adoptKey S.env c
  let _ ← S.env.loadNoisePin c.stateDir c.nodeId
  let _ ← S.env.loadOrCreateNoiseKey c.stateDir
  cachedOrDerivedPsk S.env c

/-- The frame is an offer, for `start` to answer. -/
def Offered (s : Link S.env) (f : LinkFrame) : Prop :=
  s.1.failed = false ∧ s.1.session = none ∧ f.binary = false ∧ IsOffer S.env f.data

/-- The frame is the hub's answer in the handshake, and reading it gives this. -/
def Answered (s : Link S.env) (f : LinkFrame) (read : Result Bytes) : Prop :=
  s.1.failed = false ∧ s.1.session = none ∧ f.binary = false
    ∧ ∃ offer params message handshake, IsShake S.env f.data offer params
      ∧ Map.containsKey "msg" params = true ∧ envelope params = .ok message
      ∧ s.1.handshake = some handshake ∧ (handshake.readMessage message).1 = read

variable {S} {stateDir : Option String}

/-! ## The key a handshake begins with -/

/-- The first message is written under the key that `start` comes to. -/
theorem prepare_psk {c : NoiseChannel S.snow} {offer params : Map} {d d₁ d₂ : Disk}
    {handshake : NoiseHandshake S.snow} {pattern suite : String}
    (hadopt : adoptKey S.env c d = (.ok (), d₁))
    (h : prepare S.env c offer params d₁ = (.ok (handshake, pattern, suite), d₂)) :
    ∃ psk prologue key pin seed, (startPsk S c d).1 = .ok psk
      ∧ NoiseHandshake.new S.snow pattern suite psk prologue key pin seed = .ok handshake := by
  unfold prepare at h
  obtain ⟨pin, w₁, hpin, h⟩ := bind_eq_ok.mp h
  dsimp only at h
  rcases hselect : selectNoiseOptions (stringList (params.get "patterns"))
    (stringList (params.get "suites")) (if c.forceXx then none else pin) with _ | ⟨pattern', suite'⟩ <;>
    rw [hselect] at h
  · cases h
  obtain ⟨key, w₂, hkey, h⟩ := bind_eq_ok.mp h
  obtain ⟨psk, w₃, hpsk, h⟩ := bind_eq_ok.mp h
  obtain ⟨seed, w₄, -, h⟩ := bind_eq_ok.mp h
  obtain ⟨handshake', w₅, hnew, h⟩ := bind_eq_ok.mp h
  cases h
  refine ⟨psk, _, key, pin, seed, ?_, congrArg Prod.fst hnew⟩
  unfold startPsk
  rw [bind_ok hadopt, bind_ok hpin, bind_ok hkey, hpsk]

theorem adoptKey_psks {Q : String → Stored TextMap} (c : NoiseChannel S.snow) :
    KeepsPsks Q (adoptKey S.env c) := by
  unfold adoptKey
  rcases c.stateDir with _ | target
  · exact .pure _
  rcases c.adoptFrom with _ | source
  · exact .pure _
  · exact .bind (adoptLegacyKey_psks S.store target source c.nodeId) fun _ => .pure _

/-- The cache after a key was derived: the entry is as it was, or it is the derived key. -/
structure Refreshed (S : Surroundings) (folder : String) (c : NoiseChannel S.snow) (d d' : Disk) :
    Prop where
  readable : (d'.psks folder).readable = true
  self : d'.cached folder c.nodeId = d.cached folder c.nodeId
    ∨ ∃ psk, S.derivePsk c.identity.password c.nodeId = .ok psk
      ∧ d'.cached folder c.nodeId = some (hexEncode psk)
  others : ∀ n, n ≠ c.nodeId → d'.cached folder n = d.cached folder n

section Start

variable {folder : String} {c : NoiseChannel S.snow} {d : Disk}

theorem cached_of_psks {d d' : Disk} (h : d'.psks = d.psks) (n : String) :
    d'.cached folder n = d.cached folder n := by
  rw [Disk.cached, Disk.cached, h]

theorem Refreshed.of_psks {d' : Disk} (hread : (d.psks folder).readable = true)
    (h : d'.psks = d.psks) : Refreshed S folder c d d' where
  readable := by
    rw [h]
    exact hread
  self := .inl (cached_of_psks h _)
  others n _ := cached_of_psks h n

/-- What is done first may leave the caches alone. -/
theorem Refreshed.congr {d₁ d' : Disk} (h : Refreshed S folder c d₁ d') (hpsks : d₁.psks = d.psks) :
    Refreshed S folder c d d' where
  readable := h.readable
  self := by
    rw [← cached_of_psks hpsks]
    exact h.self
  others n hn := by
    rw [← cached_of_psks hpsks]
    exact h.others n hn

/-- The key is the cached one, or there was none and it is derived. -/
theorem cachedOrDerivedPsk_cases (hworks : Works S.store c.stateDir folder)
    (hread : (d.psks folder).readable = true) :
    Refreshed S folder c d (cachedOrDerivedPsk S.env c d).2
    ∧ ∀ psk, (cachedOrDerivedPsk S.env c d).1 = .ok psk →
      pskFor d folder c.nodeId = some psk
      ∨ pskFor d folder c.nodeId = none ∧ S.derivePsk c.identity.password c.nodeId = .ok psk := by
  obtain ⟨d₁, hload, hfolders⟩ := hworks.loadCachedPsk hread c.nodeId
  have hpsks : d₁.psks = d.psks := by
    unfold Disk.psks
    rw [hfolders]
  unfold cachedOrDerivedPsk
  rw [bind_ok hload]
  cases hcached : pskFor d folder c.nodeId with
  | some psk =>
    refine ⟨.of_psks hread hpsks, ?_⟩
    rintro _ ⟨⟩
    exact .inl rfl
  | none =>
    cases hderive : S.derivePsk c.identity.password c.nodeId with
    | error err =>
      simp only [hderive]
      exact ⟨.of_psks hread hpsks, fun _ h => nomatch h⟩
    | ok derived =>
      obtain ⟨d₂, hsave, hcache⟩ := hworks.saveCachedPsk (hpsks ▸ hread) c.nodeId derived
      simp only [hderive, bind_ok (ofExcept_apply _ _), attempt_bind, hsave, pure_apply]
      refine ⟨Refreshed.congr ⟨hcache.readable, ?_, hcache.others⟩ hpsks, ?_⟩
      · rw [hcache.self]
        split
        · exact .inl rfl
        · exact .inr ⟨derived, hderive, rfl⟩
      · rintro _ ⟨⟩
        exact .inr ⟨trivial, rfl⟩

theorem startPsk_ok (hworks : Works S.store c.stateDir folder)
    (hread : (d.psks folder).readable = true) {psk : Bytes} (h : (startPsk S c d).1 = .ok psk) :
    pskFor d folder c.nodeId = some psk
    ∨ pskFor d folder c.nodeId = none ∧ S.derivePsk c.identity.password c.nodeId = .ok psk := by
  unfold startPsk at h
  obtain ⟨_, d₁, hadopt, -, h⟩ := bind_fst_ok h
  obtain ⟨pin, d₂, hpin, -, h⟩ := bind_fst_ok h
  obtain ⟨key, d₃, hkey, -, h⟩ := bind_fst_ok h
  have hpsks : d₃.psks = d.psks := by
    have h₁ := adoptKey_psks c d rfl
    rw [hadopt] at h₁
    have h₂ := loadNoisePin_psks S.store c.stateDir c.nodeId d₁ h₁
    rw [show Store.loadNoisePin S.store c.stateDir c.nodeId d₁ = (.ok pin, d₂) from hpin] at h₂
    have h₃ := loadOrCreateNoiseKey_psks S.store c.stateDir d₂ h₂
    rw [show Store.loadOrCreateNoiseKey S.store c.stateDir d₂ = (.ok key, d₃) from hkey] at h₃
    exact h₃
  have hcases := (cachedOrDerivedPsk_cases hworks (hpsks ▸ hread)).2 psk h
  unfold pskFor at hcases ⊢
  rwa [cached_of_psks hpsks] at hcases

/-- A first step that leaves the caches alone. -/
theorem Refreshed.of_keeps {α β : Type} {m : Store α} {f : α → Store β}
    (hm : KeepsPsks d.psks m) (hread : (d.psks folder).readable = true)
    (hf : ∀ a d', (d'.psks folder).readable = true → Refreshed S folder c d' (f a d').2) :
    Refreshed S folder c d ((m >>= f) d).2 := by
  have hpsks := hm d rfl
  rcases h : m d with ⟨err | a, d'⟩ <;> rw [h] at hpsks
  · rw [bind_error h]
    exact .of_psks hread hpsks
  · rw [bind_ok h]
    replace hpsks : d'.psks = d.psks := hpsks
    exact (hf a d' (hpsks ▸ hread)).congr hpsks

/-- Further steps that leave the caches alone. -/
theorem Refreshed.keeps {α β : Type} {m : Store α} {f : α → Store β}
    (hm : Refreshed S folder c d (m d).2) (hf : ∀ Q a, KeepsPsks Q (f a)) :
    Refreshed S folder c d ((m >>= f) d).2 := by
  rcases h : m d with ⟨err | a, d'⟩ <;> rw [h] at hm
  · rw [bind_error h]
    exact hm
  · rw [bind_ok h]
    have hpsks : (f a d').2.psks = d'.psks := hf d'.psks a d' rfl
    refine ⟨hpsks ▸ hm.readable, ?_, fun n hn => (cached_of_psks hpsks n).trans (hm.others n hn)⟩
    rw [cached_of_psks hpsks]
    exact hm.self

/-- The preparation of the first message refreshes the cache at most. -/
theorem prepare_refreshed (hworks : Works S.store c.stateDir folder)
    (hread : (d.psks folder).readable = true) (offer params : Map) :
    Refreshed S folder c d (prepare S.env c offer params d).2 := by
  unfold prepare
  refine .of_keeps (loadNoisePin_psks S.store c.stateDir c.nodeId) hread fun pin d₁ hread₁ => ?_
  dsimp only
  rcases selectNoiseOptions (stringList (params.get "patterns")) (stringList (params.get "suites"))
    (if c.forceXx then none else pin) with _ | ⟨pattern, suite⟩
  · exact .of_psks hread₁ rfl
  refine .of_keeps (loadOrCreateNoiseKey_psks S.store c.stateDir) hread₁ fun key d₂ hread₂ => ?_
  refine (cachedOrDerivedPsk_cases hworks hread₂).1.keeps fun Q psk => ?_
  exact .bind (fun d hd => hd) fun _ => .bind (.ofExcept _) fun _ => .pure _

end Start

/-! ## What a frame does to the cached keys -/

theorem checkHubKey_psks {Q : String → Stored TextMap} (c : NoiseChannel S.snow) (remote : String) :
    KeepsPsks Q (checkHubKey S.env c remote) :=
  .bind (loadNoisePin_psks S.store c.stateDir c.nodeId) fun _ =>
    .ite (.fail _) (pinHubKey_psks S.store c.stateDir c.nodeId remote)

/-- What belongs to the client, and stays. -/
def NoiseChannel.owner {snow : Snow} (c : NoiseChannel snow) : Identity × Option String :=
  (c.identity, c.stateDir)

theorem receive_owner (data : Bytes) (binary : Bool) (s : Link S.env) :
    (receive S.env data binary s).2.1.owner = s.1.owner := by
  rcases hfailed : s.1.failed with _ | _
  · rcases receive_cases data binary hfailed with ⟨err, h⟩ |
      ⟨session, heard, failed, r, -, -, h, -⟩ | ⟨message, -, -, -, h⟩
    · rw [h]
      rfl
    · rw [h]
      rfl
    · have hclear : (receiveClear S.env message s).2.1.owner = s.1.owner := by
        have hneg := receiveClear_negotiated message s
        generalize receiveClear S.env message s = out at hneg ⊢
        cases hneg with
        | refused err => rfl
        | hello r nodeId hello hwrites => rfl
        | offer offer params out h => cases h <;> rfl
        | answer params out h => cases h <;> rfl
      rcases h with ⟨writes, -, h⟩ | ⟨err, -, h⟩ <;> rw [h] <;> exact hclear
  · rw [receive_of_failed hfailed]

/-- A frame is received, and the channel may have failed afterwards. -/
theorem readFrame_cases (s : Link S.env) (f : LinkFrame) :
    ∃ failed, readFrame S s f = ({ (receive S.env f.data f.binary s).2.1 with failed := failed },
        (receive S.env f.data f.binary s).2.2)
      ∧ ((receive S.env f.data f.binary s).2.1.failed = true → failed = true) := by
  unfold readFrame
  rcases h : receive S.env f.data f.binary s with ⟨err | r, c, d⟩
  · exact ⟨c.failed, rfl, fun h => h⟩
  · have hfailed := failed_of_received h
    exact ⟨!f.written, rfl, fun h => absurd (hfailed.symm.trans h) Bool.false_ne_true⟩

theorem readFrame_owner (s : Link S.env) (f : LinkFrame) :
    (readFrame S s f).1.owner = s.1.owner := by
  obtain ⟨failed, h, -⟩ := readFrame_cases s f
  rw [h]
  exact receive_owner f.data f.binary s

theorem readFrame_of_failed {s : Link S.env} (f : LinkFrame) (h : s.1.failed = true) :
    readFrame S s f = s := by
  unfold readFrame
  rw [receive_of_failed h]

/-- What a frame has done to the handshake and to the cached keys. -/
inductive Framed (folder : String) (s : Link S.env) (f : LinkFrame) (s' : Link S.env) : Prop where
  /-- Neither is touched. -/
  | quiet (hhandshake : s'.1.handshake = s.1.handshake)
      (hsession : s'.1.session.isSome = s.1.session.isSome)
      (hnode : s.1.handshake.isSome = true → s'.1.nodeId = s.1.nodeId) (hdisk : s'.2 = s.2)
  | offered (h : Offered S s f) (hnone : s.1.handshake = none) (hsession : s'.1.session = none)
      (hnode : s'.1.nodeId = s.1.nodeId) (hcache : Refreshed S folder s.1 s.2 s'.2)
  | rejected (err : ThalovantError) (h : Answered S s f (.error err)) (hfailed : s'.1.failed = true)
      (hhandshake : s'.1.handshake = none) (hcache : Recached folder s.1.nodeId none s.2 s'.2)
  | authenticated (payload : Bytes) (h : Answered S s f (.ok payload))
      (hpsks : s'.2.psks = s.2.psks)

section Frame

variable {folder : String} {s : Link S.env} {f : LinkFrame}

/-- `start`, of an offer. -/
theorem start_framed {offer params : Map} {failed : Bool} (hworks : Works S.store s.1.stateDir folder)
    (hread : (s.2.psks folder).readable = true) (hoffered : Offered S s f)
    {out : Result (List NoiseWrite) × Link S.env} (h : Started offer params s out) :
    Framed folder s f ({ out.2.1 with failed := failed }, out.2.2) := by
  have hprepare : ∀ d₁, adoptKey S.env s.1 s.2 = (.ok (), d₁) →
      Refreshed S folder s.1 s.2 (prepare S.env s.1 offer params d₁).2 := by
    intro d₁ hadopt
    have hpsks := adoptKey_psks s.1 s.2 rfl
    rw [hadopt] at hpsks
    replace hpsks : d₁.psks = s.2.psks := hpsks
    exact (prepare_refreshed hworks (hpsks ▸ hread) offer params).congr hpsks
  cases h with
  | refused err => exact .quiet rfl rfl (fun _ => rfl) rfl
  | stopped err w hnone hworld =>
    refine .offered hoffered hnone hoffered.2.1 rfl ?_
    rcases hworld with rfl | ⟨w₁, hadopt, rfl⟩
    · exact .of_psks hread (adoptKey_psks s.1 s.2 rfl)
    · exact hprepare w₁ hadopt
  | begun r fresh handshake payload pattern suite w₁ w hnone hwrite hclear hadopt hpre =>
    have hcache := hprepare w₁ hadopt
    rw [hpre] at hcache
    exact .offered hoffered hnone hoffered.2.1 rfl hcache

/-- An answer that does not authenticate is rejected. -/
theorem continueHandshake_of_error {params : Map} {message : Bytes} {handshake : NoiseHandshake S.snow}
    {err : ThalovantError} (henvelope : envelope params = .ok message)
    (hhandshake : s.1.handshake = some handshake)
    (h : (handshake.readMessage message).1 = .error err) :
    continueHandshake S.env params s = rejectAnswer S.env
      ({ s.1 with handshake := some (handshake.readMessage message).2 }, s.2) := by
  unfold continueHandshake
  rw [henvelope, bind_ok (ofExcept_apply _ _), read_bind, hhandshake]
  dsimp only
  rw [modify_bind, h]

theorem rejectAnswer_recached (hworks : Works S.store s.1.stateDir folder)
    (hread : (s.2.psks folder).readable = true) :
    Recached folder s.1.nodeId none s.2 (rejectAnswer S.env s).2.2 := by
  obtain ⟨d', hforget, hcache⟩ := hworks.forgetCachedPsk hread s.1.nodeId
  rw [show (rejectAnswer S.env s).2.2 = d' from congrArg Prod.snd hforget]
  exact hcache

/-- An answer that authenticates leaves the cache, whatever comes of it. -/
theorem continueHandshake_psks {params : Map} {message payload : Bytes}
    {handshake : NoiseHandshake S.snow} (henvelope : envelope params = .ok message)
    (hhandshake : s.1.handshake = some handshake)
    (h : (handshake.readMessage message).1 = .ok payload) :
    (continueHandshake S.env params s).2.2.psks = s.2.psks := by
  have hcases := @continueHandshake_cases _ S.env params s
  generalize continueHandshake S.env params s = out at hcases ⊢
  cases hcases with
  | refused err => rfl
  | rejected message' handshake' err henvelope' hhandshake' hrejected =>
    cases henvelope.symm.trans henvelope'
    cases hhandshake.symm.trans hhandshake'
    cases h.symm.trans hrejected
  | stopped err before handshake' w hhandshake' hdone hworld =>
    rcases hworld with rfl | ⟨remote, err', hcheck⟩
    · rfl
    · have hpsks := checkHubKey_psks s.1 remote s.2 rfl
      rw [hcheck] at hpsks
      exact hpsks
  | installed message' handshake' read done payload' session session' remote w writes sent henvelope'
      hhandshake' hrd hdone hinto hremote hcheck hclear hsent =>
    have hpsks := checkHubKey_psks s.1 remote s.2 rfl
    rw [hcheck] at hpsks
    exact hpsks

/-- `continue_handshake`, of an answer. -/
theorem continueHandshake_framed {offer params : Map} {failed : Bool}
    (hworks : Works S.store s.1.stateDir folder) (hread : (s.2.psks folder).readable = true)
    (hclear : s.1.failed = false ∧ s.1.session = none ∧ f.binary = false)
    (hshake : IsShake S.env f.data offer params) (hmsg : Map.containsKey "msg" params = true)
    (hfailed : (∃ err, (continueHandshake S.env params s).1 = .error err) → failed = true) :
    Framed folder s f ({ (continueHandshake S.env params s).2.1 with failed := failed },
      (continueHandshake S.env params s).2.2) := by
  obtain ⟨hok, hnone, hbinary⟩ := hclear
  rcases henvelope : envelope params with err | message
  · have h : continueHandshake S.env params s = (.error err, s) := by
      unfold continueHandshake
      rw [henvelope]
      rfl
    rw [h]
    exact .quiet rfl rfl (fun _ => rfl) rfl
  rcases hhandshake : s.1.handshake with _ | handshake
  · obtain ⟨err, h⟩ := @continueHandshake_of_none _ S.env params s hhandshake
    rw [h]
    exact .quiet rfl rfl (fun _ => rfl) rfl
  have hanswered : Answered S s f (handshake.readMessage message).1 :=
    ⟨hok, hnone, hbinary, offer, params, message, handshake, hshake, hmsg, henvelope, hhandshake, rfl⟩
  rcases hread' : (handshake.readMessage message).1 with err | payload <;> rw [hread'] at hanswered
  · rw [continueHandshake_of_error henvelope hhandshake hread'] at hfailed ⊢
    exact .rejected err hanswered (hfailed ⟨_, rfl⟩) rfl
      (@rejectAnswer_recached S folder ({ s.1 with handshake := some _ }, s.2) hworks hread)
  · exact .authenticated payload hanswered (continueHandshake_psks henvelope hhandshake hread')

/-- `receive_clear`, of a message before the session. -/
theorem receiveClear_framed {message : HiveMessage} {failed : Bool}
    (hworks : Works S.store s.1.stateDir folder) (hread : (s.2.psks folder).readable = true)
    (hclear : s.1.failed = false ∧ s.1.session = none ∧ f.binary = false)
    (hdata : S.env.fromSlice f.data = .ok message)
    (hfailed : (∃ err, (receiveClear S.env message s).1 = .error err) → failed = true) :
    Framed folder s f ({ (receiveClear S.env message s).2.1 with failed := failed },
      (receiveClear S.env message s).2.2) := by
  rcases @receiveClear_cases _ S.env message with ⟨-, h⟩ |
    ⟨htype, params, hparams, ⟨hmsg, h⟩ | ⟨hmsg, h⟩⟩ | ⟨err, h⟩ <;> rw [h] at hfailed ⊢
  · by_cases hsome : s.1.handshake.isSome = true
    · rw [receiveHello_of_hello (.inr hsome)]
      exact .quiet rfl rfl (fun _ => rfl) rfl
    · rcases receiveHello_cases message s with ⟨err, nodeId, hr⟩ | ⟨nodeId, hr⟩ <;> rw [hr] <;>
        exact .quiet rfl rfl (fun h => absurd h hsome) rfl
  · exact continueHandshake_framed hworks hread hclear ⟨message, hdata, htype, rfl, hparams⟩ hmsg
      hfailed
  · exact start_framed hworks hread ⟨hclear.1, hclear.2.1, hclear.2.2, _, params,
      ⟨message, hdata, htype, rfl, hparams⟩, hmsg⟩ (start_cases message.payload params s)
  · exact .quiet rfl rfl (fun _ => rfl) rfl

/-- **What a frame can do to the handshake and to the cached keys.** -/
theorem readFrame_framed (hworks : Works S.store s.1.stateDir folder)
    (hread : (s.2.psks folder).readable = true) (f : LinkFrame) :
    Framed folder s f (readFrame S s f) := by
  rcases hfailed : s.1.failed with _ | _
  · obtain ⟨failed, h, hkept⟩ := readFrame_cases s f
    rw [h]
    rcases receive_cases f.data f.binary hfailed with ⟨err, hr⟩ |
      ⟨session, heard, failed', r, hsession, -, hr, -⟩ | ⟨message, hnone, hbinary, hdata, hr⟩
    · rw [hr]
      exact .quiet rfl rfl (fun _ => rfl) rfl
    · rw [hr]
      exact .quiet rfl (by rw [hsession]; rfl) (fun _ => rfl) rfl
    · have herr : (∃ err, (receiveClear S.env message s).1 = .error err) → failed = true := by
        rintro ⟨err, herr⟩
        rcases hr with ⟨writes, hok, -⟩ | ⟨err', -, hr⟩
        · cases herr.symm.trans hok
        · exact hkept (by rw [hr])
      have hlink : ({ (receive S.env f.data f.binary s).2.1 with failed := failed },
          (receive S.env f.data f.binary s).2.2) = (({ (receiveClear S.env message s).2.1 with
            failed := failed }, (receiveClear S.env message s).2.2) : Link S.env) := by
        rcases hr with ⟨writes, -, hr⟩ | ⟨err', -, hr⟩ <;> rw [hr]
      rw [hlink]
      exact receiveClear_framed hworks hread ⟨hfailed, hnone, hbinary⟩ hdata herr
  · rw [readFrame_of_failed f hfailed]
    exact .quiet rfl rfl (fun _ => rfl) rfl

/-- A message before the session goes to `receive_clear`, and the channel may fail afterwards. -/
theorem readFrame_of_clear {message : HiveMessage} (hok : s.1.failed = false)
    (hsession : s.1.session = none) (hbinary : f.binary = false)
    (hdata : S.env.fromSlice f.data = .ok message) :
    ∃ failed, readFrame S s f = ({ (receiveClear S.env message s).2.1 with failed := failed },
      (receiveClear S.env message s).2.2) := by
  obtain ⟨failed, hframe, -⟩ := readFrame_cases s f
  have hinner := receiveInner_clear hsession hdata
  rw [hframe, hbinary]
  refine ⟨failed, ?_⟩
  rcases hclear : receiveClear S.env message s with ⟨err | writes, s'⟩
  · rw [bind_error hclear] at hinner
    rw [receive_of_error hok hinner]
  · rw [bind_ok hclear] at hinner
    rw [receive_of_ok hok hinner]

/-- The hub's answer goes to `continue_handshake`. -/
theorem Answered.continues {read : Result Bytes} (h : Answered S s f read) :
    ∃ params message handshake, envelope params = .ok message ∧ s.1.handshake = some handshake
      ∧ (handshake.readMessage message).1 = read
      ∧ (readFrame S s f).2 = (continueHandshake S.env params s).2.2 := by
  obtain ⟨hok, hnone, hbinary, offer, params, message, handshake, ⟨m, hdata, htype, hpayload, hparams⟩,
    hmsg, henvelope, hhandshake, hread⟩ := h
  refine ⟨params, message, handshake, henvelope, hhandshake, hread, ?_⟩
  obtain ⟨failed, hframe⟩ := readFrame_of_clear hok hnone hbinary hdata
  rw [hframe, receiveClear_of_shake htype (hpayload ▸ hparams), if_pos hmsg]

/-- The handshake that an offer begins is made with the key that `start` comes to. -/
theorem Offered.begins (h : Offered S s f) (hnone : s.1.handshake = none)
    (hbegun : (readFrame S s f).1.handshake.isSome = true) {psk : Bytes}
    (hpsk : (startPsk S s.1 s.2).1 = .ok psk) :
    ∃ pattern suite prologue key pin seed fresh payload,
      NoiseHandshake.new S.snow pattern suite psk prologue key pin seed = .ok fresh
      ∧ (readFrame S s f).1.handshake = some (fresh.writeMessage payload).2 := by
  obtain ⟨hok, hsession, hbinary, _, params, ⟨message, hdata, htype, rfl, hparams⟩, hmsg⟩ := h
  obtain ⟨failed, hframe⟩ := readFrame_of_clear hok hsession hbinary hdata
  rw [receiveClear_of_shake htype hparams, if_neg (by rw [hmsg]; exact Bool.false_ne_true)] at hframe
  rw [hframe] at hbegun ⊢
  have hcases := @start_cases _ S.env message.payload params s
  generalize start S.env message.payload params s = out at hcases hbegun ⊢
  cases hcases with
  | refused err => rw [hnone] at hbegun; cases hbegun
  | stopped err w hnone' hworld => rw [hnone] at hbegun; cases hbegun
  | begun r fresh handshake payload pattern suite w₁ w hnone' hwrite hclear hadopt hpre =>
    obtain ⟨psk', prologue, key, pin, seed, hstart, hnew⟩ := prepare_psk hadopt hpre
    cases hpsk.symm.trans hstart
    exact ⟨pattern, suite, prologue, key, pin, seed, fresh, payload, hnew, congrArg some hwrite⟩

end Frame

/-! ## A channel of the client -/

/-- A link of the client, over its folder. -/
structure OnFolder (stateDir : Option String) (folder : String) (s : Link S.env) : Prop where
  stateDir : s.1.stateDir = stateDir
  readable : (s.2.psks folder).readable = true

/-- The hub's answer is awaited. -/
def Waits (nodeId : String) (s : Link S.env) : Prop :=
  s.1.handshake.isSome = true ∧ s.1.session = none ∧ s.1.nodeId = nodeId

/-- The answer has been rejected. -/
def Lost (folder nodeId : String) (s : Link S.env) : Prop :=
  s.1.failed = true ∧ s.1.handshake = none ∧ s.2.cached folder nodeId = none

/-- If a key is cached for a node id, it is derived from one of these passwords. -/
def Fresh (S : Surroundings) (passwords : String → Prop) (folder nodeId : String) (d : Disk) : Prop :=
  d.cached folder nodeId = none
  ∨ ∃ password psk, passwords password ∧ S.derivePsk password nodeId = .ok psk
    ∧ d.cached folder nodeId = some (hexEncode psk)

section Channel

variable {folder : String} {s : Link S.env}

theorem readFrame_onFolder (hworks : Works S.store stateDir folder) (h : OnFolder stateDir folder s)
    (f : LinkFrame) : OnFolder stateDir folder (readFrame S s f) := by
  refine ⟨(congrArg Prod.snd (readFrame_owner s f)).trans h.stateDir, ?_⟩
  have hframed := readFrame_framed (h.stateDir ▸ hworks) h.readable f
  generalize readFrame S s f = s' at hframed ⊢
  cases hframed with
  | quiet hhandshake hsession hnode hdisk => exact hdisk ▸ h.readable
  | offered hoffered hnone hsession hnode hcache => exact hcache.readable
  | rejected err hanswered hfailed hhandshake hcache => exact hcache.readable
  | authenticated payload hanswered hpsks => exact hpsks ▸ h.readable

/-- Where no answer authenticates, the one awaited still is, or it has been rejected. -/
theorem readFrame_waits (hworks : Works S.store stateDir folder) (h : OnFolder stateDir folder s)
    {nodeId : String} (hwaits : Waits nodeId s ∨ Lost folder nodeId s) {f : LinkFrame}
    (hnot : ¬ ∃ payload, Answered S s f (.ok payload)) :
    Waits nodeId (readFrame S s f) ∨ Lost folder nodeId (readFrame S s f) := by
  rcases hwaits with ⟨hsome, hnone, hnode⟩ | hlost
  · have hframed := readFrame_framed (h.stateDir ▸ hworks) h.readable f
    generalize readFrame S s f = s' at hframed ⊢
    cases hframed with
    | quiet hhandshake hsession hkept hdisk =>
      refine .inl ⟨hhandshake ▸ hsome, ?_, (hkept hsome).trans hnode⟩
      rwa [← Option.not_isSome_iff_eq_none, hsession, Option.not_isSome_iff_eq_none]
    | offered hoffered hfresh => rw [hfresh] at hsome; cases hsome
    | rejected err hanswered hfailed hhandshake hcache =>
      exact .inr ⟨hfailed, hhandshake, hnode ▸ hcache.self⟩
    | authenticated payload hanswered => exact absurd ⟨payload, hanswered⟩ hnot
  · rw [readFrame_of_failed f hlost.1]
    exact .inr hlost

/-- The first message has been written: the answer is awaited. -/
theorem waits_of_begun (hworks : Works S.store stateDir folder) (h : OnFolder stateDir folder s)
    {f : LinkFrame} (hnone : s.1.handshake = none)
    (hbegun : (readFrame S s f).1.handshake.isSome = true) : Waits s.1.nodeId (readFrame S s f) := by
  have hframed := readFrame_framed (h.stateDir ▸ hworks) h.readable f
  generalize readFrame S s f = s' at hframed hbegun ⊢
  cases hframed with
  | quiet hhandshake => rw [hhandshake, hnone] at hbegun; cases hbegun
  | offered hoffered hfresh hsession hnode => exact ⟨hbegun, hsession, hnode⟩
  | rejected err hanswered hfailed hhandshake => rw [hhandshake] at hbegun; cases hbegun
  | authenticated payload hanswered =>
    obtain ⟨params, message, handshake, -, hsome, -⟩ := hanswered.continues
    cases hnone.symm.trans hsome

/-- A key is cached only where an offer is answered. -/
theorem readFrame_fresh (hworks : Works S.store stateDir folder) (h : OnFolder stateDir folder s)
    {passwords : String → Prop} {nodeId : String} (hfresh : Fresh S passwords folder nodeId s.2)
    {f : LinkFrame}
    (hoffer : Offered S s f → s.1.nodeId = nodeId → passwords s.1.identity.password) :
    Fresh S passwords folder nodeId (readFrame S s f).2 := by
  have hframed := readFrame_framed (h.stateDir ▸ hworks) h.readable f
  generalize readFrame S s f = s' at hframed ⊢
  unfold Fresh at hfresh ⊢
  cases hframed with
  | quiet hhandshake hsession hnode hdisk => exact hdisk ▸ hfresh
  | offered hoffered hnone hsession hnode hcache =>
    by_cases hn : nodeId = s.1.nodeId
    · rcases hcache.self with hself | ⟨psk, hderive, hself⟩ <;> rw [← hn] at hself
      · rwa [hself]
      · rw [← hn] at hderive
        exact .inr ⟨_, psk, hoffer hoffered hn.symm, hderive, hself⟩
    · rwa [hcache.others nodeId hn]
  | rejected err hanswered hfailed hhandshake hcache =>
    by_cases hn : nodeId = s.1.nodeId
    · exact .inl (hn ▸ hcache.self)
    · rwa [hcache.others nodeId hn]
  | authenticated payload hanswered hpsks => rwa [cached_of_psks hpsks]

/-- Where what is cached is derived from one of the passwords, the key that `start` comes to is. -/
theorem startPsk_fresh (hworks : Works S.store stateDir folder) (h : OnFolder stateDir folder s)
    {passwords : String → Prop} (hfresh : Fresh S passwords folder s.1.nodeId s.2)
    (hself : passwords s.1.identity.password) {psk : Bytes} (hpsk : (startPsk S s.1 s.2).1 = .ok psk) :
    ∃ password, passwords password ∧ S.derivePsk password s.1.nodeId = .ok psk := by
  rcases startPsk_ok (h.stateDir ▸ hworks) h.readable hpsk with hcached | ⟨-, hderived⟩
  · unfold pskFor at hcached
    split at hcached
    · cases hcached
    · rcases hfresh with hgone | ⟨password, psk', hpassword, hderive, htext⟩
      · rw [hgone] at hcached
        cases hcached
      · rw [htext, Option.bind_some] at hcached
        rw [decodePsk_hexEncode hcached]
        exact ⟨password, hpassword, hderive⟩
  · exact ⟨_, hself, hderived⟩

/-- The drop of a channel evicts the key of a handshake that has not finished, and no more. -/
theorem dropChannel_cases (hworks : Works S.store stateDir folder) {c : NoiseChannel S.snow} {d : Disk}
    (h : OnFolder stateDir folder ((c, d) : Link S.env)) :
    (c.handshake.isSome = true ∧ c.session = none)
      ∧ Recached folder c.nodeId none d (dropChannel S (some c) d)
    ∨ (c.handshake = none ∨ c.session.isSome = true) ∧ dropChannel S (some c) d = d := by
  unfold dropChannel
  by_cases hwaits : c.handshake.isSome && c.session.isNone
  · refine .inl ⟨by simpa using hwaits, ?_⟩
    have hworks' : Works S.store c.stateDir folder := h.stateDir ▸ hworks
    obtain ⟨d', hforget, hcache⟩ := hworks'.forgetCachedPsk h.readable c.nodeId
    dsimp only
    rw [if_pos hwaits, hforget]
    exact hcache
  · refine .inr ⟨?_, if_neg hwaits⟩
    rcases hhandshake : c.handshake with _ | handshake
    · exact .inl rfl
    · rcases hsession : c.session with _ | session
      · simp [hhandshake, hsession] at hwaits
      · exact .inr rfl

theorem dropChannel_readable (hworks : Works S.store stateDir folder) {c : NoiseChannel S.snow}
    {d : Disk} (h : OnFolder stateDir folder ((c, d) : Link S.env)) :
    ((dropChannel S (some c) d).psks folder).readable = true := by
  rcases dropChannel_cases hworks h with ⟨-, hcache⟩ | ⟨-, hsame⟩
  · exact hcache.readable
  · rw [hsame]
    exact h.readable

theorem dropChannel_waits (hworks : Works S.store stateDir folder) (h : OnFolder stateDir folder s)
    {nodeId : String} (hwaits : Waits nodeId s ∨ Lost folder nodeId s) :
    (dropChannel S (some s.1) s.2).cached folder nodeId = none := by
  rcases dropChannel_cases hworks h with ⟨⟨hsome, -⟩, hcache⟩ | ⟨hdone, hsame⟩
  · rcases hwaits with ⟨-, -, hnode⟩ | ⟨-, hnone, -⟩
    · exact hnode ▸ hcache.self
    · rw [hnone] at hsome; cases hsome
  · rw [hsame]
    rcases hwaits with ⟨hsome, hnone, -⟩ | ⟨-, -, hgone⟩
    · rcases hdone with hdone | hdone
      · rw [hdone] at hsome; cases hsome
      · rw [hnone] at hdone; cases hdone
    · exact hgone

theorem dropChannel_fresh (hworks : Works S.store stateDir folder) (h : OnFolder stateDir folder s)
    {passwords : String → Prop} {nodeId : String} (hfresh : Fresh S passwords folder nodeId s.2) :
    Fresh S passwords folder nodeId (dropChannel S (some s.1) s.2) := by
  unfold Fresh at hfresh ⊢
  rcases dropChannel_cases hworks h with ⟨-, hcache⟩ | ⟨-, hsame⟩
  · by_cases hn : nodeId = s.1.nodeId
    · exact .inl (hn ▸ hcache.self)
    · rwa [hcache.others nodeId hn]
  · rwa [hsame]

/-- A rejected answer takes the cached key of its node id with it, and nothing else. -/
theorem Answered.recached (hworks : Works S.store stateDir folder) {s : Link S.env} {f : LinkFrame}
    (h : OnFolder stateDir folder s) {err : ThalovantError} (hanswered : Answered S s f (.error err)) :
    Recached folder s.1.nodeId none s.2 (readFrame S s f).2 := by
  obtain ⟨params, message, handshake, henvelope, hhandshake, hread, hdisk⟩ := hanswered.continues
  have hworks' : Works S.store s.1.stateDir folder := h.stateDir ▸ hworks
  rw [hdisk, continueHandshake_of_error henvelope hhandshake hread]
  exact @rejectAnswer_recached S folder ({ s.1 with handshake := some _ }, s.2) hworks' h.readable

/-- An answer that authenticates leaves the cached keys. -/
theorem Answered.psks {s : Link S.env} {f : LinkFrame} {payload : Bytes}
    (hanswered : Answered S s f (.ok payload)) : (readFrame S s f).2.psks = s.2.psks := by
  obtain ⟨params, message, handshake, henvelope, hhandshake, hread, hdisk⟩ := hanswered.continues
  rw [hdisk]
  exact continueHandshake_psks henvelope hhandshake hread

end Channel

end Thalovant.Transport
