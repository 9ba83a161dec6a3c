import Thalovant.Transport.Channel

/-!
# What each operation does to a Noise channel

One lemma or two for each function of the channel: what it never touches, and what it can do to the
rest. Before the session, `receiveClear_cases` says which function answers a message and
`receiveClear_session` where a session comes from; under a session, `receiveFrame_frame` says that
only the cipher moves on. `receive_cases` puts them together.
-/

namespace Thalovant.Transport

open Thalovant.Noise Thalovant.Noise.NoiseHandshake Fallible

variable {σ : Type} (env : ChannelEnv σ)

/-! ## Messages of the negotiation -/

/-- The bytes are a HELLO. -/
def IsHello (data : Bytes) : Prop :=
  ∃ message, env.fromSlice data = .ok message ∧ message.msgType = "hello"

/-- The bytes are a handshake message with these parameters. -/
def IsShake (data : Bytes) (offer params : Map) : Prop :=
  ∃ message, env.fromSlice data = .ok message
    ∧ (message.msgType = "shake" ∨ message.msgType = "handshake")
    ∧ message.payload = offer
    ∧ (offer.get "noise").bind Json.Value.asObject = some params

/-- The bytes are an offer of the hub. -/
def IsOffer (data : Bytes) : Prop :=
  ∃ offer params, IsShake env data offer params ∧ Map.containsKey "msg" params = false

/-- The bytes are an answer of the hub in the handshake. -/
def IsAnswer (data : Bytes) : Prop :=
  ∃ offer params, IsShake env data offer params ∧ Map.containsKey "msg" params = true

/-! ## What may vouch for a session -/

/--
The frame `data`, received in the state `s`, completes a handshake with the hub's key `remote`: the
message in it is authentic to the handshake that waits for it, and the key passes the pin check. The
check is made in the world of `s` itself, and the world `left` is what the calls of the check and the
id drawn for the HELLO have made of it.
-/
def Establishes (Authentic : env.snow.HandshakeState → Bytes → Prop) (s : Link env) (data : Bytes)
    (remote : String) (left : σ) : Prop :=
  ∃ offer params message handshake payload read done session,
    IsShake env data offer params ∧ envelope params = .ok message
    ∧ s.1.handshake = some handshake ∧ handshake.Authenticated Authentic message
    ∧ handshake.readMessage message = (.ok payload, read)
    ∧ (done = read ∨ done = (read.writeMessage []).2)
    ∧ done.intoSession = .ok session ∧ session.remoteStaticKey = some remote
    ∧ ∃ pin w w', env.loadNoisePin s.1.stateDir s.1.nodeId s.2 = (.ok pin, w)
      ∧ (∀ pinned, pin = some pinned → eqIgnoreAsciiCase pinned remote = true)
      ∧ env.pinHubKey s.1.stateDir s.1.nodeId remote w = (.ok (), w')
      ∧ left = (env.newUuid w').2

variable {env}

/-! ## Sending -/

/-- What sending a message under a session has done: nothing, or it went through the cipher. -/
inductive Encoded (session : NoiseSession env.snow.cipher) :
    Result (List NoiseWrite) → NoiseSession env.snow.cipher → Prop where
  | refused (err : ThalovantError) : Encoded session (.error err) session
  | encrypted (payload : Bytes) : Encoded session
      ((encryptMessage session payload true).1.map fun frames =>
        frames.map fun frame => { payload := frame, binary := true })
      (encryptMessage session payload true).2

theorem Encoded.remoteStaticKey {session session' : NoiseSession env.snow.cipher}
    {r : Result (List NoiseWrite)} (h : Encoded session r session') :
    session'.remoteStaticKey = session.remoteStaticKey := by
  cases h with
  | refused err => rfl
  | encrypted payload => rw [encryptMessage_eq_writeAll]

theorem encodeUnder_cases (session : NoiseSession env.snow.cipher) (message : HiveMessage)
    (s : Link env) (hsession : s.1.session = some session) :
    ∃ r session', encodeUnder env session message s
        = (r, ({ s.1 with session := some session' }, s.2)) ∧ Encoded session r session' := by
  unfold encodeUnder
  rcases ofJson (env.toVec message) with err | payload
  · exact ⟨.error err, session, by rw [← hsession]; rfl, .refused err⟩
  · rw [bind_ok (ofExcept_apply _ _)]
    have hencoded := @Encoded.encrypted _ _ session payload
    rcases hencrypt : encryptMessage session payload true with ⟨err | frames, session'⟩ <;>
      rw [hencrypt] at hencoded
    · exact ⟨.error err, session', rfl, hencoded⟩
    · exact ⟨.ok (frames.map fun frame => { payload := frame, binary := true }), session', rfl,
        hencoded⟩

/-- `encode` does something only under a session, in a channel that has not failed. -/
theorem encode_cases (message : HiveMessage) (s : Link env) :
    encode env message s = (.error notEstablished, s) ∧ (s.1.session = none ∨ s.1.failed = true)
    ∨ ∃ session, s.1.session = some session ∧ s.1.failed = false
      ∧ encode env message s = encodeUnder env session message s := by
  unfold encode
  rw [read_bind]
  rcases hsession : s.1.session with _ | session
  · exact .inl ⟨rfl, .inl rfl⟩
  · rcases hfailed : s.1.failed with _ | _
    · exact .inr ⟨session, rfl, rfl, rfl⟩
    · exact .inl ⟨rfl, .inr rfl⟩

/-! ## The offer -/

/-- What `start` has done: the answer it had, and the state it left. -/
inductive Started (offer params : Map) (s : Link env) :
    Result (List NoiseWrite) × Link env → Prop where
  /-- Nothing: an offer is not expected, or there is no password. -/
  | refused (err : ThalovantError) : Started offer params s (.error err, s)
  /-- A step before the first message failed. -/
  | stopped (err : ThalovantError) (w : σ) (hhandshake : s.1.handshake = none)
      (hworld : w = (adoptKey env s.1 s.2).2
        ∨ ∃ w₁, adoptKey env s.1 s.2 = (.ok (), w₁) ∧ w = (prepare env s.1 offer params w₁).2) :
      Started offer params s (.error err, ({ s.1 with adoptFrom := none }, w))
  /-- A handshake has begun. -/
  | begun (r : Result (List NoiseWrite)) (fresh handshake : NoiseHandshake env.snow)
      (payload : Bytes) (pattern suite : String) (w₁ w : σ) (hhandshake : s.1.handshake = none)
      (hwrite : handshake = (fresh.writeMessage payload).2)
      (hclear : ∀ writes, r = .ok writes → ∀ write ∈ writes, write.binary = false)
      (hadopt : adoptKey env s.1 s.2 = (.ok (), w₁))
      (hprepare : prepare env s.1 offer params w₁ = (.ok (fresh, pattern, suite), w)) :
      Started offer params s (r, ({ s.1 with
        adoptFrom := none, handshake := some handshake, pattern := some pattern }, w))

theorem clear_binary {params : Map} {write : NoiseWrite} (h : clear env params = .ok write) :
    write.binary = false := by
  unfold clear at h
  rcases hjson : ofJson (env.toVec { msgType := "shake", payload := [("noise", .object params)] })
    with err | payload <;> rw [hjson] at h
  · cases h
  · cases h
    rfl

/-- **What the hub's offer can do.** -/
theorem start_cases (offer params : Map) (s : Link env) :
    Started offer params s (start env offer params s) := by
  unfold start
  rw [read_bind]
  by_cases hexpected : s.1.nodeId = "" || s.1.handshake.isSome
  · rw [if_pos hexpected]
    exact .refused _
  rw [if_neg hexpected]
  by_cases hpassword : s.1.identity.password = ""
  · rw [if_pos hpassword]
    exact .refused _
  rw [if_neg hpassword, modify_bind]
  -- only the first offer begins, so there is no handshake to replace
  have hhandshake : s.1.handshake = none := by
    rcases hsome : s.1.handshake with _ | h
    · rfl
    · simp [hsome] at hexpected
  rcases hadopt : adoptKey env s.1 s.2 with ⟨err | ⟨⟩, w₁⟩
  · rw [onSnd_bind_error hadopt]
    exact .stopped err w₁ hhandshake (.inl (by rw [hadopt]))
  rw [onSnd_bind_ok hadopt]
  rcases hprepare : prepare env s.1 offer params w₁ with ⟨err | ⟨fresh, pattern, suite⟩, w⟩
  · rw [onSnd_bind_error hprepare]
    exact .stopped err w hhandshake (.inr ⟨w₁, hadopt, by rw [hprepare]⟩)
  rw [onSnd_bind_ok hprepare]
  dsimp only
  rcases hwrite : fresh.writeMessage _ with ⟨err | msg, handshake⟩
  · exact .stopped err w hhandshake (.inr ⟨w₁, hadopt, by rw [hprepare]⟩)
  replace hwrite := (congrArg Prod.snd hwrite).symm
  dsimp only
  rw [bind_ok (ofExcept_apply _ _), modify_bind]
  rcases hclear : clear env [("msg", .string (hexEncode msg)), ("pattern", .string pattern),
    ("suite", .string suite)] with err | write
  · exact .begun _ fresh handshake _ pattern suite w₁ w hhandshake hwrite (fun _ h => nomatch h)
      hadopt hprepare
  · refine .begun _ fresh handshake _ pattern suite w₁ w hhandshake hwrite ?_ hadopt hprepare
    rintro _ ⟨⟩ write' hwrite'
    rw [List.mem_singleton.mp hwrite']
    exact clear_binary hclear

/-- The handshake is a new one, of the pattern that the offer and the pin select. -/
theorem prepare_ok {c : NoiseChannel env.snow} {offer params : Map} {w w' : σ}
    {handshake : NoiseHandshake env.snow} {pattern suite : String}
    (h : prepare env c offer params w = (.ok (handshake, pattern, suite), w')) :
    ∃ psk prologue key pin seed hubPatterns hubSuites,
      NoiseHandshake.new env.snow pattern suite psk prologue key pin seed = .ok handshake
      ∧ selectNoiseOptions hubPatterns hubSuites (if c.forceXx then none else pin)
        = some (pattern, suite) := by
  unfold prepare at h
  obtain ⟨pin, w₁, -, h⟩ := bind_eq_ok.mp h
  dsimp only at h
  rcases hselect : selectNoiseOptions (stringList (params.get "patterns"))
    (stringList (params.get "suites")) (if c.forceXx then none else pin) with _ | ⟨pattern', suite'⟩ <;>
    rw [hselect] at h
  · cases h
  obtain ⟨key, w₂, -, h⟩ := bind_eq_ok.mp h
  obtain ⟨psk, w₃, -, h⟩ := bind_eq_ok.mp h
  obtain ⟨seed, w₄, -, h⟩ := bind_eq_ok.mp h
  obtain ⟨handshake', w₅, hnew, h⟩ := bind_eq_ok.mp h
  cases h
  exact ⟨psk, _, key, pin, seed, _, _, congrArg Prod.fst hnew, hselect⟩

theorem prepare_unsent {c : NoiseChannel env.snow} {offer params : Map} {w w' : σ}
    {handshake : NoiseHandshake env.snow} {pattern suite : String}
    {counter : env.snow.cipher.State → Nat}
    (h : prepare env c offer params w = (.ok (handshake, pattern, suite), w')) :
    handshake.Unsent counter := by
  obtain ⟨psk, prologue, key, pin, seed, hubPatterns, hubSuites, hnew, -⟩ := prepare_ok h
  exact NoiseHandshake.unsent_new hnew

/-- What `start` never touches. -/
theorem start_frame (offer params : Map) (s : Link env) :
    (start env offer params s).2.1.session = s.1.session
    ∧ (start env offer params s).2.1.hello = s.1.hello := by
  have h := start_cases offer params s
  generalize start env offer params s = out at h ⊢
  cases h <;> exact ⟨rfl, rfl⟩

/-- An offer that is answered has begun a handshake. -/
theorem start_ok {offer params : Map} {s s' : Link env} {writes : List NoiseWrite}
    (h : start env offer params s = (.ok writes, s')) : s'.1.handshake.isSome = true := by
  have hcases := start_cases offer params s
  rw [h] at hcases
  cases hcases
  rfl

/-- A second offer is refused. -/
theorem start_of_handshake {offer params : Map} {s : Link env}
    (h : s.1.handshake.isSome = true) :
    start env offer params s = (.error (.connection "unexpected Noise capability offer"), s) := by
  unfold start
  rw [read_bind, h, Bool.or_true, if_pos rfl]
  rfl

/-! ## The hub's answer -/

/-- The handshake is the one there was, or that after its last message, which is clear text. -/
theorem finishPattern_cases {handshake : NoiseHandshake env.snow} {s : Link env}
    (hs : s.1.handshake = some handshake) :
    ∃ r done, finishPattern env handshake s = (r, ({ s.1 with handshake := some done }, s.2))
      ∧ (done = handshake ∨ done = (handshake.writeMessage []).2)
      ∧ ∀ writes, r = .ok writes → ∀ write ∈ writes, write.binary = false := by
  unfold finishPattern
  by_cases hfinished : handshake.isFinished
  · rw [if_pos hfinished]
    refine ⟨.ok [], handshake, by rw [← hs]; rfl, .inl rfl, ?_⟩
    rintro _ ⟨⟩ write hwrite
    cases hwrite
  · rw [if_neg hfinished]
    rcases hwrite : handshake.writeMessage [] with ⟨err | msg, done⟩
    · exact ⟨.error err, done, rfl, .inr rfl, fun _ h => nomatch h⟩
    · rcases hclear : clear env [("msg", .string (hexEncode msg))] with err | write
      · refine ⟨.error err, done, ?_, .inr rfl, fun _ h => nomatch h⟩
        simp only [modify_bind, bind_ok (ofExcept_apply _ _), hclear]
        rfl
      · refine ⟨.ok [write], done, ?_, .inr rfl, ?_⟩
        · simp only [modify_bind, bind_ok (ofExcept_apply _ _), hclear]
          rfl
        · rintro _ ⟨⟩ write' hwrite'
          rw [List.mem_singleton.mp hwrite']
          exact clear_binary hclear

/-- The pin check: the key is the pinned one, or the first one, which is pinned. -/
theorem checkHubKey_ok {c : NoiseChannel env.snow} {remote : String} {w w' : σ}
    (h : checkHubKey env c remote w = (.ok (), w')) :
    ∃ pin w₁, env.loadNoisePin c.stateDir c.nodeId w = (.ok pin, w₁)
      ∧ (∀ pinned, pin = some pinned → eqIgnoreAsciiCase pinned remote = true)
      ∧ env.pinHubKey c.stateDir c.nodeId remote w₁ = (.ok (), w') := by
  unfold checkHubKey at h
  obtain ⟨pin, w₁, hload, h⟩ := bind_eq_ok.mp h
  refine ⟨pin, w₁, hload, ?_, ?_⟩
  · rintro pinned rfl
    rcases hkey : eqIgnoreAsciiCase pinned remote with _ | _
    · simp [hkey, Fallible.fail] at h
    · rfl
  · split at h
    · cases h
    · exact h

/-- A session is installed with its key, or nothing is. -/
theorem install_cases (s : Link env) :
    (∃ err w, install env s = (.error err, ({ s.1 with handshake := none }, w))
      ∧ (w = s.2 ∨ ∃ remote err', checkHubKey env s.1 remote s.2 = (.error err', w)))
    ∨ ∃ handshake session remote w, s.1.handshake = some handshake
      ∧ handshake.intoSession = .ok session ∧ session.remoteStaticKey = some remote
      ∧ checkHubKey env s.1 remote s.2 = (.ok (), w)
      ∧ install env s = (.ok (), ({ s.1 with handshake := none, session := some session }, w)) := by
  unfold install
  rw [read_bind, modify_bind]
  rcases hhandshake : s.1.handshake with _ | handshake
  · exact .inl ⟨_, s.2, rfl, .inl rfl⟩
  dsimp only
  rcases hinto : handshake.intoSession with err | session
  · exact .inl ⟨err, s.2, rfl, .inl rfl⟩
  rw [bind_ok (ofExcept_apply _ _)]
  rcases hremote : session.remoteStaticKey with _ | remote
  · exact .inl ⟨_, s.2, rfl, .inl rfl⟩
  dsimp only
  rcases hcheck : checkHubKey env s.1 remote s.2 with ⟨err | ⟨⟩, w⟩
  · rw [onSnd_bind_error hcheck]
    exact .inl ⟨err, w, rfl, .inr ⟨remote, err, hcheck⟩⟩
  · rw [onSnd_bind_ok hcheck]
    exact .inr ⟨handshake, session, remote, w, rfl, hinto, hremote, hcheck, rfl⟩

/-- What `continue_handshake` has done: the answer it had, and the state it left. -/
inductive Continued (params : Map) (s : Link env) : Result (List NoiseWrite) × Link env → Prop where
  /-- Nothing: the envelope is malformed, or no handshake waits for it. -/
  | refused (err : ThalovantError) : Continued params s (.error err, s)
  /-- The message did not authenticate. -/
  | rejected (message : Bytes) (handshake : NoiseHandshake env.snow) (err : ThalovantError)
      (henvelope : envelope params = .ok message) (hhandshake : s.1.handshake = some handshake)
      (hread : (handshake.readMessage message).1 = .error err) :
      Continued params s
        (rejectAnswer env ({ s.1 with handshake := some (handshake.readMessage message).2 }, s.2))
  /-- It did, and a later step failed: no session. -/
  | stopped (err : ThalovantError) (before : NoiseHandshake env.snow)
      (handshake : Option (NoiseHandshake env.snow)) (w : σ) (hhandshake : s.1.handshake = some before)
      (hdone : ∀ done, handshake = some done → ∃ message,
        done = (before.readMessage message).2
        ∨ done = ((before.readMessage message).2.writeMessage []).2)
      (hworld : w = s.2 ∨ ∃ remote err', checkHubKey env s.1 remote s.2 = (.error err', w)) :
      Continued params s (.error err, ({ s.1 with handshake := handshake }, w))
  /-- A session is installed. Encrypting the client's HELLO may still have failed. -/
  | installed (message : Bytes) (handshake read done : NoiseHandshake env.snow) (payload : Bytes)
      (session session' : NoiseSession env.snow.cipher) (remote : String) (w : σ)
      (writes : List NoiseWrite) (sent : Result (List NoiseWrite))
      (henvelope : envelope params = .ok message) (hhandshake : s.1.handshake = some handshake)
      (hread : handshake.readMessage message = (.ok payload, read))
      (hdone : done = read ∨ done = (read.writeMessage []).2)
      (hinto : done.intoSession = .ok session) (hremote : session.remoteStaticKey = some remote)
      (hcheck : checkHubKey env s.1 remote s.2 = (.ok (), w))
      (hclear : ∀ write ∈ writes, write.binary = false) (hsent : Encoded session sent session') :
      Continued params s
        (sent.map fun hello => writes ++ hello, ({ s.1 with handshake := none, session := some session' }, (env.newUuid w).2))

/-- The client's HELLO, under the session just installed. -/
theorem sendHello_cases {session : NoiseSession env.snow.cipher} {s : Link env}
    (hsession : s.1.session = some session) (identity : Identity) (writes : List NoiseWrite) :
    ∃ sent session', (draw env env.newUuid >>= fun uuid =>
        encode env (helloHiveMessage identity "thalovant-rust-" uuid) >>= fun hello =>
          (pure (writes ++ hello) : Act env _)) s
        = (sent.map fun hello => writes ++ hello,
          ({ s.1 with session := some session' }, (env.newUuid s.2).2))
      ∧ Encoded session sent session' := by
  rw [bind_ok (show draw env env.newUuid s = (.ok (env.newUuid s.2).1, (s.1, (env.newUuid s.2).2))
    from rfl)]
  obtain ⟨sent, session', hencode, hsent⟩ : ∃ sent session',
      encode env (helloHiveMessage identity "thalovant-rust-" (env.newUuid s.2).1)
          (s.1, (env.newUuid s.2).2)
        = (sent, ({ s.1 with session := some session' }, (env.newUuid s.2).2))
      ∧ Encoded session sent session' := by
    rcases encode_cases (helloHiveMessage identity "thalovant-rust-" (env.newUuid s.2).1)
      (s.1, (env.newUuid s.2).2) with ⟨h, -⟩ | ⟨session₁, hsession₁, -, h⟩
    · exact ⟨_, session, h.trans (by rw [← hsession]), .refused _⟩
    · obtain rfl : session = session₁ := Option.some.inj (hsession.symm.trans hsession₁)
      obtain ⟨sent, session', henc, hsent⟩ := encodeUnder_cases session
        (helloHiveMessage identity "thalovant-rust-" (env.newUuid s.2).1)
        (s.1, (env.newUuid s.2).2) hsession
      exact ⟨sent, session', h.trans henc, hsent⟩
  rcases sent with err | hello
  · exact ⟨.error err, session', bind_error hencode, hsent⟩
  · exact ⟨.ok hello, session', (bind_ok hencode).trans rfl, hsent⟩

/-- **What the hub's answer can do.** -/
theorem continueHandshake_cases (params : Map) (s : Link env) :
    Continued params s (continueHandshake env params s) := by
  unfold continueHandshake
  rcases henvelope : envelope params with err | message
  · exact .refused err
  rw [bind_ok (ofExcept_apply _ _), read_bind]
  rcases hhandshake : s.1.handshake with _ | handshake
  · exact .refused _
  dsimp only
  rcases hread : handshake.readMessage message with ⟨err | payload, read⟩
  · have hrejected := @Continued.rejected _ _ params s message handshake err henvelope hhandshake
      (by rw [hread])
    rw [hread] at hrejected
    exact hrejected
  dsimp only
  rw [modify_bind]
  obtain ⟨finished, done, hfinish, hdone, hclear⟩ := @finishPattern_cases σ env read
    ({ s.1 with handshake := some read }, s.2) rfl
  rcases finished with err | writes
  · rw [bind_error hfinish]
    refine .stopped err handshake (some done) s.2 hhandshake ?_ (.inl rfl)
    rintro _ ⟨⟩
    exact ⟨message, by rw [hread]; exact hdone⟩
  rw [bind_ok hfinish]
  -- the handshake is gone before the key is checked, whatever comes of it
  rcases install_cases ({ s.1 with handshake := some done }, s.2) with
    ⟨err, w, hinstall, hworld⟩ | ⟨_, session, remote, w, hdone', hinto, hremote, hcheck, hinstall⟩
  · rw [bind_error hinstall]
    exact .stopped err handshake none w hhandshake (fun _ h => nomatch h) hworld
  · cases hdone'
    rw [bind_ok hinstall]
    obtain ⟨sent, session', hsend, hsent⟩ := @sendHello_cases σ env session
      ({ s.1 with handshake := none, session := some session }, w) rfl s.1.identity writes
    rw [hsend]
    exact .installed message handshake read done payload session session' remote w writes sent
      henvelope hhandshake hread hdone hinto hremote hcheck (hclear writes rfl) hsent

/-- Whether it has failed, and the hub's HELLO. -/
def NoiseChannel.fixed {snow : Snow} (c : NoiseChannel snow) : Bool × Option Map × String :=
  (c.failed, c.hello, c.nodeId)

theorem encode_frame (message : HiveMessage) (b) :
    Keeps (fun s : Link env => s.1.fixed = b) (encode env message) := by
  intro s hs
  rcases encode_cases message s with ⟨h, -⟩ | ⟨session, hsession, -, h⟩
  · rw [h]
    exact hs
  · obtain ⟨r, session', henc, -⟩ := encodeUnder_cases session message s hsession
    rw [h, henc]
    exact hs

theorem encode_handshake (message : HiveMessage) (s : Link env) :
    (encode env message s).2.1.handshake = s.1.handshake := by
  rcases encode_cases message s with ⟨h, -⟩ | ⟨session, hsession, -, h⟩
  · rw [h]
  · obtain ⟨r, session', henc, -⟩ := encodeUnder_cases session message s hsession
    rw [h, henc]

theorem encode_session (message : HiveMessage) (s : Link env) :
    (encode env message s).2.1.session.isSome = s.1.session.isSome := by
  rcases encode_cases message s with ⟨h, -⟩ | ⟨session, hsession, -, h⟩
  · rw [h]
  · obtain ⟨r, session', henc, -⟩ := encodeUnder_cases session message s hsession
    rw [h, henc, hsession]
    rfl

theorem session_of_encoded {message : HiveMessage} {s s' : Link env} {writes : List NoiseWrite}
    (h : encode env message s = (.ok writes, s')) :
    s.1.failed = false ∧ s.1.session.isSome = true
    ∧ s'.1.failed = false ∧ s'.1.session.isSome = true := by
  rcases encode_cases message s with ⟨he, -⟩ | ⟨session, hsession, hfailed, -⟩
  · rw [he] at h
    cases h
  · have hsome : s.1.session.isSome = true := by rw [hsession]; rfl
    have hsession' := (encode_session message s).trans hsome
    have hfailed' : (encode env message s).2.1.failed = s.1.failed :=
      congrArg Prod.fst (encode_frame message _ s rfl)
    rw [h] at hsession' hfailed'
    exact ⟨hfailed, hsome, hfailed'.trans hfailed, hsession'⟩

/-- What the hub's answer never touches. -/
theorem continueHandshake_frame (params : Map) (s : Link env) :
    (continueHandshake env params s).2.1.fixed = s.1.fixed := by
  have h := continueHandshake_cases params s
  generalize continueHandshake env params s = out at h ⊢
  cases h <;> rfl

/-- A session with this key of the hub is installed. -/
def NoiseChannel.HasKey {snow : Snow} (c : NoiseChannel snow) (remote : String) : Prop :=
  ∃ session, c.session = some session ∧ session.remoteStaticKey = some remote

/-- The hub's answer leaves no session unless it completes the handshake. -/
theorem continueHandshake_session {Authentic : env.snow.HandshakeState → Bytes → Prop}
    (hreads : ReadsAuthentic env.snow Authentic) {data : Bytes} {offer params : Map}
    (hshake : IsShake env data offer params) {s : Link env} (hnone : s.1.session = none) :
    (∃ err, (continueHandshake env params s).1 = .error err)
      ∧ (continueHandshake env params s).2.1.session = none
    ∨ ∃ remote, (continueHandshake env params s).2.1.HasKey remote
      ∧ Establishes env Authentic s data remote (continueHandshake env params s).2.2 := by
  have h := continueHandshake_cases params s
  generalize continueHandshake env params s = out at h ⊢
  cases h with
  | refused err => exact .inl ⟨⟨err, rfl⟩, hnone⟩
  | rejected message handshake err => exact .inl ⟨⟨_, rfl⟩, hnone⟩
  | stopped err handshake w => exact .inl ⟨⟨err, rfl⟩, hnone⟩
  | installed message handshake read done payload session session' remote w writes sent henvelope
      hhandshake hread hdone hinto hremote hcheck hclear hsent =>
    obtain ⟨pin, w₁, hload, hpin, hpinned⟩ := checkHubKey_ok hcheck
    exact .inr ⟨remote, ⟨session', rfl, hsent.remoteStaticKey.trans hremote⟩, offer, params, message,
      handshake, payload, read, done, session, hshake, henvelope, hhandshake,
      authenticated_of_read hreads hread, hread, hdone, hinto, hremote, pin, w₁, w, hload, hpin,
      hpinned, rfl⟩

/-- An answer to no handshake is refused. -/
theorem continueHandshake_of_none {params : Map} {s : Link env} (h : s.1.handshake = none) :
    ∃ err, continueHandshake env params s = (.error err, s) := by
  unfold continueHandshake
  rcases envelope params with err | message
  · exact ⟨err, rfl⟩
  · rw [bind_ok (ofExcept_apply _ _), read_bind, h]
    exact ⟨_, rfl⟩

/-! ## Before the session -/

/-- What a HELLO can do. -/
theorem receiveHello_cases (message : HiveMessage) (s : Link env) :
    (∃ err nodeId, receiveHello env message s
      = (.error err, ({ s.1 with nodeId := nodeId }, s.2)))
    ∨ ∃ nodeId, receiveHello env message s
      = (.ok [], ({ s.1 with nodeId := nodeId, hello := some message.payload }, s.2)) := by
  unfold receiveHello
  rw [read_bind]
  split
  · exact .inl ⟨_, s.1.nodeId, rfl⟩
  rw [modify_bind]
  split
  · exact .inl ⟨_, _, rfl⟩
  · exact .inr ⟨_, rfl⟩

/-- A second HELLO is refused. -/
theorem receiveHello_of_hello {message : HiveMessage} {s : Link env}
    (h : s.1.hello.isSome = true ∨ s.1.handshake.isSome = true) :
    receiveHello env message s = (.error (.connection "duplicate Noise HELLO"), s) := by
  unfold receiveHello
  rw [read_bind, Bool.or_eq_true_iff.mpr h, if_pos rfl]
  rfl

theorem receiveClear_of_shake {message : HiveMessage} {params : Map}
    (htype : message.msgType = "shake" ∨ message.msgType = "handshake")
    (hparams : (message.payload.get "noise").bind Json.Value.asObject = some params) :
    receiveClear env message = if Map.containsKey "msg" params then continueHandshake env params
      else start env message.payload params := by
  have hhello : ¬ message.msgType = "hello" := by
    rcases htype with h | h <;> rw [h] <;> decide
  rw [receiveClear, if_neg hhello, if_pos (by simpa using htype), receiveShake, hparams]

/-- What a message is, as `receiveClear` reads it. -/
theorem receiveClear_cases (message : HiveMessage) :
    (message.msgType = "hello" ∧ receiveClear env message = receiveHello env message)
    ∨ ((message.msgType = "shake" ∨ message.msgType = "handshake") ∧ ∃ params,
      (message.payload.get "noise").bind Json.Value.asObject = some params
      ∧ (Map.containsKey "msg" params = true
          ∧ receiveClear env message = continueHandshake env params
        ∨ Map.containsKey "msg" params = false
          ∧ receiveClear env message = start env message.payload params))
    ∨ ∃ err, receiveClear env message = Fallible.fail err := by
  unfold receiveClear
  by_cases hhello : message.msgType = "hello"
  · rw [if_pos hhello]
    exact .inl ⟨hhello, rfl⟩
  · rw [if_neg hhello]
    by_cases hshake : message.msgType = "shake" ∨ message.msgType = "handshake"
    · rw [if_pos (by simpa using hshake), receiveShake]
      rcases hparams : (message.payload.get "noise").bind Json.Value.asObject with _ | params
      · exact .inr (.inr ⟨_, rfl⟩)
      · refine .inr (.inl ⟨hshake, params, rfl, ?_⟩)
        rcases hmsg : Map.containsKey "msg" params with _ | _
        · exact .inr ⟨rfl, by simp [hmsg]⟩
        · exact .inl ⟨rfl, by simp [hmsg]⟩
    · rw [if_neg (by simpa using hshake)]
      exact .inr (.inr ⟨_, rfl⟩)

/-- What a message of the negotiation has done: the answer it had, and the state it left. -/
inductive Negotiated (s : Link env) : Result (List NoiseWrite) × Link env → Prop where
  | refused (err : ThalovantError) : Negotiated s (.error err, s)
  | hello (r : Result (List NoiseWrite)) (nodeId : String) (hello : Option Map)
      (hwrites : ∀ writes, r = .ok writes → writes = []) :
      Negotiated s (r, ({ s.1 with nodeId := nodeId, hello := hello }, s.2))
  | offer (offer params : Map) (out : Result (List NoiseWrite) × Link env)
      (h : Started offer params s out) : Negotiated s out
  | answer (params : Map) (out : Result (List NoiseWrite) × Link env)
      (h : Continued params s out) : Negotiated s out

theorem receiveClear_negotiated (message : HiveMessage) (s : Link env) :
    Negotiated s (receiveClear env message s) := by
  rcases receiveClear_cases message with ⟨-, h⟩ | ⟨-, params, -, ⟨-, h⟩ | ⟨-, h⟩⟩ | ⟨err, h⟩ <;>
    rw [h]
  · rcases receiveHello_cases message s with ⟨err, nodeId, hr⟩ | ⟨nodeId, hr⟩ <;> rw [hr]
    · exact .hello _ nodeId s.1.hello fun _ h => nomatch h
    · refine .hello _ nodeId _ ?_
      rintro _ ⟨⟩
      rfl
  · exact .answer params _ (continueHandshake_cases params s)
  · exact .offer _ params _ (start_cases _ params s)
  · exact .refused err

/-- The HELLO that has been kept stays. -/
theorem receiveClear_hello (message : HiveMessage) :
    Keeps (fun s : Link env => s.1.hello.isSome = true) (receiveClear env message) := by
  rcases receiveClear_cases message with ⟨-, h⟩ | ⟨-, params, -, ⟨-, h⟩ | ⟨-, h⟩⟩ | ⟨err, h⟩ <;>
    rw [h]
  · intro s hs
    rw [receiveHello_of_hello (.inl hs)]
    exact hs
  · intro s hs
    rw [show (continueHandshake env params s).2.1.hello = s.1.hello from
      congrArg (fun x => x.2.1) (continueHandshake_frame params s)]
    exact hs
  · intro s hs
    rw [(start_frame message.payload params s).2]
    exact hs
  · exact .fail err

/-- Where a session comes from. -/
theorem receiveClear_session {Authentic : env.snow.HandshakeState → Bytes → Prop}
    (hreads : ReadsAuthentic env.snow Authentic) {data : Bytes} {message : HiveMessage}
    (hdata : env.fromSlice data = .ok message) {s : Link env} (hnone : s.1.session = none) :
    (receiveClear env message s).2.1.session = none
    ∨ ∃ remote, (receiveClear env message s).2.1.HasKey remote
      ∧ Establishes env Authentic s data remote (receiveClear env message s).2.2 := by
  rcases receiveClear_cases message with ⟨-, h⟩ | ⟨htype, params, hparams, ⟨-, h⟩ | ⟨-, h⟩⟩ | ⟨err, h⟩
    <;> rw [h]
  · rcases receiveHello_cases message s with ⟨err, nodeId, hr⟩ | ⟨nodeId, hr⟩ <;> rw [hr] <;>
      exact .inl hnone
  · rcases continueHandshake_session hreads ⟨message, hdata, htype, rfl, hparams⟩ hnone with
      ⟨-, h⟩ | h
    · exact .inl h
    · exact .inr h
  · exact .inl ((start_frame message.payload params s).1.trans hnone)
  · exact .inl hnone

/-- In a handshake, what is not refused completes it. -/
theorem receiveClear_of_handshake {Authentic : env.snow.HandshakeState → Bytes → Prop}
    (hreads : ReadsAuthentic env.snow Authentic) {data : Bytes} {message : HiveMessage}
    (hdata : env.fromSlice data = .ok message) {s : Link env} (hnone : s.1.session = none)
    (hhandshake : s.1.handshake.isSome = true) :
    (∃ err, (receiveClear env message s).1 = .error err)
    ∨ (receiveClear env message s).2.1.session.isSome = true := by
  rcases receiveClear_cases message with ⟨-, h⟩ | ⟨htype, params, hparams, ⟨-, h⟩ | ⟨-, h⟩⟩ | ⟨err, h⟩
    <;> rw [h]
  · rw [receiveHello_of_hello (.inr hhandshake)]
    exact .inl ⟨_, rfl⟩
  · rcases continueHandshake_session hreads ⟨message, hdata, htype, rfl, hparams⟩ hnone with
      ⟨herr, -⟩ | ⟨remote, ⟨session, hsession, -⟩, -⟩
    · exact .inl herr
    · exact .inr (by rw [hsession]; rfl)
  · rw [start_of_handshake hhandshake]
    exact .inl ⟨_, rfl⟩
  · exact .inl ⟨err, rfl⟩

/-! ## One frame -/

/-- The frame is refused, and nothing happens but that the channel has failed. -/
def Refuses (env : ChannelEnv σ) (data : Bytes) (binary : Bool) (s : Link env) : Prop :=
  ∃ err, receive env data binary s = (.error err, ({ s.1 with failed := true }, s.2))

theorem receive_of_failed {data : Bytes} {binary : Bool} {s : Link env}
    (h : s.1.failed = true) :
    receive env data binary s
      = (.error (.connection "Noise session failed; reconnect required"), s) := by
  obtain ⟨c, w⟩ := s
  exact if_pos h

theorem receive_of_ok {data : Bytes} {binary : Bool} {s s' : Link env} {r}
    (hfailed : s.1.failed = false) (h : receiveInner env data binary s = (.ok r, s')) :
    receive env data binary s = (.ok r, s') := by
  obtain ⟨c, w⟩ := s
  show (if c.failed then _ else _) = _
  rw [show c.failed = false from hfailed, if_neg Bool.false_ne_true, h]

theorem receive_of_error {data : Bytes} {binary : Bool} {s s' : Link env} {err}
    (hfailed : s.1.failed = false) (h : receiveInner env data binary s = (.error err, s')) :
    receive env data binary s = (.error err, ({ s'.1 with failed := true }, s'.2)) := by
  obtain ⟨c, w⟩ := s
  show (if c.failed then _ else _) = _
  rw [show c.failed = false from hfailed, if_neg Bool.false_ne_true, h]

/-- An error is the end of the channel. -/
theorem failed_of_error {data : Bytes} {binary : Bool} {s s' : Link env} {err}
    (h : receive env data binary s = (.error err, s')) : s'.1.failed = true := by
  rcases hfailed : s.1.failed with _ | _
  · rcases hinner : receiveInner env data binary s with ⟨err' | r, s''⟩
    · rw [receive_of_error hfailed hinner] at h
      cases h
      rfl
    · rw [receive_of_ok hfailed hinner] at h
      cases h
  · rw [receive_of_failed hfailed] at h
    cases h
    exact hfailed

/-- A frame is taken only where the channel has not failed. -/
theorem not_failed_of_ok {data : Bytes} {binary : Bool} {s s' : Link env} {r}
    (h : receive env data binary s = (.ok r, s')) : s.1.failed = false := by
  rcases hfailed : s.1.failed with _ | _
  · rfl
  · rw [receive_of_failed hfailed] at h
    cases h

theorem refuses_of_inner {data : Bytes} {binary : Bool} {s : Link env} {err}
    (h : receiveInner env data binary s = (.error err, s)) : Refuses env data binary s := by
  rcases hfailed : s.1.failed with _ | _
  · exact ⟨err, receive_of_error hfailed h⟩
  · have hsame : ({ s.1 with failed := true }, s.2) = s := by rw [← hfailed]
    exact ⟨_, (receive_of_failed hfailed).trans (by rw [hsame])⟩

theorem receiveInner_plain {data : Bytes} {s : Link env} (h : s.1.session.isSome = true) :
    receiveInner env data false s
      = (.error (.connection "plaintext received after Noise negotiation"), s) := by
  obtain ⟨session, hsession⟩ := Option.isSome_iff_exists.mp h
  unfold receiveInner
  rw [read_bind, hsession]
  rfl

theorem receiveInner_binary {data : Bytes} {s : Link env} (h : s.1.session = none) :
    receiveInner env data true s
      = (.error (.connection "ciphertext arrived before Noise negotiation"), s) := by
  unfold receiveInner
  rw [read_bind, h]
  rfl

/-- Before the session, a message is read and answered. -/
theorem receiveInner_clear {data : Bytes} {message : HiveMessage} {s : Link env}
    (hnone : s.1.session = none) (hdata : env.fromSlice data = .ok message) :
    receiveInner env data false s
      = ((receiveClear env message >>= fun writes => pure (none, writes) : Act env _) s) := by
  unfold receiveInner
  rw [read_bind, hnone]
  dsimp only
  rw [if_neg Bool.false_ne_true, bind_ok (show Fallible.ofExcept (ofJson (env.fromSlice data)) s
    = (.ok message, s) by rw [hdata]; rfl)]

theorem receiveInner_unread {data : Bytes} {s : Link env} {err : String}
    (hnone : s.1.session = none) (hdata : env.fromSlice data = .error err) :
    receiveInner env data false s = (.error (.json err), s) := by
  unfold receiveInner
  rw [read_bind, hnone]
  dsimp only
  rw [if_neg Bool.false_ne_true, bind_error (show Fallible.ofExcept (ofJson (env.fromSlice data)) s
    = (.error (.json err), s) by rw [hdata]; rfl)]

theorem decryptFrame_key {cipher : TransportCipher} (session : NoiseSession cipher) (data : Bytes) :
    (decryptFrame session data).2.remoteStaticKey = session.remoteStaticKey := by
  unfold decryptFrame
  split <;> rfl

/-- A frame of the session moves the cipher on, and the hub has been heard or not; nothing is
written. -/
theorem receiveFrame_frame (session : NoiseSession env.snow.cipher) (data : Bytes) (s : Link env) :
    ∃ r heard, receiveFrame env session data s
        = (r, ({ s.1 with session := some (decryptFrame session data).2, heard := heard }, s.2))
      ∧ ∀ message writes, r = .ok (message, writes) → writes = [] := by
  unfold receiveFrame
  rcases decryptFrame session data with ⟨err | frame, session'⟩
  · exact ⟨.error err, s.1.heard, rfl, fun _ _ h => nomatch h⟩
  · dsimp only
    rw [modify_bind, bind_ok (ofExcept_apply _ _), modify_bind]
    rcases frame with ⟨payload, _ | _⟩ | _
    · rcases h : env.decodeHiveBinaryFrame payload with err | message <;> simp only [h]
      · exact ⟨_, true, rfl, fun _ _ h => nomatch h⟩
      · refine ⟨_, true, rfl, ?_⟩
        rintro _ _ ⟨⟩
        rfl
    · rcases h : env.fromSlice payload with err | message <;> simp only [h, ofJson]
      · exact ⟨_, true, rfl, fun _ _ h => nomatch h⟩
      · refine ⟨_, true, rfl, ?_⟩
        rintro _ _ ⟨⟩
        rfl
    · refine ⟨_, true, rfl, ?_⟩
      rintro _ _ ⟨⟩
      rfl

/-- **What a frame can do to a channel that has not failed**: refused, taken by the session, or read
as a message of the negotiation. -/
theorem receive_cases (data : Bytes) (binary : Bool) {s : Link env} (hfailed : s.1.failed = false) :
    Refuses env data binary s
    ∨ (∃ session heard failed r, s.1.session = some session ∧ binary = true
      ∧ receive env data binary s = (r, ({ s.1 with
          session := some (decryptFrame session data).2, heard := heard, failed := failed }, s.2))
      ∧ ((∃ err, r = .error err) ∨ failed = false ∧ ∃ message, r = .ok (message, [])))
    ∨ ∃ message, s.1.session = none ∧ binary = false ∧ env.fromSlice data = .ok message
      ∧ ((∃ writes, (receiveClear env message s).1 = .ok writes
          ∧ receive env data binary s = (.ok (none, writes), (receiveClear env message s).2))
        ∨ ∃ err, (receiveClear env message s).1 = .error err
          ∧ receive env data binary s = (.error err,
            ({ (receiveClear env message s).2.1 with failed := true },
              (receiveClear env message s).2.2))) := by
  rcases hsession : s.1.session with _ | session
  · rcases binary with _ | _
    · rcases hdata : env.fromSlice data with err | message
      · exact .inl (refuses_of_inner (receiveInner_unread hsession hdata))
      · refine .inr (.inr ⟨message, rfl, rfl, rfl, ?_⟩)
        have hinner := receiveInner_clear hsession hdata
        rcases hclear : receiveClear env message s with ⟨err | writes, s'⟩
        · rw [bind_error hclear] at hinner
          exact .inr ⟨err, rfl, receive_of_error hfailed hinner⟩
        · rw [bind_ok hclear] at hinner
          exact .inl ⟨writes, rfl, receive_of_ok hfailed hinner⟩
    · exact .inl (refuses_of_inner (receiveInner_binary hsession))
  · rcases binary with _ | _
    · exact .inl (refuses_of_inner (receiveInner_plain (by rw [hsession]; rfl)))
    · obtain ⟨r, heard, hframe, hwrites⟩ := receiveFrame_frame session data s
      have hinner : receiveInner env data true s = receiveFrame env session data s := by
        unfold receiveInner
        rw [read_bind, hsession]
        rfl
      rw [hframe] at hinner
      rcases r with err | ⟨message, writes⟩
      · exact .inr (.inl ⟨session, heard, true, _, rfl, rfl, receive_of_error hfailed hinner,
          .inl ⟨err, rfl⟩⟩)
      · obtain rfl := hwrites message writes rfl
        refine .inr (.inl ⟨session, heard, false, .ok (message, []), rfl, rfl, ?_,
          .inr ⟨rfl, message, rfl⟩⟩)
        rw [receive_of_ok hfailed hinner, ← hfailed]

end Thalovant.Transport
