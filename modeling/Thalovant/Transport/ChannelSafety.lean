import Mathlib.Data.List.Induction
import Thalovant.Lib.Machine
import Thalovant.Transport.ChannelSteps

/-!
# The Noise channel is safe

Whatever a hub sends, in whatever order, interleaved with sends: a channel delivers and encrypts only
under a session whose handshake was authentic and whose key passed the pin check, and an error ends
it.

The operations are a machine over the channel and the world around it (`perform`). What one operation
does is `ChannelSteps`; what a run does is induction on its operations.
-/

namespace Thalovant.Transport

open Thalovant.Noise Fallible

variable {σ : Type} (env : ChannelEnv σ)

/-! ## Operations -/

inductive Op where
  | receive (data : Bytes) (binary : Bool)
  | encode (message : HiveMessage)

inductive Answer where
  | received (r : Result (Option HiveMessage × List NoiseWrite))
  | encoded (r : Result (List NoiseWrite))

/-- The operation failed. -/
def Answer.Refused : Answer → Prop
  | received r => ∃ err, r = .error err
  | encoded r => ∃ err, r = .error err

/-- One operation on the channel. -/
def perform (s : Link env) : Op → Answer × Link env
  | .receive data binary => (.received (receive env data binary s).1, (receive env data binary s).2)
  | .encode message => (.encoded (encode env message s).1, (encode env message s).2)

variable {env}

/-! ## One operation -/

theorem perform_of_failed {s : Link env} (h : s.1.failed = true) (op : Op) :
    (perform env s op).1.Refused ∧ (perform env s op).2 = s := by
  cases op with
  | receive data binary =>
    rw [perform, receive_of_failed h]
    exact ⟨⟨_, rfl⟩, rfl⟩
  | encode message =>
    rcases encode_cases message s with ⟨h', -⟩ | ⟨_, -, hfailed, -⟩
    · rw [perform, h']
      exact ⟨⟨_, rfl⟩, rfl⟩
    · rw [h] at hfailed
      cases hfailed

/-- A session is the one there was, or its key has been established by this operation. -/
theorem perform_session {Authentic : env.snow.HandshakeState → Bytes → Prop}
    (hreads : ReadsAuthentic env.snow Authentic) (s : Link env) (op : Op) :
    (perform env s op).2.1.session.map NoiseSession.remoteStaticKey
        = s.1.session.map NoiseSession.remoteStaticKey
    ∨ ∃ data remote, op = .receive data false ∧ (perform env s op).2.1.HasKey remote
      ∧ Establishes env Authentic s data remote (perform env s op).2.2 := by
  cases op with
  | encode message =>
    refine .inl ?_
    rcases encode_cases message s with ⟨h, -⟩ | ⟨session, hsession, -, h⟩
    · rw [perform, h]
    · obtain ⟨r, session', henc, hencoded⟩ := encodeUnder_cases session message s hsession
      rw [perform, h, henc, hsession]
      exact congrArg some hencoded.remoteStaticKey
  | receive data binary =>
    rcases hfailed : s.1.failed with _ | _
    · rcases receive_cases data binary hfailed with ⟨err, h⟩ |
        ⟨session, heard, failed, r, hsession, -, h, -⟩ |
        ⟨message, hnone, rfl, hdata, h⟩
      · rw [perform, h]
        exact .inl rfl
      · rw [perform, h, hsession]
        exact .inl (congrArg some (decryptFrame_key session data))
      · -- whether the message was accepted or not, the session is what it left
        obtain ⟨hstate, hworld⟩ : (receive env data false s).2.1.session
              = (receiveClear env message s).2.1.session
            ∧ (receive env data false s).2.2 = (receiveClear env message s).2.2 := by
          rcases h with ⟨writes, -, h⟩ | ⟨err, -, h⟩ <;> rw [h] <;> exact ⟨rfl, rfl⟩
        rcases receiveClear_session hreads hdata hnone with hsame |
          ⟨remote, ⟨session, hsession, hremote⟩, hest⟩
        · rw [perform, hstate, hsame, hnone]
          exact .inl rfl
        · rw [← hworld] at hest
          exact .inr ⟨data, remote, rfl, ⟨session, hstate.trans hsession, hremote⟩, hest⟩
    · rw [(perform_of_failed hfailed (.receive data binary)).2]
      exact .inl rfl

/-- What is kept by every operation on a channel that has not failed, or holds once it has. -/
theorem perform_failed_or {P : Link env → Prop}
    (hencode : ∀ s message, P s → P (encode env message s).2)
    (hframe : ∀ (s : Link env) (session : NoiseSession env.snow.cipher) (heard failed : Bool),
      s.1.session.isSome = true → P s →
      P ({ s.1 with session := some session, heard := heard, failed := failed }, s.2))
    (hclear : ∀ s message data writes, env.fromSlice data = .ok message → s.1.session = none → P s →
      (receiveClear env message s).1 = .ok writes → P (receiveClear env message s).2)
    {s : Link env} (h : s.1.failed = true ∨ P s) (op : Op) :
    (perform env s op).2.1.failed = true ∨ P (perform env s op).2 := by
  rcases hfailed : s.1.failed with _ | _
  · have hp := h.resolve_left (by rw [hfailed]; exact Bool.false_ne_true)
    cases op with
    | encode message => exact .inr (hencode s message hp)
    | receive data binary =>
      rcases receive_cases data binary hfailed with ⟨err, h⟩ |
        ⟨session, heard, failed, r, hsession, -, h, -⟩ |
        ⟨message, hnone, -, hdata, ⟨writes, hok, h⟩ | ⟨err, -, h⟩⟩
      · rw [perform, h]
        exact .inl rfl
      · rw [perform, h]
        exact .inr (hframe s _ heard failed (by rw [hsession]; rfl) hp)
      · rw [perform, h]
        exact .inr (hclear s message data writes hdata hnone hp hok)
      · rw [perform, h]
        exact .inl rfl
  · rw [(perform_of_failed hfailed op).2]
    exact .inl hfailed

/-! ## Over a run -/

theorem perform_hello (s : Link env) (op : Op) :
    s.1.failed = true ∨ s.1.hello.isSome = true →
    (perform env s op).2.1.failed = true ∨ (perform env s op).2.1.hello.isSome = true := by
  refine fun h => perform_failed_or (P := fun s => s.1.hello.isSome = true) ?_ ?_ ?_ h op
  · intro s message hs
    rw [show (encode env message s).2.1.hello = s.1.hello from
      congrArg (fun x => x.2.1) (encode_frame message _ s rfl)]
    exact hs
  · exact fun _ _ _ _ _ hs => hs
  · exact fun s message _ _ _ _ hs _ => receiveClear_hello message s hs

/-- A handshake has begun, or has ended in a session. -/
def Begun (s : Link env) : Prop := s.1.handshake.isSome = true ∨ s.1.session.isSome = true

theorem perform_begun (s : Link env) (op : Op) (h : s.1.failed = true ∨ Begun s) :
    (perform env s op).2.1.failed = true ∨ Begun (perform env s op).2 := by
  refine perform_failed_or (P := Begun) ?_ ?_ ?_ h op
  · intro s message hs
    rcases hs with hs | hs
    · exact .inl (by rw [encode_handshake]; exact hs)
    · exact .inr ((encode_session message s).trans hs)
  · exact fun _ _ _ _ _ _ => .inr rfl
  · intro s message data writes hdata hnone hs hok
    have hhandshake : s.1.handshake.isSome = true :=
      hs.resolve_right (by rw [hnone]; exact Bool.false_ne_true)
    have hreads : ReadsAuthentic env.snow fun _ _ => True := fun _ _ _ _ _ => trivial
    rcases receiveClear_of_handshake hreads hdata hnone hhandshake with ⟨err, herr⟩ | h
    · rw [herr] at hok
      cases hok
    · exact .inr h

/-- A frame in plain text that can be read is received as its message, or the channel has failed. -/
theorem perform_of_clear {data : Bytes} {message : HiveMessage} (hdata : env.fromSlice data = .ok message)
    (s : Link env) :
    (perform env s (.receive data false)).2.1.failed = true
    ∨ ∃ writes, (receiveClear env message s).1 = .ok writes
      ∧ (perform env s (.receive data false)).2 = (receiveClear env message s).2 := by
  rcases hfailed : s.1.failed with _ | _
  · rcases receive_cases data false hfailed with ⟨err, h⟩ | ⟨_, _, _, _, -, hbinary, -⟩ |
      ⟨message', -, -, hdata', ⟨writes, hok, h⟩ | ⟨err, -, h⟩⟩
    · rw [perform, h]
      exact .inl rfl
    · cases hbinary
    · obtain rfl : message = message' := Except.ok.inj (hdata.symm.trans hdata')
      rw [perform, h]
      exact .inr ⟨writes, hok, rfl⟩
    · rw [perform, h]
      exact .inl rfl
  · rw [(perform_of_failed hfailed _).2]
    exact .inl hfailed

/-- After a HELLO the channel keeps it, or has failed. -/
theorem perform_of_isHello {data : Bytes} (h : IsHello env data) (s : Link env) :
    (perform env s (.receive data false)).2.1.failed = true
    ∨ (perform env s (.receive data false)).2.1.hello.isSome = true := by
  obtain ⟨message, hdata, htype⟩ := h
  rcases perform_of_clear hdata s with hfailed | ⟨writes, hok, hend⟩
  · exact .inl hfailed
  · have hclear : receiveClear env message = receiveHello env message := if_pos htype
    rw [hend, hclear]
    rw [hclear] at hok
    rcases receiveHello_cases message s with ⟨err, nodeId, hr⟩ | ⟨nodeId, hr⟩ <;> rw [hr] at hok ⊢
    · cases hok
    · exact .inr rfl

/-- After an offer a handshake has begun, or the channel has failed. -/
theorem perform_of_isOffer {data : Bytes} (h : IsOffer env data) (s : Link env) :
    (perform env s (.receive data false)).2.1.failed = true
    ∨ Begun (perform env s (.receive data false)).2 := by
  obtain ⟨_, params, ⟨message, hdata, htype, rfl, hparams⟩, hmsg⟩ := h
  rcases perform_of_clear hdata s with hfailed | ⟨writes, hok, hend⟩
  · exact .inl hfailed
  · have hclear := @receiveClear_of_shake _ env _ _ htype hparams
    rw [hmsg, if_neg Bool.false_ne_true] at hclear
    rw [hend, hclear]
    rw [hclear] at hok
    exact .inr (.inl (start_ok (Prod.ext hok rfl)))

/-- Only an offer begins a handshake. -/
theorem perform_no_handshake {s : Link env} {op : Op}
    (hop : ∀ data, IsOffer env data → op ≠ .receive data false) (h : s.1.handshake = none) :
    (perform env s op).2.1.handshake = none := by
  cases op with
  | encode message => exact (encode_handshake message s).trans h
  | receive data binary =>
    rcases hfailed : s.1.failed with _ | _
    · rcases receive_cases data binary hfailed with ⟨err, hr⟩ |
        ⟨session, heard, failed, r, -, -, hr, -⟩ | ⟨message, -, rfl, hdata, hr⟩
      · rw [perform, hr]
        exact h
      · rw [perform, hr]
        exact h
      · have hstate : (receive env data false s).2.1.handshake
            = (receiveClear env message s).2.1.handshake := by
          rcases hr with ⟨writes, -, hr⟩ | ⟨err, -, hr⟩ <;> rw [hr]
        refine hstate.trans ?_
        rcases receiveClear_cases message with ⟨-, hc⟩ |
          ⟨htype, params, hparams, ⟨-, hc⟩ | ⟨hmsg, -⟩⟩ | ⟨err, hc⟩
        · rw [hc]
          rcases receiveHello_cases message s with ⟨err, nodeId, hr⟩ | ⟨nodeId, hr⟩ <;> rw [hr] <;>
            exact h
        · obtain ⟨err, hcont⟩ := @continueHandshake_of_none _ _ params _ h
          rw [hc, hcont]
          exact h
        · exact absurd rfl
            (hop data ⟨message.payload, params, ⟨message, hdata, htype, rfl, hparams⟩, hmsg⟩)
        · rw [hc]
          exact h
    · rw [(perform_of_failed hfailed (.receive data binary)).2]
      exact h

/--
The run has established the key of the session installed, at one of its own steps and in the world of
that step, and the channel has not failed.
-/
def Trusted (Authentic : env.snow.HandshakeState → Bytes → Prop) (s₀ : Link env) (ops : List Op) :
    Prop :=
  (Machine.final (perform env) s₀ ops).1.failed = false
  ∧ ∃ remote, (Machine.final (perform env) s₀ ops).1.HasKey remote
    ∧ ∃ before data after, ops = before ++ .receive data false :: after
      ∧ Establishes env Authentic (Machine.final (perform env) s₀ before) data remote
        (Machine.final (perform env) s₀ (before ++ [.receive data false])).2

/-- The key of every session has been established in the run. -/
theorem established_of_session {Authentic : env.snow.HandshakeState → Bytes → Prop}
    (hreads : ReadsAuthentic env.snow Authentic) {s₀ : Link env} (hnone : s₀.1.session = none)
    {ops : List Op} (h : (Machine.final (perform env) s₀ ops).1.session.isSome = true) :
    ∃ remote, (Machine.final (perform env) s₀ ops).1.HasKey remote
      ∧ ∃ before data after, ops = before ++ .receive data false :: after
        ∧ Establishes env Authentic (Machine.final (perform env) s₀ before) data remote
          (Machine.final (perform env) s₀ (before ++ [.receive data false])).2 := by
  induction ops using List.reverseRecOn with
  | nil =>
    rw [Machine.final_nil, hnone] at h
    cases h
  | append_singleton ops op ih =>
    rw [Machine.final_concat] at h ⊢
    rcases perform_session hreads (Machine.final (perform env) s₀ ops) op with
      hsame | ⟨data, remote, rfl, hkey, hest⟩
    · -- the session goes on under its key
      obtain ⟨session', hsession'⟩ := Option.isSome_iff_exists.mp h
      obtain ⟨session, hsession, hkey⟩ : ∃ session,
          (Machine.final (perform env) s₀ ops).1.session = some session
          ∧ session.remoteStaticKey = session'.remoteStaticKey := by
        rw [hsession', Option.map_some, eq_comm, Option.map_eq_some_iff] at hsame
        exact hsame
      obtain ⟨remote, ⟨session₁, hsession₁, hremote⟩, before, data, after, rfl, hest⟩ :=
        ih (by rw [hsession]; rfl)
      obtain rfl : session = session₁ := Option.some.inj (hsession.symm.trans hsession₁)
      exact ⟨remote, ⟨session', hsession', hkey.symm.trans hremote⟩, before, data, after ++ [op],
        by rw [List.append_assoc, List.cons_append], hest⟩
    · exact ⟨remote, hkey, ops, data, [], rfl, by rw [Machine.final_concat]; exact hest⟩

theorem failed_final {s : Link env} (h : s.1.failed = true) : ∀ later : List Op,
    Machine.final (perform env) s later = s
    ∧ ∀ answer ∈ Machine.outputs (perform env) s later, answer.Refused
  | [] => ⟨rfl, fun _ h => nomatch h⟩
  | op :: later => by
    obtain ⟨hrefused, hsame⟩ := perform_of_failed h op
    obtain ⟨hfinal, hrest⟩ := failed_final h later
    rw [Machine.final_cons, Machine.outputs_cons, hsame]
    refine ⟨hfinal, fun answer hanswer => ?_⟩
    rcases List.mem_cons.mp hanswer with rfl | hanswer
    · exact hrefused
    · exact hrest answer hanswer

/-- Only the session delivers messages. -/
theorem session_of_delivered {data : Bytes} {binary : Bool} {s s' : Link env} {message : HiveMessage}
    {writes : List NoiseWrite}
    (h : receive env data binary s = (.ok (some message, writes), s')) :
    s.1.failed = false ∧ s.1.session.isSome = true
    ∧ s'.1.failed = false ∧ s'.1.session.isSome = true := by
  rcases hfailed : s.1.failed with _ | _
  · rcases receive_cases data binary hfailed with ⟨err, hr⟩ |
      ⟨session, heard, failed, r, hsession, -, hr, hr'⟩ |
      ⟨message', -, -, -, ⟨writes', -, hr⟩ | ⟨err, -, hr⟩⟩ <;> rw [hr] at h
    · cases h
    · cases h
      rcases hr' with ⟨err, herr⟩ | ⟨rfl, -⟩
      · cases herr
      · exact ⟨rfl, by rw [hsession]; rfl, rfl, rfl⟩
    · cases h
    · cases h
  · rw [receive_of_failed hfailed] at h
    cases h

/-! ## Refusals -/

theorem refuses_of_failed {s : Link env} (h : s.1.failed = true) (data : Bytes) (binary : Bool) :
    Refuses env data binary s := by
  have hsame : ({ s.1 with failed := true }, s.2) = s := by rw [← h]
  exact ⟨_, (receive_of_failed h).trans (by rw [hsame])⟩

/-- A message of the negotiation is refused if it is refused before the session. -/
theorem refuses_of_clear {data : Bytes} {message : HiveMessage} {s : Link env}
    (hdata : env.fromSlice data = .ok message)
    (h : s.1.session = none → ∃ err, receiveClear env message s = (.error err, s)) :
    Refuses env data false s := by
  rcases hsession : s.1.session with _ | session
  · obtain ⟨err, herr⟩ := h hsession
    exact refuses_of_inner ((receiveInner_clear hsession hdata).trans (bind_error herr))
  · exact refuses_of_inner (receiveInner_plain (by rw [hsession]; rfl))

/--
**The Noise channel is safe.**

For every run of `receive` and `encode` on a channel, whatever the environment answers:

* A message is delivered, and one is encrypted, only under a session whose key was established at a
  step of the run, by an authentic handshake message and the pin check made in the world of that
  step, in a channel that has not failed.
* Refused, with nothing installed: plain text under a session, binary before one, a second HELLO, a
  second offer, and an answer in the handshake before an offer.
* Once it has failed it stays so, and nothing succeeds.
-/
theorem noise_channel_safety {Authentic : env.snow.HandshakeState → Bytes → Prop}
    (hreads : ReadsAuthentic env.snow Authentic) (identity : Identity) (stateDir : Option String)
    (forceXx : Bool) (adoptFrom : Option String) (w : σ) (ops : List Op) :
    let s₀ : Link env := (NoiseChannel.new env.snow identity stateDir forceXx adoptFrom, w)
    let s := Machine.final (perform env) s₀ ops
    (∀ data binary message writes s',
      receive env data binary s = (.ok (some message, writes), s') →
      Trusted Authentic s₀ ops ∧ s'.1.failed = false ∧ s'.1.session.isSome = true)
    ∧ (∀ message writes s', encode env message s = (.ok writes, s') →
      Trusted Authentic s₀ ops ∧ s'.1.failed = false ∧ s'.1.session.isSome = true)
    ∧ (s.1.session.isSome = true → ∀ data, Refuses env data false s)
    ∧ (s.1.session = none → ∀ data, Refuses env data true s)
    ∧ (∀ data, IsHello env data → (∃ earlier, .receive earlier false ∈ ops ∧ IsHello env earlier) →
      Refuses env data false s)
    ∧ (∀ data, IsOffer env data → (∃ earlier, .receive earlier false ∈ ops ∧ IsOffer env earlier) →
      Refuses env data false s)
    ∧ (∀ data, IsAnswer env data → (∀ earlier, IsOffer env earlier → .receive earlier false ∉ ops) →
      Refuses env data false s)
    ∧ (s.1.failed = true → ∀ later, (Machine.final (perform env) s later).1.failed = true
      ∧ ∀ answer ∈ Machine.outputs (perform env) s later, answer.Refused) := by
  intro s₀ s
  refine ⟨?_, ?_, fun h data => ?_, fun h data => ?_, ?_, ?_, ?_, fun h later => ?_⟩
  · intro data binary message writes s' h
    obtain ⟨hfailed, hsession, hend⟩ := session_of_delivered h
    exact ⟨⟨hfailed, established_of_session hreads rfl hsession⟩, hend⟩
  · intro message writes s' h
    obtain ⟨hfailed, hsession, hend⟩ := session_of_encoded h
    exact ⟨⟨hfailed, established_of_session hreads rfl hsession⟩, hend⟩
  · exact refuses_of_inner (receiveInner_plain h)
  · exact refuses_of_inner (receiveInner_binary h)
  · rintro data ⟨message, hdata, htype⟩ ⟨earlier, hmem, hearlier⟩
    -- a HELLO is kept for good, so that the next is the second
    have hkept : s.1.failed = true ∨ s.1.hello.isSome = true := by
      refine Machine.final_of_mem (C := fun op => op = .receive earlier false)
        (fun s op => perform_hello s op) ?_ ⟨_, hmem, rfl⟩
      rintro s _ rfl
      exact perform_of_isHello hearlier s
    rcases hkept with hkept | hkept
    · exact refuses_of_failed hkept data false
    · refine refuses_of_clear hdata fun _ => ?_
      rw [show receiveClear env message = receiveHello env message from if_pos htype]
      exact ⟨_, receiveHello_of_hello (.inl hkept)⟩
  · rintro data ⟨_, params, ⟨message, hdata, htype, rfl, hparams⟩, hmsg⟩ ⟨earlier, hmem, hearlier⟩
    -- an offer begins a handshake that lasts, or ends in a session
    have hbegun : s.1.failed = true ∨ Begun s := by
      refine Machine.final_of_mem (C := fun op => op = .receive earlier false)
        perform_begun ?_ ⟨_, hmem, rfl⟩
      rintro s _ rfl
      exact perform_of_isOffer hearlier s
    rcases hbegun with hfailed | hbegun
    · exact refuses_of_failed hfailed data false
    · refine refuses_of_clear hdata fun hnone => ?_
      have hhandshake : s.1.handshake.isSome = true :=
        hbegun.resolve_right (by rw [hnone]; exact Bool.false_ne_true)
      rw [receiveClear_of_shake htype hparams, hmsg, if_neg Bool.false_ne_true]
      exact ⟨_, start_of_handshake hhandshake⟩
  · rintro data ⟨_, params, ⟨message, hdata, htype, rfl, hparams⟩, hmsg⟩ hops
    -- without an offer among the operations no handshake has begun
    have hhandshake : s.1.handshake = none := by
      refine Machine.final_invariant_of_mem (P := fun s : Link env => s.1.handshake = none)
        (fun s op hop => perform_no_handshake fun data hdata => ?_) rfl
      rintro rfl
      exact hops data hdata hop
    refine refuses_of_clear hdata fun _ => ?_
    rw [receiveClear_of_shake htype hparams, hmsg, if_pos rfl]
    exact continueHandshake_of_none hhandshake
  · obtain ⟨hsame, hrefused⟩ := failed_final h later
    exact ⟨by rw [hsame]; exact h, hrefused⟩

/-! ## A run -/

/-- A client with a password. -/
def sampleIdentity : Identity where
  accessKey := "key"
  password := "password"
  siteId := "site"
  defaultMaster := ""
  defaultPort := 0
  defaultPath := ""
  publicKey := none
  metadata := []
  name := none
  dataPlaneEndpoints := { https := none, wss := none, mqtt := none }
  protocols := { wss := true, http := false, mqtt := false }
  mqtt := none

/-- A hub's HELLO, offer and answer are the bytes 0, 1 and 2; the client knows no hub yet. -/
def sampleEnv : ChannelEnv Unit where
  snow := countingSnow
  numbers := { render := fun _ => [], read := fun _ => none }
  adoptLegacyKey _ _ _ := pure false
  loadNoisePin _ _ := pure none
  loadOrCreateNoiseKey _ := pure []
  loadCachedPsk _ _ := pure none
  saveCachedPsk _ _ _ := pure ()
  forgetCachedPsk _ _ := pure ()
  pinHubKey _ _ _ := pure ()
  derivePsk _ _ := .ok []
  drawSeed _ := (0, ())
  newUuid _ := ("0", ())
  fromSlice data :=
    if data = [0] then .ok { msgType := "hello", payload := [("node_id", .string "hub")] }
    else if data = [1] then .ok { msgType := "shake", payload := [("noise", .object [
      ("patterns", .array [.string NOISE_PATTERN_XX]),
      ("suites", .array (NOISE_SUITES.map Json.Value.string))])] }
    else if data = [2] then
      .ok { msgType := "shake", payload := [("noise", .object [("msg", .string "01")])] }
    else .ok { msgType := "bus", payload := [] }
  toVec _ := .ok [9]
  decodeHiveBinaryFrame _ := .error (.connection "not a BINARY frame")

/-- After the negotiation a message is delivered under a trusted session; a second HELLO is refused. -/
theorem noise_channel_safety_of_negotiation :
    let s₀ : Link sampleEnv := (NoiseChannel.new countingSnow sampleIdentity none false none, ())
    let ops : List Op := [.receive [0] false, .receive [1] false, .receive [2] false]
    Trusted (fun n message => message = [UInt8.ofNat n]) s₀ ops
    ∧ Refuses sampleEnv [0] false (Machine.final (perform sampleEnv) s₀ ops) := by
  intro s₀ ops
  obtain ⟨hdelivered, -, -, -, hhello, -⟩ := @noise_channel_safety Unit sampleEnv _
    readsAuthentic_countingSnow sampleIdentity none false none () ops
  have hsome : ((receive sampleEnv (FRAME_JSON :: 5 :: countingTag 0) true
      (Machine.final (perform sampleEnv) s₀ ops)).1.toOption.bind Prod.fst).isSome = true := by
    decide +kernel
  have hfirst : IsHello sampleEnv [0] := ⟨_, rfl, rfl⟩
  refine ⟨?_, hhello [0] hfirst ⟨[0], List.mem_cons_self, hfirst⟩⟩
  rcases h : receive sampleEnv (FRAME_JSON :: 5 :: countingTag 0) true
    (Machine.final (perform sampleEnv) s₀ ops) with ⟨err | ⟨_ | message, writes⟩, s'⟩
  · rw [h] at hsome
    cases hsome
  · rw [h] at hsome
    cases hsome
  · exact (hdelivered _ _ _ _ _ h).1

end Thalovant.Transport
