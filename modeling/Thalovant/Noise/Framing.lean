import Thalovant.Noise.Reassembly

/-!
# Messages come through the framing as they were sent

Whatever `encrypt_message` yields for a list of messages, a session in step with the sender reads the
messages back, each once and in order.

## How it is shown

* `plaintextFrames_word`: the plaintext frames of a message are a word of the grammar, with the
  message as its payload. The induction is on the chunks left.
* `outputs_readMessage`: frames written by one end are decrypted by the other to the plaintexts they
  were made of.
* `framing_round_trip` puts the messages one after the other; between two the buffer is empty.
-/

namespace Thalovant.Noise

variable {cipher : TransportCipher}

/-! ## Assumption on the cipher -/

/--
The two ends are an ordered authenticated channel.

`InStep s r` says that the state `r` expects the next message of the state `s`. What `s` writes then
is read by `r` as the plaintext it was made of, and the ends are in step again.
-/
def OrderedChannel (cipher : TransportCipher) (InStep : cipher.State → cipher.State → Prop) : Prop :=
  ∀ s r plaintext frame s', InStep s r → cipher.writeMessage s plaintext = (.ok frame, s') →
    ∃ r', cipher.readMessage r frame = (.ok plaintext, r') ∧ InStep s' r'

theorem orderedChannel_countingCipher :
    OrderedChannel countingCipher fun s r => Prod.fst s = Prod.snd r := by
  rintro ⟨s, m⟩ ⟨n, _⟩ plaintext frame s' rfl hwrite
  have htag : (countingTag s).length = NOISE_TAG_SIZE := List.length_replicate
  simp only [countingCipher] at hwrite ⊢
  split at hwrite
  · next hfits =>
    cases hwrite
    refine ⟨(n, s + 1), ?_, rfl⟩
    rw [List.length_append, htag, Nat.add_sub_cancel, List.drop_left, List.take_left,
      if_pos ⟨hfits, rfl⟩]
  · cases hwrite

/-- The cipher encrypts every plaintext that fits a Noise message with its tag. -/
def Encrypts (cipher : TransportCipher) : Prop :=
  ∀ s plaintext, plaintext.length + NOISE_TAG_SIZE ≤ NOISE_MAX_MESSAGE →
    ∃ frame s', cipher.writeMessage s plaintext = (.ok frame, s')

/-! ## The frames of one message -/

theorem chunkFrames_of_le {first : UInt8} {payload : Bytes} {offset : Nat}
    (h : payload.length ≤ offset) : chunkFrames first payload offset = [] := by
  rw [chunkFrames, if_neg (Nat.not_lt.mpr h)]

/-- The chunks after the first: the frame that reaches the end of the payload is the last one. -/
theorem chunkFrames_tail (first : UInt8) {payload : Bytes} {offset : Nat} (hpos : 0 < offset)
    (hlt : offset < payload.length) :
    ∃ (more : List Bytes) (last : Bytes), chunkFrames first payload offset
        = more.map (FRAME_MORE :: ·) ++ [FRAME_LAST :: last]
      ∧ more.flatten ++ last = payload.drop offset := by
  have hne : ¬ offset = 0 := by omega
  have hchunk := chunkSize_pos
  rw [chunkFrames, if_pos hlt]
  simp only [hne, if_false]
  by_cases hlast : payload.length - NOISE_CHUNK_SIZE ≤ offset
  · have hbody : (payload.drop offset).take NOISE_CHUNK_SIZE = payload.drop offset :=
      List.take_of_length_le (by rw [List.length_drop]; omega)
    refine ⟨[], payload.drop offset, ?_, rfl⟩
    rw [if_pos hlast, chunkFrames_of_le (by omega), hbody]
    rfl
  · have hnext : NOISE_CHUNK_SIZE + offset < payload.length := by omega
    obtain ⟨more, last, hframes, hbytes⟩ :=
      chunkFrames_tail first (Nat.add_pos_left hchunk offset) hnext
    refine ⟨(payload.drop offset).take NOISE_CHUNK_SIZE :: more, last, ?_, ?_⟩
    · rw [if_neg hlast, hframes]
      rfl
    · rw [List.flatten_cons, List.append_assoc, hbytes, Nat.add_comm, ← List.drop_drop,
        List.take_append_drop]
termination_by payload.length - offset

/-- The first chunk. -/
theorem chunkFrames_start {first : UInt8} {payload : Bytes} {offset : Nat}
    (h : offset < payload.length) (hzero : offset = 0) :
    chunkFrames first payload offset
      = (first :: payload.take NOISE_CHUNK_SIZE)
        :: chunkFrames first payload NOISE_CHUNK_SIZE := by
  have hnext : NOISE_CHUNK_SIZE + offset = NOISE_CHUNK_SIZE := by omega
  rw [chunkFrames, if_pos h, hnext]
  simp only [hzero, if_true, List.drop_zero]

/-- **The plaintext frames of a message are a word of the grammar.** -/
theorem plaintextFrames_word (payload : Bytes) (isJson : Bool) :
    ∃ w : Word, plaintextFrames payload isJson = w.frames
      ∧ w.payload = payload ∧ w.isJson = isJson := by
  unfold plaintextFrames
  by_cases hle : payload.length ≤ NOISE_CHUNK_SIZE
  · exact ⟨.single isJson payload, if_pos hle, rfl, rfl⟩
  · obtain ⟨more, last, hframes, hbytes⟩ :=
      chunkFrames_tail (firstMarker isJson) chunkSize_pos (Nat.not_le.mp hle)
    refine ⟨.chunked ⟨isJson, payload.take NOISE_CHUNK_SIZE, more⟩ last, ?_, ?_, rfl⟩
    · rw [if_neg hle, chunkFrames_start (by omega) rfl]
      exact congrArg _ hframes
    · rw [Word.payload, Chunks.bytes, List.append_assoc, hbytes, List.take_append_drop]

/-- What the frames of one message are answered with: `Partial`, and the message for the last. -/
def answers (frames : Nat) (payload : Bytes) (isJson : Bool) : List (Result NoiseFrame) :=
  List.replicate (frames - 1) (.ok .partial_) ++ [.ok (.message payload isJson)]

/-- The plaintext frames of a message, from an empty buffer to an empty buffer. -/
theorem outputs_plaintextFrames {payload : Bytes} (isJson : Bool)
    (hlen : payload.length ≤ NOISE_MAX_REASSEMBLY) :
    Machine.outputs reassemble none (plaintextFrames payload isJson)
      = answers (plaintextFrames payload isJson).length payload isJson
    ∧ Machine.final reassemble none (plaintextFrames payload isJson) = none := by
  obtain ⟨w, hframes, rfl, rfl⟩ := plaintextFrames_word payload isJson
  rw [hframes]
  exact w.outputs_frames hlen

theorem plaintextFrames_length_pos (payload : Bytes) (isJson : Bool) :
    0 < (plaintextFrames payload isJson).length := by
  obtain ⟨w, hframes, -, -⟩ := plaintextFrames_word payload isJson
  rw [hframes]
  cases w <;> simp [Word.frames]

/-- A chunk and its marker. -/
theorem chunkFrames_length_le (first : UInt8) (payload : Bytes) (offset : Nat) :
    ∀ plaintext ∈ chunkFrames first payload offset, plaintext.length ≤ NOISE_CHUNK_SIZE + 1 := by
  have hchunk := chunkSize_pos
  rw [chunkFrames]
  by_cases h : offset < payload.length
  · rw [if_pos h]
    intro plaintext hmem
    rcases List.mem_cons.mp hmem with rfl | hmem
    · simp only [List.length_cons, List.length_take]
      omega
    · exact chunkFrames_length_le first payload (NOISE_CHUNK_SIZE + offset) plaintext hmem
  · rw [if_neg h]
    simp
termination_by payload.length - offset
decreasing_by
  have := chunkSize_pos
  omega

/-- **Every plaintext frame of a message is within the chunk limit and one byte.** -/
theorem plaintextFrames_length_le (payload : Bytes) (isJson : Bool) :
    ∀ plaintext ∈ plaintextFrames payload isJson, plaintext.length ≤ NOISE_CHUNK_SIZE + 1 := by
  unfold plaintextFrames
  split
  · intro plaintext hmem
    rw [List.mem_singleton.mp hmem, List.length_cons]
    omega
  · exact chunkFrames_length_le _ payload 0

/-! ## Through the cipher -/

/-- What one end writes, the other reads as the plaintexts it was written from. -/
theorem outputs_readMessage {InStep : cipher.State → cipher.State → Prop}
    (hchannel : OrderedChannel cipher InStep) : ∀ (plaintexts : List Bytes) {frames : List Bytes}
    {s s' : cipher.State} (r : cipher.State), InStep s r → writeAll s plaintexts = (.ok frames, s') →
    frames.length = plaintexts.length
    ∧ Machine.outputs cipher.readMessage r frames = plaintexts.map .ok
    ∧ InStep s' (Machine.final cipher.readMessage r frames) := by
  intro plaintexts
  induction plaintexts with
  | nil =>
    intro frames s s' r hstep hwrite
    cases hwrite
    exact ⟨rfl, rfl, hstep⟩
  | cons plaintext plaintexts ih =>
    intro frames s s' r hstep hwrite
    rw [writeAll] at hwrite
    rcases hw : cipher.writeMessage s plaintext with ⟨err | frame, s₁⟩
    · simp [hw] at hwrite
    · simp only [hw] at hwrite
      rcases hrest : writeAll s₁ plaintexts with ⟨err | rest, s₂⟩
      · simp [hrest] at hwrite
      · simp only [hrest, Prod.mk.injEq, Except.ok.injEq] at hwrite
        obtain ⟨rfl, rfl⟩ := hwrite
        obtain ⟨r', hread, hstep'⟩ := hchannel s r plaintext frame s₁ hstep hw
        obtain ⟨hlen, hout, hend⟩ := ih r' hstep' hrest
        refine ⟨by rw [List.length_cons, List.length_cons, hlen], ?_, ?_⟩
        · rw [Machine.outputs_cons, hread, hout, List.map_cons]
        · rw [Machine.final_cons, hread]
          exact hend

/-! ## A list of messages -/

/-- Encrypt messages one after the other, up to the first that fails. -/
def encryptMessages : NoiseSession cipher → List (Bytes × Bool) →
    Result (List (List Bytes)) × NoiseSession cipher
  | session, [] => (.ok [], session)
  | session, m :: messages =>
    match encryptMessage session m.1 m.2 with
    | (.error err, session) => (.error err, session)
    | (.ok frames, session) =>
      match encryptMessages session messages with
      | (.error err, session) => (.error err, session)
      | (.ok rest, session) => (.ok (frames :: rest), session)

/-- The answers to the frames of all messages, message by message. -/
theorem outputs_encryptMessages {InStep : cipher.State → cipher.State → Prop}
    (hchannel : OrderedChannel cipher InStep) : ∀ (messages : List (Bytes × Bool))
    {frames : List (List Bytes)} {sender sender' : NoiseSession cipher}
    (receiver : NoiseSession cipher), InStep sender.transport receiver.transport → receiver.reassembly = none →
    (∀ m ∈ messages, m.1.length ≤ NOISE_MAX_REASSEMBLY) →
    encryptMessages sender messages = (.ok frames, sender') →
    List.Forall₂ (fun (fs : List Bytes) (_ : Bytes × Bool) => fs ≠ []) frames messages
    ∧ Machine.outputs decryptFrame receiver frames.flatten
        = (frames.zip messages).flatMap fun fm => answers fm.1.length fm.2.1 fm.2.2 := by
  intro messages
  induction messages with
  | nil =>
    intro frames sender sender' receiver _ _ _ hsend
    cases hsend
    exact ⟨.nil, rfl⟩
  | cons m messages ih =>
    intro frames sender sender' receiver hstep hopen hlen hsend
    rw [encryptMessages, encryptMessage_eq_writeAll] at hsend
    rcases hw : writeAll sender.transport (plaintextFrames m.1 m.2) with ⟨err | fs, s₁⟩
    · simp [hw] at hsend
    · simp only [hw] at hsend
      rcases hrest : encryptMessages { sender with transport := s₁ } messages with ⟨err | rest, s₂⟩
      · simp [hrest] at hsend
      · simp only [hrest, Prod.mk.injEq, Except.ok.injEq] at hsend
        obtain ⟨rfl, rfl⟩ := hsend
        -- the frames of the first message leave the receiver empty, in step for the rest
        obtain ⟨hcount, hread, hstep'⟩ :=
          outputs_readMessage hchannel (plaintextFrames m.1 m.2) receiver.transport hstep hw
        obtain ⟨hout, hbuffer, htransport⟩ := outputs_decryptFrame fs _ receiver hread
        obtain ⟨hanswers, hempty⟩ :=
          outputs_plaintextFrames m.2 (hlen m List.mem_cons_self)
        rw [hopen] at hout hbuffer
        rw [← htransport] at hstep'
        obtain ⟨hne, hih⟩ := ih (Machine.final decryptFrame receiver fs) hstep'
          (hbuffer.trans hempty) (fun m' hm' => hlen m' (List.mem_cons_of_mem _ hm')) hrest
        have hpos := plaintextFrames_length_pos m.1 m.2
        refine ⟨.cons (List.ne_nil_of_length_pos (hcount ▸ hpos)) hne, ?_⟩
        rw [List.flatten_cons, Machine.outputs_append, hout, hanswers, hih, List.zip_cons_cons,
          List.flatMap_cons, hcount]

/-- A cipher that also keeps the plaintexts it was handed. -/
def TransportCipher.recording (cipher : TransportCipher) : TransportCipher where
  State := cipher.State × List Bytes
  writeMessage s plaintext :=
    let r := cipher.writeMessage s.1 plaintext
    (r.1, (r.2, s.2 ++ [plaintext]))
  readMessage s data :=
    let r := cipher.readMessage s.1 data
    (r.1, (r.2, s.2))

/-- What `writeAll` hands the cipher is among the plaintexts it was given. -/
theorem mem_recording_writeAll : ∀ (plaintexts : List Bytes) (s : cipher.recording.State),
    ∀ plaintext ∈ (@writeAll cipher.recording s plaintexts).2.2,
      plaintext ∈ s.2 ∨ plaintext ∈ plaintexts := by
  intro plaintexts
  induction plaintexts with
  | nil => exact fun s plaintext h => Or.inl h
  | cons p plaintexts ih =>
    intro s plaintext h
    have hone : (cipher.recording.writeMessage s p).2.2 = s.2 ++ [p] := rfl
    rw [writeAll] at h
    rcases hw : cipher.recording.writeMessage s p with ⟨err | frame, s₁⟩
    · simp only [hw] at h hone
      rw [hone, List.mem_append] at h
      exact h.imp id fun h => List.mem_cons.mpr (Or.inl (List.mem_singleton.mp h))
    · simp only [hw] at h hone
      have hrest : plaintext ∈ (@writeAll cipher.recording s₁ plaintexts).2.2 := by
        rcases hr : @writeAll cipher.recording s₁ plaintexts with ⟨err | rest, s₂⟩ <;>
          simpa only [hr] using h
      rcases ih s₁ plaintext hrest with h | h
      · rw [hone, List.mem_append] at h
        exact h.imp id fun h => List.mem_cons.mpr (Or.inl (List.mem_singleton.mp h))
      · exact Or.inr (List.mem_cons_of_mem _ h)

theorem mem_recording_encryptMessages : ∀ (messages : List (Bytes × Bool))
    (session : NoiseSession cipher.recording),
    ∀ plaintext ∈ (encryptMessages session messages).2.transport.2,
      plaintext ∈ session.transport.2 ∨ ∃ m ∈ messages, plaintext ∈ plaintextFrames m.1 m.2 := by
  intro messages
  induction messages with
  | nil => exact fun session plaintext h => Or.inl h
  | cons m messages ih =>
    intro session plaintext h
    have hone := mem_recording_writeAll (plaintextFrames m.1 m.2) session.transport
    rw [encryptMessages, encryptMessage_eq_writeAll] at h
    rcases hw : writeAll session.transport (plaintextFrames m.1 m.2) with ⟨err | fs, s₁⟩
    · simp only [hw] at h hone
      exact (hone plaintext h).imp id fun h => ⟨m, List.mem_cons_self, h⟩
    · simp only [hw] at h hone
      have hrest : plaintext
          ∈ (encryptMessages { session with transport := s₁ } messages).2.transport.2 := by
        rcases hr : encryptMessages { session with transport := s₁ } messages
          with ⟨err | rest, s₂⟩ <;> simpa only [hr] using h
      rcases ih { session with transport := s₁ } plaintext hrest with h | ⟨m', hm', h⟩
      · exact (hone plaintext h).imp id fun h => ⟨m, List.mem_cons_self, h⟩
      · exact Or.inr ⟨m', List.mem_cons_of_mem _ hm', h⟩

theorem chunk_fits_noise_message {plaintext : Bytes}
    (h : plaintext.length ≤ NOISE_CHUNK_SIZE + 1) :
    plaintext.length + NOISE_TAG_SIZE ≤ NOISE_MAX_MESSAGE := by
  rw [chunkSize_eq] at h
  show plaintext.length + 16 ≤ 65535
  omega

theorem writeAll_ok (hencrypts : Encrypts cipher) : ∀ (plaintexts : List Bytes) (s : cipher.State),
    (∀ plaintext ∈ plaintexts, plaintext.length ≤ NOISE_CHUNK_SIZE + 1) →
    ∃ frames s', writeAll s plaintexts = (.ok frames, s')
  | [], s, _ => ⟨[], s, rfl⟩
  | plaintext :: plaintexts, s, h => by
    obtain ⟨frame, s₁, hw⟩ :=
      hencrypts s plaintext (chunk_fits_noise_message (h plaintext List.mem_cons_self))
    obtain ⟨frames, s₂, hrest⟩ :=
      writeAll_ok hencrypts plaintexts s₁ fun p hp => h p (List.mem_cons_of_mem _ hp)
    exact ⟨frame :: frames, s₂, by rw [writeAll, hw]; simp only [hrest]⟩

/-- A cipher that encrypts what fits a Noise message encrypts every list of messages. -/
theorem encryptMessages_ok (hencrypts : Encrypts cipher) : ∀ (messages : List (Bytes × Bool))
    (session : NoiseSession cipher), ∃ frames session',
      encryptMessages session messages = (.ok frames, session')
  | [], session => ⟨[], session, rfl⟩
  | m :: messages, session => by
    obtain ⟨fs, s₁, hw⟩ := writeAll_ok hencrypts (plaintextFrames m.1 m.2) session.transport
      (plaintextFrames_length_le m.1 m.2)
    obtain ⟨frames, s₂, hrest⟩ :=
      encryptMessages_ok hencrypts messages { session with transport := s₁ }
    exact ⟨fs :: frames, s₂, by
      rw [encryptMessages, encryptMessage_eq_writeAll, hw]
      simp only [hrest]⟩

/--
**Messages come through the framing as they were sent.**

For a list of messages of any sizes up to the reassembly budget:

* The peer session answers the frames, in order, with `Partial` for every frame that is not the last
  of its message and with the message's payload and flag for the last one.
* Every plaintext handed to the cipher on the way fits the chunk limit and its header byte, and is
  under the Noise message limit with its tag.
* Encrypting succeeds whenever the cipher encrypts such plaintexts.
-/
theorem framing_round_trip {InStep : cipher.State → cipher.State → Prop}
    (hchannel : OrderedChannel cipher InStep) (messages : List (Bytes × Bool))
    (hlen : ∀ m ∈ messages, m.1.length ≤ NOISE_MAX_REASSEMBLY) :
    (∀ (sender sender' receiver : NoiseSession cipher) (frames : List (List Bytes)),
      InStep sender.transport receiver.transport → receiver.reassembly = none →
      encryptMessages sender messages = (.ok frames, sender') →
      List.Forall₂ (fun (fs : List Bytes) (_ : Bytes × Bool) => fs ≠ []) frames messages
      ∧ Machine.outputs decryptFrame receiver frames.flatten
          = (frames.zip messages).flatMap fun fm =>
            List.replicate (fm.1.length - 1) (.ok .partial_) ++ [.ok (.message fm.2.1 fm.2.2)])
    ∧ (∀ (session : NoiseSession cipher.recording), session.transport.2 = [] →
      ∀ plaintext ∈ (encryptMessages session messages).2.transport.2,
        plaintext.length ≤ NOISE_CHUNK_SIZE + 1
          ∧ plaintext.length + NOISE_TAG_SIZE ≤ NOISE_MAX_MESSAGE)
    ∧ (Encrypts cipher → ∀ session : NoiseSession cipher,
      ∃ frames session', encryptMessages session messages = (.ok frames, session')) := by
  refine ⟨?_, ?_, fun hencrypts session => encryptMessages_ok hencrypts messages session⟩
  · intro sender sender' receiver frames hstep hopen hsend
    exact outputs_encryptMessages hchannel messages receiver hstep hopen hlen hsend
  · intro session hempty plaintext hmem
    rcases mem_recording_encryptMessages messages session plaintext hmem with h | ⟨m, _, h⟩
    · rw [hempty] at h
      exact absurd h List.not_mem_nil
    · have hle := plaintextFrames_length_le m.1 m.2 plaintext h
      exact ⟨hle, chunk_fits_noise_message hle⟩

/-- A message of one byte more than a chunk. -/
def longMessage : Bytes := List.replicate (NOISE_CHUNK_SIZE + 1) 7

theorem longMessage_length : longMessage.length = NOISE_CHUNK_SIZE + 1 := List.length_replicate

/-- It takes two frames. -/
theorem plaintextFrames_longMessage : plaintextFrames longMessage true
    = [FRAME_FIRST_JSON :: List.replicate NOISE_CHUNK_SIZE 7, [FRAME_LAST, 7]] := by
  have hchunk := chunkSize_pos
  have hlen := longMessage_length
  have hfirst : longMessage.take NOISE_CHUNK_SIZE = List.replicate NOISE_CHUNK_SIZE 7 := by
    rw [longMessage, List.take_replicate, Nat.min_eq_left (Nat.le_succ _)]
  have hlast : (longMessage.drop NOISE_CHUNK_SIZE).take NOISE_CHUNK_SIZE = [7] := by
    rw [longMessage, List.drop_replicate, Nat.add_sub_cancel_left, List.take_of_length_le]
    · rfl
    · rw [List.length_replicate]
      exact hchunk
  have hrest : chunkFrames FRAME_FIRST_JSON longMessage NOISE_CHUNK_SIZE = [[FRAME_LAST, 7]] := by
    rw [chunkFrames, if_pos (by omega)]
    dsimp only
    rw [if_neg (by omega), if_pos (by omega), hlast, chunkFrames_of_le (by omega)]
  rw [plaintextFrames, if_neg (by omega), if_pos rfl, chunkFrames_start (by omega) rfl, hfirst, hrest]

/-- The counting cipher writes a plaintext that fits. -/
theorem writeAll_countingCipher_cons {plaintext : Bytes} {plaintexts frames : List Bytes} {n m : Nat}
    {s : Nat × Nat} (hfits : plaintext.length + NOISE_TAG_SIZE ≤ NOISE_MAX_MESSAGE)
    (h : @writeAll countingCipher (n + 1, m) plaintexts = (.ok frames, s)) :
    @writeAll countingCipher (n, m) (plaintext :: plaintexts)
      = (.ok ((plaintext ++ countingTag n) :: frames), s) := by
  have hwrite : countingCipher.writeMessage (n, m) plaintext
      = (.ok (plaintext ++ countingTag n), (n + 1, m)) := if_pos hfits
  simp only [writeAll, hwrite, h]
  rfl

theorem encryptMessages_cons {session : NoiseSession cipher} {m : Bytes × Bool} {messages : List (Bytes × Bool)}
    {fs : List Bytes} {rest : List (List Bytes)} {t : cipher.State} {session' : NoiseSession cipher}
    (hwrite : writeAll session.transport (plaintextFrames m.1 m.2) = (.ok fs, t))
    (h : encryptMessages { session with transport := t } messages = (.ok rest, session')) :
    encryptMessages session (m :: messages) = (.ok (fs :: rest), session') := by
  rw [encryptMessages, encryptMessage_eq_writeAll, hwrite]
  simp only [h]

/-- Two messages, the first of two frames, between counting ciphers. -/
theorem framing_round_trip_two_messages :
    Machine.outputs decryptFrame (countingSession 0 0)
        [FRAME_FIRST_JSON :: List.replicate NOISE_CHUNK_SIZE 7 ++ countingTag 0,
          FRAME_LAST :: 7 :: countingTag 1, FRAME_BINARY :: countingTag 2]
      = [.ok .partial_, .ok (.message longMessage true), .ok (.message [] false)] := by
  have hchunk : (FRAME_FIRST_JSON :: List.replicate NOISE_CHUNK_SIZE (7 : UInt8)).length + NOISE_TAG_SIZE
      ≤ NOISE_MAX_MESSAGE := by
    rw [List.length_cons, List.length_replicate, chunkSize_eq]
    decide
  have hshort : plaintextFrames [] false = [[FRAME_BINARY]] := if_pos (Nat.zero_le _)
  have hsend : encryptMessages (countingSession 0 0) [(longMessage, true), ([], false)]
      = (.ok [[FRAME_FIRST_JSON :: List.replicate NOISE_CHUNK_SIZE 7 ++ countingTag 0,
            FRAME_LAST :: 7 :: countingTag 1], [FRAME_BINARY :: countingTag 2]],
        countingSession 3 0) := by
    refine encryptMessages_cons (t := (2, 0)) ?_ (encryptMessages_cons (t := (3, 0)) ?_ rfl)
    · rw [plaintextFrames_longMessage]
      exact writeAll_countingCipher_cons hchunk (writeAll_countingCipher_cons (by decide) rfl)
    · rw [hshort]
      exact writeAll_countingCipher_cons (by decide) rfl
  have hfits : ∀ m ∈ [(longMessage, true), ([], false)], m.1.length ≤ NOISE_MAX_REASSEMBLY := by
    have hlong : longMessage.length ≤ NOISE_MAX_REASSEMBLY := by
      rw [longMessage_length, chunkSize_eq]
      decide
    intro m hm
    rcases List.mem_pair.mp hm with rfl | rfl
    · exact hlong
    · exact Nat.zero_le _
  exact ((framing_round_trip orderedChannel_countingCipher [(longMessage, true), ([], false)]
    hfits).1 _ _ (countingSession 0 0) _ rfl rfl hsend).2

end Thalovant.Noise
