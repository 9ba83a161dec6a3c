import Thalovant.Noise.Framing

/-!
# Two sessions and the network between them

The client's session and the hub's, each of which sends what it likes when it likes, and a network that
hands over anything to either, in any order and as often as it likes. What the cipher is relied on for is
that it takes the frames of the peer in the order in which they were written, each once; that a network
forges no frame is a condition on the run (`Unforged`).

Whatever the network does, each end has read a beginning of what the other has sent
(`duplex_reads_prefix`), as long as every message fits the reassembly budget; and the frames it has not
read yet bring the rest.
-/

namespace Thalovant.Noise

variable {cipher : TransportCipher}

/-! ## The two ends -/

inductive Side where
  | client
  | hub
  deriving DecidableEq, Repr

def Side.peer : Side → Side
  | client => hub
  | hub => client

@[simp] theorem Side.peer_peer (side : Side) : side.peer.peer = side := by cases side <;> rfl

theorem Side.peer_ne (side : Side) : side.peer ≠ side := by cases side <;> decide

theorem Side.eq_or_peer (side other : Side) : other = side ∨ other = side.peer := by
  cases side <;> cases other <;> decide

/-- What one end has sent: the messages, and the frames they were encrypted to. -/
structure Sent where
  messages : List (Bytes × Bool)
  frames : List Bytes
  /-- A message could not be encrypted, and the end has given up its session. -/
  failed : Bool

structure Duplex (cipher : TransportCipher) where
  session : Side → NoiseSession cipher
  sent : Side → Sent
  /-- What each end has read. -/
  received : Side → List (Bytes × Bool)

/-- Two sessions that have not exchanged anything. -/
def Duplex.new (client hub : NoiseSession cipher) : Duplex cipher where
  session
    | .client => client
    | .hub => hub
  sent _ := { messages := [], frames := [], failed := false }
  received _ := []

inductive DuplexEvent where
  | send (side : Side) (payload : Bytes) (isJson : Bool)
  /-- The network hands something over to an end. -/
  | deliver (side : Side) (data : Bytes)

/-- `encrypt_message` at one end. -/
def Duplex.send (d : Duplex cipher) (side : Side) (payload : Bytes) (isJson : Bool) : Duplex cipher :=
  let sent := d.sent side
  if sent.failed then d
  else
    match encryptMessage (d.session side) payload isJson with
    | (.ok frames, session) =>
      { d with
        session := Function.update d.session side session
        sent := Function.update d.sent side
          { sent with
            messages := sent.messages ++ [(payload, isJson)]
            frames := sent.frames ++ frames } }
    | (.error _, session) =>
      { d with
        session := Function.update d.session side session
        sent := Function.update d.sent side { sent with failed := true } }

/-- `decrypt_frame` at one end. -/
def Duplex.deliver (d : Duplex cipher) (side : Side) (data : Bytes) : Duplex cipher :=
  let out := decryptFrame (d.session side) data
  { d with
    session := Function.update d.session side out.2
    received := Function.update d.received side (d.received side ++ delivered [out.1]) }

def duplexStep (d : Duplex cipher) : DuplexEvent → Duplex cipher
  | .send side payload isJson => d.send side payload isJson
  | .deliver side data => d.deliver side data

def Duplex.run (d : Duplex cipher) (events : List DuplexEvent) : Duplex cipher :=
  events.foldl duplexStep d

/-- The frame that a step reads at an end: what is handed over to it, if the cipher takes it. -/
def readAt (d : Duplex cipher) (side : Side) : DuplexEvent → List Bytes
  | .send _ _ _ => []
  | .deliver other data =>
    if other = side then
      match cipher.readMessage (d.session side).transport data with
      | (.ok _, _) => [data]
      | (.error _, _) => []
    else []

/-- The frames that an end reads in a run. -/
def framesRead (side : Side) : Duplex cipher → List DuplexEvent → List Bytes
  | _, [] => []
  | d, event :: events => readAt d side event ++ framesRead side (duplexStep d event) events

/-- What the step hands over is no forgery: the cipher refuses it, unless the peer has written it. -/
def Genuine (d : Duplex cipher) : DuplexEvent → Prop
  | .send _ _ _ => True
  | .deliver side data =>
    ∀ plaintext r, cipher.readMessage (d.session side).transport data = (.ok plaintext, r) →
      data ∈ (d.sent side.peer).frames

/-- No step of the run hands over a forgery. -/
def Unforged : Duplex cipher → List DuplexEvent → Prop
  | _, [] => True
  | d, event :: events => Genuine d event ∧ Unforged (duplexStep d event) events

/-! ## Assumption on the cipher -/

/--
The two ends of a cipher read each other's frames in order, each once.

`Linked s log n r` says that `s` has written the frames of `log`, each from its plaintext, and that `r`
has read the first `n` of them. The directions do not touch each other: `s` may read, and `r` may write.
-/
structure InOrder (cipher : TransportCipher)
    (Linked : cipher.State → List (Bytes × Bytes) → Nat → cipher.State → Prop) : Prop where
  write : ∀ {s log n r plaintext frame s'}, Linked s log n r →
    cipher.writeMessage s plaintext = (.ok frame, s') → Linked s' (log ++ [(plaintext, frame)]) n r
  reads : ∀ {s log n r plaintext frame}, Linked s log n r → log[n]? = some (plaintext, frame) →
    ∃ r', cipher.readMessage r frame = (.ok plaintext, r') ∧ Linked s log (n + 1) r'
  only : ∀ {s log n r frame plaintext r'}, Linked s log n r → frame ∈ log.map Prod.snd →
    cipher.readMessage r frame = (.ok plaintext, r') → log[n]? = some (plaintext, frame)
  refuses : ∀ {s log n r data err r'}, Linked s log n r →
    cipher.readMessage r data = (.error err, r') → Linked s log n r'
  sender : ∀ {s log n r} data, Linked s log n r → Linked (cipher.readMessage s data).2 log n r
  receiver : ∀ {s log n r} plaintext, Linked s log n r →
    Linked s log n (cipher.writeMessage r plaintext).2

variable {Linked : cipher.State → List (Bytes × Bytes) → Nat → cipher.State → Prop}

/-- There is a frame for each plaintext. -/
theorem writeAll_length : ∀ {plaintexts frames : List Bytes}
    {t t' : cipher.State}, writeAll t plaintexts = (.ok frames, t') →
    frames.length = plaintexts.length := by
  intro plaintexts
  induction plaintexts with
  | nil =>
    intro frames t t' h
    cases h
    rfl
  | cons plaintext plaintexts ih =>
    intro frames t t' h
    rw [writeAll] at h
    rcases hw : cipher.writeMessage t plaintext with ⟨err | frame, t₁⟩
    · simp [hw] at h
    · simp only [hw] at h
      rcases hrest : writeAll t₁ plaintexts with ⟨err | rest, t₂⟩
      · simp [hrest] at h
      · simp only [hrest, Prod.mk.injEq, Except.ok.injEq] at h
        obtain ⟨rfl, -⟩ := h
        rw [List.length_cons, List.length_cons, ih hrest]

/-- Encrypting a list of plaintexts writes their frames. -/
theorem InOrder.writeAll (h : InOrder cipher Linked) : ∀ (plaintexts : List Bytes) {frames : List Bytes}
    {s s' r : cipher.State} {log : List (Bytes × Bytes)} {n : Nat}, Linked s log n r →
    writeAll s plaintexts = (.ok frames, s') → Linked s' (log ++ plaintexts.zip frames) n r := by
  intro plaintexts
  induction plaintexts with
  | nil =>
    intro frames s s' r log n hlinked hwrite
    cases hwrite
    rwa [List.zip_nil_left, List.append_nil]
  | cons plaintext plaintexts ih =>
    intro frames s s' r log n hlinked hwrite
    rw [Noise.writeAll] at hwrite
    rcases hw : cipher.writeMessage s plaintext with ⟨err | frame, s₁⟩
    · simp [hw] at hwrite
    · simp only [hw] at hwrite
      rcases hrest : Noise.writeAll s₁ plaintexts with ⟨err | rest, s₂⟩
      · simp [hrest] at hwrite
      · simp only [hrest, Prod.mk.injEq, Except.ok.injEq] at hwrite
        obtain ⟨rfl, rfl⟩ := hwrite
        have hend := ih (h.write hlinked hw) hrest
        rwa [List.append_assoc] at hend

/-- The other end may write as much as it likes meanwhile. -/
theorem InOrder.receiver_writeAll (h : InOrder cipher Linked) : ∀ (plaintexts : List Bytes)
    {s r : cipher.State} {log : List (Bytes × Bytes)} {n : Nat}, Linked s log n r →
    Linked s log n (Noise.writeAll r plaintexts).2 := by
  intro plaintexts
  induction plaintexts with
  | nil => exact fun hlinked => hlinked
  | cons plaintext plaintexts ih =>
    intro s r log n hlinked
    have hone := h.receiver plaintext hlinked
    rw [Noise.writeAll]
    rcases hw : cipher.writeMessage r plaintext with ⟨err | frame, r₁⟩
    · rwa [hw] at hone
    · rw [hw] at hone
      have hrest := ih hone
      rcases hr : Noise.writeAll r₁ plaintexts with ⟨err | frames, r₂⟩ <;> rw [hr] at hrest <;>
        simpa only [hr] using hrest

/-! ## One direction -/

/-- The plaintext frames of messages, one message after the other. -/
def plaintextsOf (messages : List (Bytes × Bool)) : List Bytes :=
  messages.flatMap fun m => plaintextFrames m.1 m.2

/-- Every message that an end has sent fits the reassembly budget of the other. -/
def Fit (messages : List (Bytes × Bool)) : Prop :=
  ∀ m ∈ messages, m.1.length ≤ NOISE_MAX_REASSEMBLY

/-- The plaintext frames of messages give the messages, and leave nothing open. -/
theorem delivered_plaintextsOf : ∀ (messages : List (Bytes × Bool)), Fit messages →
    delivered (Machine.outputs reassemble none (plaintextsOf messages)) = messages
    ∧ Machine.final reassemble none (plaintextsOf messages) = none := by
  intro messages
  induction messages with
  | nil => exact fun _ => ⟨rfl, rfl⟩
  | cons m messages ih =>
    intro hfit
    obtain ⟨hout, hempty⟩ := outputs_plaintextFrames m.2 (hfit m List.mem_cons_self)
    obtain ⟨hrest, hend⟩ := ih fun m' hm' => hfit m' (List.mem_cons_of_mem _ hm')
    unfold plaintextsOf at hrest hend ⊢
    rw [List.flatMap_cons, Machine.outputs_append, Machine.final_append, hempty, delivered_append,
      hrest, hout]
    refine ⟨?_, hend⟩
    rw [answers, delivered_append, delivered, List.filterMap_replicate_of_none rfl]
    rfl

/--
What one end sends and the other reads.

The cipher has written the plaintext frames of the messages, and the reader has put the first `n` of
them together.
-/
structure Directed (Linked : cipher.State → List (Bytes × Bytes) → Nat → cipher.State → Prop)
    (d : Duplex cipher) (side : Side) (log : List (Bytes × Bytes)) (n : Nat) : Prop where
  linked : ∃ s, Linked s log n (d.session side.peer).transport
    ∧ ((d.sent side).failed = false → s = (d.session side).transport)
  plaintexts : log.map Prod.fst = plaintextsOf (d.sent side).messages
  frames : log.map Prod.snd = (d.sent side).frames
  within : n ≤ log.length
  reassembly : (d.session side.peer).reassembly
    = Machine.final reassemble none ((log.map Prod.fst).take n)
  received : d.received side.peer
    = delivered (Machine.outputs reassemble none ((log.map Prod.fst).take n))

namespace Directed

variable {d : Duplex cipher} {side : Side} {log : List (Bytes × Bytes)} {n : Nat}

/-- What has been read is a beginning of what was sent, and all of it once every frame is read. -/
theorem prefix_of_fit (h : Directed Linked d side log n) (hfit : Fit (d.sent side).messages) :
    d.received side.peer <+: (d.sent side).messages
    ∧ (n = log.length → d.received side.peer = (d.sent side).messages) := by
  obtain ⟨hall, -⟩ := delivered_plaintextsOf _ hfit
  rw [h.received, h.plaintexts]
  refine ⟨?_, fun hn => ?_⟩
  · have hsplit := List.take_append_drop n (plaintextsOf (d.sent side).messages)
    rw [← hsplit, Machine.outputs_append, delivered_append] at hall
    exact ⟨_, hall⟩
  · rw [List.take_of_length_le, hall]
    rw [← h.plaintexts, List.length_map, hn]

/-- The sender encrypts. -/
theorem send (hC : InOrder cipher Linked) (h : Directed Linked d side log n) (payload : Bytes)
    (isJson : Bool) :
    ∃ more, Directed Linked (d.send side payload isJson) side (log ++ more) n := by
  unfold Duplex.send
  by_cases hfailed : (d.sent side).failed = true
  · simp only [hfailed, if_true]
    exact ⟨[], (List.append_nil log).symm ▸ h⟩
  · simp only [hfailed, Bool.false_eq_true, if_false]
    obtain ⟨s, hlinked, hs⟩ := h.linked
    obtain rfl := hs (by simpa using hfailed)
    rw [encryptMessage_eq_writeAll]
    rcases hw : Noise.writeAll (d.session side).transport (plaintextFrames payload isJson)
      with ⟨err | frames, s'⟩
    · -- what was written of the message reaches nobody
      refine ⟨[], (List.append_nil log).symm ▸
        ⟨⟨(d.session side).transport, ?_, ?_⟩, ?_, ?_, h.within, ?_, ?_⟩⟩ <;>
        simp only [Function.update_self, Function.update_of_ne side.peer_ne]
      · exact hlinked
      · exact fun hnot => nomatch hnot
      · exact h.plaintexts
      · exact h.frames
      · exact h.reassembly
      · exact h.received
    · have hlen := writeAll_length hw
      have hlinked' := hC.writeAll _ hlinked hw
      have hfst : ((plaintextFrames payload isJson).zip frames).map Prod.fst
          = plaintextFrames payload isJson := List.map_fst_zip (Nat.le_of_eq hlen.symm)
      have hsnd : ((plaintextFrames payload isJson).zip frames).map Prod.snd = frames :=
        List.map_snd_zip (Nat.le_of_eq hlen)
      have htake : ((log ++ (plaintextFrames payload isJson).zip frames).map Prod.fst).take n
          = (log.map Prod.fst).take n := by
        rw [List.map_append, List.take_append_of_le_length]
        rw [List.length_map]
        exact h.within
      have hwithin : n ≤ (log ++ (plaintextFrames payload isJson).zip frames).length := by
        rw [List.length_append]
        exact Nat.le_add_right_of_le h.within
      refine ⟨(plaintextFrames payload isJson).zip frames, ⟨s', ?_, ?_⟩, ?_, ?_, hwithin, ?_, ?_⟩ <;>
        simp only [Function.update_self, Function.update_of_ne side.peer_ne]
      · exact hlinked'
      · exact fun _ => trivial
      · rw [List.map_append, hfst, h.plaintexts]
        unfold plaintextsOf
        rw [List.flatMap_append, List.flatMap_singleton]
      · rw [List.map_append, hsnd, h.frames]
      · rw [htake]
        exact h.reassembly
      · rw [htake]
        exact h.received

/-- The reader encrypts. -/
theorem send_peer (hC : InOrder cipher Linked) (h : Directed Linked d side log n) (payload : Bytes)
    (isJson : Bool) : Directed Linked (d.send side.peer payload isJson) side log n := by
  have hne : side ≠ side.peer := fun h => side.peer_ne h.symm
  obtain ⟨s, hlinked, hs⟩ := h.linked
  have hlinked' := hC.receiver_writeAll (plaintextFrames payload isJson) hlinked
  unfold Duplex.send
  by_cases hfailed : (d.sent side.peer).failed = true
  · simp only [hfailed, if_true]
    exact h
  · simp only [hfailed, Bool.false_eq_true, if_false, encryptMessage_eq_writeAll]
    rcases hw : Noise.writeAll (d.session side.peer).transport (plaintextFrames payload isJson)
      with ⟨err | frames, s'⟩ <;> rw [hw] at hlinked' <;>
      refine ⟨⟨s, ?_, ?_⟩, ?_, ?_, h.within, ?_, ?_⟩ <;>
      simp only [Function.update_self, Function.update_of_ne hne]
    all_goals first
      | exact hlinked'
      | exact hs
      | exact h.plaintexts
      | exact h.frames
      | exact h.reassembly
      | exact h.received

/-- The next frame is read. -/
theorem deliver_next (h : Directed Linked d side log n) {plaintext data : Bytes}
    {r' : cipher.State} (hnext : log[n]? = some (plaintext, data))
    (hread : cipher.readMessage (d.session side.peer).transport data = (.ok plaintext, r'))
    {s : cipher.State} (hlinked : Linked s log (n + 1) r')
    (hs : (d.sent side).failed = false → s = (d.session side).transport) :
    Directed Linked (d.deliver side.peer data) side log (n + 1) := by
  have hne : side ≠ side.peer := fun h => side.peer_ne h.symm
  have hlt : n < log.length := (List.getElem?_eq_some_iff.mp hnext).1
  have htake : (log.map Prod.fst).take (n + 1) = (log.map Prod.fst).take n ++ [plaintext] := by
    rw [List.take_add_one, List.getElem?_map, hnext]
    rfl
  have hout := @decryptFrame_of_ok _ (d.session side.peer) _ _ _ hread
  unfold Duplex.deliver
  refine ⟨⟨s, ?_, ?_⟩, ?_, ?_, hlt, ?_, ?_⟩ <;>
    simp only [Function.update_self, Function.update_of_ne hne, hout]
  · exact hlinked
  · exact hs
  · exact h.plaintexts
  · exact h.frames
  · rw [htake, Machine.final_concat, ← h.reassembly]
  · rw [htake, Machine.outputs_concat, delivered_append, ← h.received, ← h.reassembly]

/-- The network hands something over to the reader, who reads it if it is the next frame. -/
theorem deliver (hC : InOrder cipher Linked) (h : Directed Linked d side log n) (data : Bytes)
    (hgenuine : Genuine d (.deliver side.peer data)) :
    ∃ n', Directed Linked (d.deliver side.peer data) side log n' ∧ n ≤ n'
      ∧ (∀ plaintext, log[n]? = some (plaintext, data) → n' = n + 1)
      ∧ (log.map Prod.snd).take n'
        = (log.map Prod.snd).take n ++ readAt d side.peer (.deliver side.peer data) := by
  obtain ⟨s, hlinked, hs⟩ := h.linked
  rcases hread : cipher.readMessage (d.session side.peer).transport data with ⟨err | plaintext, r'⟩
  · -- a frame that is refused moves nothing
    have hne : side ≠ side.peer := fun h => side.peer_ne h.symm
    refine ⟨n, ?_, Nat.le_refl n, fun plaintext hnext => ?_, ?_⟩
    · unfold Duplex.deliver
      simp only [decryptFrame, hread]
      refine ⟨⟨s, ?_, ?_⟩, ?_, ?_, h.within, ?_, ?_⟩ <;>
        simp only [Function.update_self, Function.update_of_ne hne]
      · exact hC.refuses hlinked hread
      · exact hs
      · exact h.plaintexts
      · exact h.frames
      · exact h.reassembly
      · rw [← h.received]
        exact List.append_nil _
    · obtain ⟨r'', hread', -⟩ := hC.reads hlinked hnext
      cases hread.symm.trans hread'
    · simp only [readAt, if_true, hread, List.append_nil]
  · have hmem : data ∈ log.map Prod.snd := by
      have := hgenuine plaintext r' hread
      rwa [Side.peer_peer, ← h.frames] at this
    have hnext := hC.only hlinked hmem hread
    obtain ⟨r'', hread', hlinked'⟩ := hC.reads hlinked hnext
    cases hread.symm.trans hread'
    refine ⟨n + 1, h.deliver_next hnext hread hlinked' hs, Nat.le_succ n, fun _ _ => rfl, ?_⟩
    have hsnd : (log.map Prod.snd)[n]? = some data := by
      rw [List.getElem?_map, hnext]
      rfl
    simp only [readAt, if_true, hread]
    rw [List.take_add_one, hsnd]
    rfl

/-- The network hands something over to the sender. -/
theorem deliver_peer (hC : InOrder cipher Linked) (h : Directed Linked d side log n) (data : Bytes) :
    Directed Linked (d.deliver side data) side log n := by
  obtain ⟨s, hlinked, hs⟩ := h.linked
  have hstate : (decryptFrame (d.session side) data).2.transport
      = (cipher.readMessage (d.session side).transport data).2 := by
    unfold decryptFrame
    rcases cipher.readMessage (d.session side).transport data with ⟨err | plaintext, r⟩ <;> rfl
  unfold Duplex.deliver
  refine ⟨?_, h.plaintexts, h.frames, h.within, ?_, ?_⟩ <;>
    simp only [Function.update_self, Function.update_of_ne side.peer_ne]
  · by_cases hfailed : (d.sent side).failed = false
    · obtain rfl := hs hfailed
      exact ⟨_, hC.sender data hlinked, fun _ => hstate.symm⟩
    · exact ⟨s, hlinked, fun h => absurd h hfailed⟩
  · exact h.reassembly
  · exact h.received

/-- Handing over the frames from one on that the reader has come to brings it to the end. -/
theorem deliver_rest (hC : InOrder cipher Linked) : ∀ (rest : List Bytes) {d : Duplex cipher} {n : Nat}
    {read : List Bytes}, Directed Linked d side log n → (d.sent side).frames = read ++ rest →
    read.length ≤ n →
    let d' := d.run (rest.map (.deliver side.peer))
    d'.sent = d.sent ∧ Directed Linked d' side log log.length := by
  intro rest
  induction rest with
  | nil =>
    intro d n read h hframes hread
    have hlen : read.length = log.length := by
      rw [← List.append_nil read, ← hframes, ← h.frames, List.length_map]
    obtain rfl : n = log.length := Nat.le_antisymm h.within (hlen ▸ hread)
    exact ⟨rfl, h⟩
  | cons data rest ih =>
    intro d n read h hframes hread
    have hmem : data ∈ (d.sent side).frames := by
      rw [hframes]
      exact List.mem_append_right _ List.mem_cons_self
    obtain ⟨n', hn', hle, hnext, -⟩ := h.deliver hC data fun _ _ _ => by rwa [Side.peer_peer]
    have hread' : (read ++ [data]).length ≤ n' := by
      rw [List.length_append, List.length_singleton]
      rcases Nat.lt_or_eq_of_le hread with hlt | rfl
      · exact Nat.le_trans hlt hle
      · -- it is the next one
        have hsnd : (log.map Prod.snd)[read.length]? = some data := by
          rw [h.frames, hframes, List.getElem?_append_right (Nat.le_refl _), Nat.sub_self]
          rfl
        rw [List.getElem?_map, Option.map_eq_some_iff] at hsnd
        obtain ⟨⟨plaintext, frame⟩, hlog, rfl⟩ := hsnd
        exact Nat.le_of_eq (hnext plaintext hlog).symm
    refine ih hn' ?_ hread'
    rw [List.append_assoc]
    exact hframes

/-- **Every step keeps the direction**, unless it hands over a forgery; and it reads the next frame, or
none. -/
theorem step (hC : InOrder cipher Linked) (h : Directed Linked d side log n) (event : DuplexEvent)
    (hgenuine : Genuine d event) : ∃ log' n', Directed Linked (duplexStep d event) side log' n'
      ∧ (log'.map Prod.snd).take n' = (log.map Prod.snd).take n ++ readAt d side.peer event := by
  cases event with
  | send other payload isJson =>
    rcases side.eq_or_peer other with rfl | rfl
    · obtain ⟨more, hmore⟩ := h.send hC payload isJson
      refine ⟨log ++ more, n, hmore, ?_⟩
      rw [List.map_append, List.take_append_of_le_length (by rw [List.length_map]; exact h.within)]
      exact (List.append_nil _).symm
    · exact ⟨log, n, h.send_peer hC payload isJson, (List.append_nil _).symm⟩
  | deliver other data =>
    rcases side.eq_or_peer other with rfl | rfl
    · refine ⟨log, n, h.deliver_peer hC data, ?_⟩
      rw [readAt, if_neg fun h => other.peer_ne h.symm, List.append_nil]
    · obtain ⟨n', hn', -, -, hread⟩ := h.deliver hC data hgenuine
      exact ⟨log, n', hn', hread⟩

theorem run (hC : InOrder cipher Linked) : ∀ (events : List DuplexEvent) {d : Duplex cipher}
    {log : List (Bytes × Bytes)} {n : Nat}, Directed Linked d side log n → Unforged d events →
    ∃ log' n', Directed Linked (d.run events) side log' n'
      ∧ (log'.map Prod.snd).take n' = (log.map Prod.snd).take n ++ framesRead side.peer d events
  | [], _, log, n, h, _ => ⟨log, n, h, (List.append_nil _).symm⟩
  | event :: events, _, _, _, h, hunforged => by
    obtain ⟨log₁, n₁, h₁, hread₁⟩ := h.step hC event hunforged.1
    obtain ⟨log', n', h', hread'⟩ := run hC events h₁ hunforged.2
    refine ⟨log', n', h', ?_⟩
    rw [hread', hread₁, List.append_assoc]
    rfl

theorem new {client hub : NoiseSession cipher} (hto : Linked client.transport [] 0 hub.transport)
    (hback : Linked hub.transport [] 0 client.transport) (hclient : client.reassembly = none)
    (hhub : hub.reassembly = none) (side : Side) : Directed Linked (Duplex.new client hub) side [] 0 := by
  cases side with
  | client => exact ⟨⟨_, hto, fun _ => rfl⟩, rfl, rfl, Nat.le_refl 0, hhub, rfl⟩
  | hub => exact ⟨⟨_, hback, fun _ => rfl⟩, rfl, rfl, Nat.le_refl 0, hclient, rfl⟩

end Directed

/--
**Whatever the network does, each end has read a beginning of what the other has sent.**

Both ends send what they like, and the network hands over what it likes, but for forgeries: lost frames,
frames out of order, frames again, frames of the other direction, anything at all. Then:

* the frames that an end has read are the first ones that the other has written, in order and each once;
* if every message of the other fits the reassembly budget, which is 32 MiB, then what the end has read
  are the first messages that the other has sent, whole, in order and each once;
* and if the network then hands over the frames that are left, it has read all of them.
-/
theorem duplex_reads_prefix (hC : InOrder cipher Linked) {client hub : NoiseSession cipher}
    (hto : Linked client.transport [] 0 hub.transport)
    (hback : Linked hub.transport [] 0 client.transport) (hclient : client.reassembly = none)
    (hhub : hub.reassembly = none) (events : List DuplexEvent)
    (hunforged : Unforged (Duplex.new client hub) events) (side : Side) :
    let d := (Duplex.new client hub).run events
    let read := framesRead side.peer (Duplex.new client hub) events
    read <+: (d.sent side).frames
    ∧ (Fit (d.sent side).messages →
      d.received side.peer <+: (d.sent side).messages
      ∧ (d.run (((d.sent side).frames.drop read.length).map (.deliver side.peer))).received side.peer
          = (d.sent side).messages) := by
  intro d read
  obtain ⟨log, n, h, htake⟩ :=
    (Directed.new hto hback hclient hhub side).run hC events hunforged
  have hread : read = (d.sent side).frames.take n := by
    rw [← h.frames, htake]
    rfl
  have hlength : read.length = n := by
    rw [hread, List.length_take_of_le]
    rw [← h.frames, List.length_map]
    exact h.within
  refine ⟨hread ▸ List.take_prefix n _, fun hfit => ⟨(h.prefix_of_fit hfit).1, ?_⟩⟩
  obtain ⟨hsent, hend⟩ := @Directed.deliver_rest _ _ _ _ hC ((d.sent side).frames.drop read.length)
    _ _ ((d.sent side).frames.take n) h (by rw [hlength, List.take_append_drop])
    (hread ▸ Nat.le_of_eq hlength)
  have hall := hend.prefix_of_fit (by rw [hsent]; exact hfit)
  rw [hsent] at hall
  exact hall.2 rfl

/-! ## Two ends that number their frames -/

/-- The counting cipher, up to as many frames as its tags tell apart. -/
def numberingCipher : TransportCipher where
  State := Nat × Nat
  writeMessage n plaintext :=
    if n.1 < 256 then countingCipher.writeMessage n plaintext else (.error "nonce exhausted", n)
  readMessage n data :=
    if n.2 < 256 then countingCipher.readMessage n data else (.error "nonce exhausted", n)

/-- The frames of `log` carry their numbers. -/
def Numbered (s : Nat × Nat) (log : List (Bytes × Bytes)) (n : Nat) (r : Nat × Nat) : Prop :=
  s.1 = log.length ∧ r.2 = n ∧ log.length ≤ 256
  ∧ ∀ i plaintext frame, log[i]? = some (plaintext, frame) →
    frame = plaintext ++ countingTag i ∧ frame.length ≤ NOISE_MAX_MESSAGE

theorem countingTag_inj {i j : Nat} (hi : i < 256) (hj : j < 256) (h : countingTag i = countingTag j) :
    i = j := by
  have hbyte : UInt8.ofNat i = UInt8.ofNat j := by
    simpa [countingTag, NOISE_TAG_SIZE] using h
  have := congrArg UInt8.toNat hbyte
  simpa [Nat.mod_eq_of_lt hi, Nat.mod_eq_of_lt hj] using this

theorem numberingCipher_write {n n' : Nat × Nat} {plaintext frame : Bytes}
    (h : numberingCipher.writeMessage n plaintext = (.ok frame, n')) :
    countingCipher.writeMessage n plaintext = (.ok frame, n') := by
  rcases Nat.lt_or_ge n.1 256 with hlt | hge
  · rw [← h]
    exact (if_pos hlt).symm
  · have hrefused : numberingCipher.writeMessage n plaintext = (.error "nonce exhausted", n) :=
      if_neg (Nat.not_lt.mpr hge)
    rw [hrefused] at h
    cases h

theorem numberingCipher_read_sent (n : Nat × Nat) (data : Bytes) :
    (numberingCipher.readMessage n data).2.1 = n.1 := by
  simp only [numberingCipher, countingCipher]
  split
  · split <;> rfl
  · rfl

theorem numberingCipher_read {r r' : Nat × Nat} {data plaintext : Bytes}
    (h : numberingCipher.readMessage r data = (.ok plaintext, r')) :
    r.2 < 256 ∧ data = plaintext ++ countingTag r.2 ∧ r' = (r.1, r.2 + 1) := by
  simp only [numberingCipher, countingCipher] at h
  split at h
  · next hlt =>
    split at h
    · next hread =>
      cases h
      refine ⟨hlt, ?_, rfl⟩
      rw [← hread.2, List.take_append_drop]
    · cases h
  · cases h

theorem inOrder_numberingCipher : InOrder numberingCipher Numbered where
  write := by
    rintro ⟨s, m⟩ log n r plaintext frame s' ⟨rfl, hr, hle, hlog⟩ hwrite
    simp only [numberingCipher, countingCipher] at hwrite
    split at hwrite
    · next hlt =>
      split at hwrite
      · next hfits =>
        cases hwrite
        refine ⟨by rw [List.length_append, List.length_singleton], hr, ?_, ?_⟩
        · rw [List.length_append, List.length_singleton]
          exact hlt
        · intro i plaintext' frame hi
          rcases Nat.lt_or_ge i log.length with hlt | hge
          · rw [List.getElem?_append_left hlt] at hi
            exact hlog i plaintext' frame hi
          · rw [List.getElem?_append_right hge, List.getElem?_singleton] at hi
            split at hi
            · next hzero =>
              cases hi
              obtain rfl : i = log.length := by omega
              refine ⟨rfl, ?_⟩
              rwa [List.length_append, countingTag, List.length_replicate]
            · cases hi
      · cases hwrite
    · cases hwrite
  reads := by
    rintro s log n ⟨m, r⟩ plaintext frame ⟨hs, rfl, hle, hlog⟩ hnext
    obtain ⟨rfl, hlen⟩ := hlog _ _ _ hnext
    have hlt := (List.getElem?_eq_some_iff.mp hnext).1
    have htag : (countingTag r).length = NOISE_TAG_SIZE := List.length_replicate
    have hfits : plaintext.length + NOISE_TAG_SIZE ≤ NOISE_MAX_MESSAGE := by
      rw [← htag, ← List.length_append]
      exact hlen
    refine ⟨(m, r + 1), ?_, hs, rfl, hle, hlog⟩
    simp only [numberingCipher, countingCipher]
    rw [if_pos (Nat.lt_of_lt_of_le hlt hle), List.length_append, htag, Nat.add_sub_cancel,
      List.drop_left, List.take_left, if_pos ⟨hfits, rfl⟩]
  only := by
    rintro s log n r frame plaintext r' ⟨-, rfl, hle, hlog⟩ hmem hread
    obtain ⟨⟨plaintext', frame'⟩, hentry, rfl⟩ := List.mem_map.mp hmem
    obtain ⟨i, hi⟩ := List.mem_iff_getElem?.mp hentry
    have hlt := (List.getElem?_eq_some_iff.mp hi).1
    obtain ⟨hbound, hdata, -⟩ := numberingCipher_read hread
    obtain ⟨hframe, -⟩ := hlog i _ _ hi
    -- the tags tell the frames apart
    have hboth := List.append_inj' (hframe.symm.trans hdata)
      (by simp only [countingTag, List.length_replicate])
    obtain rfl := countingTag_inj (Nat.lt_of_lt_of_le hlt hle) hbound hboth.2
    rw [hi, hboth.1]
  refuses := by
    rintro s log n r data err r' h hread
    simp only [numberingCipher, countingCipher] at hread
    split at hread
    · split at hread
      · cases hread
      · cases hread
        exact h
    · cases hread
      exact h
  sender := by
    rintro s log n r data ⟨hs, hr, hle, hlog⟩
    refine ⟨?_, hr, hle, hlog⟩
    simp only [numberingCipher, countingCipher]
    split
    · split <;> exact hs
    · exact hs
  receiver := by
    rintro s log n r plaintext ⟨hs, hr, hle, hlog⟩
    refine ⟨hs, ?_, hle, hlog⟩
    simp only [numberingCipher, countingCipher]
    split
    · split <;> exact hr
    · exact hr

/-- A session that numbers its frames and has not begun. -/
def numberingSession : NoiseSession numberingCipher where
  transport := (0, 0)
  reassembly := none
  remoteStaticKey := none

/-- The numbering cipher writes a plaintext that fits. -/
theorem writeAll_numberingCipher_cons {plaintext : Bytes} {plaintexts frames : List Bytes} {n m : Nat}
    {s : Nat × Nat} (hn : n < 256) (hfits : plaintext.length + NOISE_TAG_SIZE ≤ NOISE_MAX_MESSAGE)
    (h : @writeAll numberingCipher (n + 1, m) plaintexts = (.ok frames, s)) :
    @writeAll numberingCipher (n, m) (plaintext :: plaintexts)
      = (.ok ((plaintext ++ countingTag n) :: frames), s) := by
  have hwrite : numberingCipher.writeMessage (n, m) plaintext
      = (.ok (plaintext ++ countingTag n), (n + 1, m)) := by
    simp only [numberingCipher, countingCipher, hn, hfits, if_true]
  simp only [writeAll, hwrite, h]
  rfl

/-- The frames of a long message and of an empty one. -/
def longFrame : Bytes := FRAME_FIRST_JSON :: List.replicate NOISE_CHUNK_SIZE 7 ++ countingTag 0

def lastFrame : Bytes := FRAME_LAST :: 7 :: countingTag 1

def emptyFrame : Bytes := FRAME_BINARY :: countingTag 2

theorem encryptMessage_longMessage : encryptMessage numberingSession longMessage true
    = (.ok [longFrame, lastFrame], { numberingSession with transport := (2, 0) }) := by
  have hchunk : (FRAME_FIRST_JSON :: List.replicate NOISE_CHUNK_SIZE (7 : UInt8)).length + NOISE_TAG_SIZE
      ≤ NOISE_MAX_MESSAGE := by
    rw [List.length_cons, List.length_replicate, chunkSize_eq]
    decide
  have hwrite : @writeAll numberingCipher (0, 0) (plaintextFrames longMessage true)
      = (.ok [longFrame, lastFrame], (2, 0)) := by
    rw [plaintextFrames_longMessage]
    exact writeAll_numberingCipher_cons (by decide) hchunk
      (writeAll_numberingCipher_cons (by decide) (by decide) rfl)
  rw [encryptMessage_eq_writeAll, show numberingSession.transport = (0, 0) from rfl, hwrite]

theorem encryptMessage_empty :
    encryptMessage ({ numberingSession with transport := (2, 0) } : NoiseSession numberingCipher) [] false
      = (.ok [emptyFrame], { numberingSession with transport := (3, 0) }) := by
  have hwrite : @writeAll numberingCipher (2, 0) (plaintextFrames [] false) = (.ok [emptyFrame], (3, 0)) := by
    rw [show plaintextFrames [] false = [[FRAME_BINARY]] from if_pos (Nat.zero_le _)]
    exact writeAll_numberingCipher_cons (by decide) (by decide) rfl
  rw [encryptMessage_eq_writeAll, hwrite]

/-- A client sends a message of two frames and an empty one, and the network hands the hub noise, the
last frame of the message, and its first frame twice. -/
def disorder (message first last : Bytes) : List DuplexEvent :=
  [.send .client message true, .send .client [] false, .deliver .hub [1], .deliver .hub last,
    .deliver .hub first, .deliver .hub first]

section

variable {message first last : Bytes}

theorem sent_disorder (h : encryptMessage numberingSession message true
      = (.ok [first, last], { numberingSession with transport := (2, 0) })) :
    ((Duplex.new numberingSession numberingSession).run (disorder message first last)).sent .client
      = { messages := [(message, true), ([], false)], frames := [first, last, emptyFrame],
          failed := false } := by
  show (((Duplex.new numberingSession numberingSession).send .client message true).send .client [] false).sent
    .client = _
  have hfirst : (Duplex.new numberingSession numberingSession).send .client message true
      = { Duplex.new numberingSession numberingSession with
          session := Function.update (Duplex.new numberingSession numberingSession).session .client
            { numberingSession with transport := (2, 0) }
          sent := Function.update (Duplex.new numberingSession numberingSession).sent .client
            { messages := [(message, true)], frames := [first, last], failed := false } } := by
    rw [Duplex.send, show (Duplex.new numberingSession numberingSession).session .client
      = numberingSession from rfl, h]
    rfl
  rw [hfirst, Duplex.send]
  simp only [Function.update_self, Bool.false_eq_true, if_false, encryptMessage_empty]
  rfl

theorem unforged_disorder (h : encryptMessage numberingSession message true
      = (.ok [first, last], { numberingSession with transport := (2, 0) })) :
    Unforged (Duplex.new numberingSession numberingSession) (disorder message first last) := by
  have hframes := congrArg Sent.frames (sent_disorder h)
  refine ⟨trivial, trivial, fun plaintext r hread => ?_, fun _ _ _ => ?_, fun _ _ _ => ?_, fun _ _ _ => ?_,
    trivial⟩
  · obtain ⟨-, hdata, -⟩ := numberingCipher_read hread
    have hlength := congrArg List.length hdata
    rw [List.length_append, countingTag, List.length_replicate] at hlength
    exact absurd hlength (by simp only [List.length_singleton, NOISE_TAG_SIZE]; omega)
  · exact hframes.symm ▸ List.mem_cons_of_mem _ List.mem_cons_self
  · exact hframes.symm ▸ List.mem_cons_self
  · exact hframes.symm ▸ List.mem_cons_self

end

/-- The run of the noise, the frame too early and the frame again. -/
theorem duplex_reads_prefix_disorder :
    let d := (Duplex.new numberingSession numberingSession).run (disorder longMessage longFrame lastFrame)
    let read := framesRead .hub (Duplex.new numberingSession numberingSession)
      (disorder longMessage longFrame lastFrame)
    read <+: [longFrame, lastFrame, emptyFrame]
    ∧ d.received .hub <+: [(longMessage, true), ([], false)]
    ∧ (d.run (([longFrame, lastFrame, emptyFrame].drop read.length).map (.deliver .hub))).received .hub
        = [(longMessage, true), ([], false)] := by
  dsimp only
  have hsent := sent_disorder encryptMessage_longMessage
  have hfit : Fit (((Duplex.new numberingSession numberingSession).run
      (disorder longMessage longFrame lastFrame)).sent .client).messages := by
    have hlong : longMessage.length ≤ NOISE_MAX_REASSEMBLY := by
      rw [longMessage_length, chunkSize_eq]
      decide
    rw [hsent]
    intro m hm
    rcases List.mem_pair.mp hm with rfl | rfl
    · exact hlong
    · exact Nat.zero_le _
  obtain ⟨hread, hall⟩ := duplex_reads_prefix inOrder_numberingCipher
    ⟨rfl, rfl, by decide, fun _ _ _ h => by cases h⟩ ⟨rfl, rfl, by decide, fun _ _ _ h => by cases h⟩
    rfl rfl (disorder longMessage longFrame lastFrame) (unforged_disorder encryptMessage_longMessage) .client
  have hboth := hall hfit
  have hpeer : Side.client.peer = .hub := rfl
  rw [hpeer, hsent] at hread hboth
  dsimp only at hread hboth
  exact ⟨hread, hboth⟩

end Thalovant.Noise
